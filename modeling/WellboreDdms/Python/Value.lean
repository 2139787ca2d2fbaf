import WellboreDdms.Python.Dict
import WellboreDdms.Python.Uuid
import Mathlib.Data.Rat.Defs

/-!
# Python values

The values that travel through the service's dictionaries: what JSON decodes to,
and the UUIDs and instants pydantic builds from text. A member of a `str`
enumeration is the string it is. Floats are the rationals they denote.
-/

namespace Python

/-- An instant, in microseconds since the epoch. -/
abbrev DateTime := Int

/-- A value as JSON has them, and what it is read as. -/
inductive Value where
  | none
  | bool (b : Bool)
  | int (i : Int)
  | float (q : ℚ)
  | str (s : String)
  | list (xs : List Value)
  | dict (items : List (String × Value))
  | uuid (u : UUID)
  | datetime (t : DateTime)

namespace Value

instance : Inhabited Value := ⟨.none⟩

/-- `bool(v)`. -/
def truthy : Value → Bool
  | .none => false
  | .bool b => b
  | .int i => decide (i ≠ 0)
  | .float q => decide (q ≠ 0)
  | .str s => decide (s ≠ "")
  | .list xs => !xs.isEmpty
  | .dict items => !items.isEmpty
  | .uuid _ => true
  | .datetime _ => true

theorem list_ne_none (xs : List Value) : Value.list xs ≠ .none := nofun

theorem str_ne_none (s : String) : Value.str s ≠ .none := nofun

/-- `isinstance(v, dict)`, with its items. -/
def asDict : Value → Option (Dict String Value)
  | .dict items => some items
  | _ => Option.none

end Value

/-- The values JSON text decodes to: no UUIDs, no instants, no key twice. -/
inductive Value.IsJson : Value → Prop
  | none : IsJson .none
  | bool (b : Bool) : IsJson (.bool b)
  | int (i : Int) : IsJson (.int i)
  | float (q : ℚ) : IsJson (.float q)
  | str (s : String) : IsJson (.str s)
  | list {xs : List Value} (h : ∀ v ∈ xs, v.IsJson) : IsJson (.list xs)
  | dict {items : List (String × Value)} (hkeys : (items.map Prod.fst).Nodup)
    (h : ∀ p ∈ items, p.2.IsJson) : IsJson (.dict items)

/-- The values of a JSON dictionary. -/
theorem Value.IsJson.get {items : Dict String Value} (h : (Value.dict items).IsJson) {k : String}
    {v : Value} (hget : Dict.get items k = some v) : v.IsJson := by
  cases h with
  | dict _ hall => exact hall _ (Dict.mem_of_get hget)

theorem Value.IsJson.nodup {items : Dict String Value} (h : (Value.dict items).IsJson) :
    (items.map Prod.fst).Nodup := by
  cases h with
  | dict hkeys _ => exact hkeys

end Python
