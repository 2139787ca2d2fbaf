import WellboreDdms.Python.Value

/-!
# What pydantic does to a field

The conversions of single values that a pydantic model applies to its fields, and
the JSON text they end in. They are third-party code: only what is documented of
them is assumed, each law on the values of the type itself.

- `dumps`, `loads`: JSON text of a value and back; `τ` is the type of texts.
- `uuid`, `string`, `integer`, `datetime`: the validators of the field types, in
  JSON as in Python mode.
- `isoformat`: the text of an instant in JSON; `repr` is Python's.
- `Pydantic.trees`: the laws hold together, with JSON trees for their texts.
-/

namespace Python

/-- What the parsers and printers of values make of them, with the laws that the code relies on. -/
structure Pydantic (τ : Type) where
  dumps : Value → τ
  loads : τ → Option Value
  uuid : Value → Option UUID
  string : Value → Option String
  integer : Value → Option Int
  datetime : Value → Option DateTime
  isoformat : DateTime → String
  repr : Value → String
  isJson_of_loads : ∀ {t v}, loads t = some v → v.IsJson
  loads_dumps : ∀ {v}, v.IsJson → loads (dumps v) = some v
  uuid_uuid : ∀ u, uuid (.uuid u) = some u
  uuid_text : ∀ u : UUID, uuid (.str u.text) = some u
  string_str : ∀ s, string (.str s) = some s
  integer_int : ∀ i, integer (.int i) = some i
  datetime_datetime : ∀ t, datetime (.datetime t) = some t
  datetime_isoformat : ∀ t, datetime (.str (isoformat t)) = some t

namespace Pydantic

attribute [simp] uuid_uuid uuid_text string_str integer_int datetime_datetime datetime_isoformat

/-- `str(v)`: a string is itself, every other value prints as `repr` does. -/
def str {τ : Type} (py : Pydantic τ) : Value → String
  | .str s => s
  | v => py.repr v

/-- A field of an enumeration of strings. -/
def enum {α : Type} (ofValue : String → Option α) : Value → Option α
  | .str s => ofValue s
  | _ => none

/-- A field `Optional[..]`. -/
def optional {α : Type} (validate : Value → Option α) : Value → Option (Option α)
  | .none => some none
  | v => (validate v).map some

/-! ## An instance -/

/-- The ISO 8601 texts of some instants of the first two days. -/
def isoTexts : List (DateTime × String) :=
  [(0, "1970-01-01T00:00:00Z"), (60000000, "1970-01-01T00:01:00Z"),
    (120000000, "1970-01-01T00:02:00Z"), (86400000000, "1970-01-02T00:00:00Z")]

/-- A text for every other instant: its sign and its size in unary. -/
def unaryText (t : Int) : List Char :=
  (if t < 0 then '-' else '+') :: List.replicate t.natAbs 'u'

/-- The number that a unary text stands for. -/
def unaryInstant : List Char → Int
  | c :: s => if c = '-' then -(s.length : Int) else s.length
  | [] => 0

/-- Reading a unary text gives the number back. -/
theorem unaryInstant_unaryText (t : Int) : unaryInstant (unaryText t) = t := by
  by_cases ht : t < 0
  · have habs : -(t.natAbs : Int) = t := by omega
    simpa [unaryText, unaryInstant, ht] using habs
  · have habs : (t.natAbs : Int) = t := by omega
    simpa [unaryText, unaryInstant, ht] using habs

/-- The text of a date: the ISO texts for the dates in use, and unary ones for the rest. -/
def instantText (t : DateTime) : String :=
  match isoTexts.find? fun p => p.1 = t with
  | some p => p.2
  | none => String.ofList (unaryText t)

/-- The date of a text. -/
def textInstant (s : String) : DateTime :=
  match isoTexts.find? fun p => p.2 = s with
  | some p => p.1
  | none => unaryInstant s.toList

/-- Reading the text of a date gives the date back. -/
theorem textInstant_instantText (t : DateTime) : textInstant (instantText t) = t := by
  unfold instantText
  cases h : isoTexts.find? fun p => p.1 = t with
  | some p =>
    have hp : ∀ q ∈ isoTexts, textInstant q.2 = q.1 := by decide
    have ht : p.1 = t := by simpa using List.find?_some h
    rw [← ht]
    exact hp p (List.mem_of_find?_eq_some h)
  | none =>
    have hsign : ∀ q ∈ isoTexts, q.2.toList.head? = some '1' := by decide
    have hnone : isoTexts.find? (fun q => q.2 = String.ofList (unaryText t)) = none := by
      rw [List.find?_eq_none]
      intro q hq heq
      have hhead := hsign q hq
      rw [of_decide_eq_true heq, String.toList_ofList, unaryText, List.head?_cons] at hhead
      split at hhead <;> cases hhead
    simp only [textInstant, hnone, String.toList_ofList, unaryInstant_unaryText]

open Classical in
/-- JSON trees instead of texts. -/
noncomputable def trees : Pydantic Value where
  dumps := id
  loads := fun v => if v.IsJson then some v else none
  uuid
    | .uuid u => some u
    | .str s => UUID.parse s
    | _ => none
  string
    | .str s => some s
    | _ => none
  integer
    | .int i => some i
    | _ => none
  datetime
    | .datetime t => some t
    | .str s => some (textInstant s)
    | _ => none
  isoformat := instantText
  repr := fun _ => ""
  isJson_of_loads := by
    intro t v h
    obtain ⟨hjson, h⟩ := Option.ite_none_right_eq_some.mp h
    cases h
    exact hjson
  loads_dumps := fun h => if_pos h
  uuid_uuid := fun _ => rfl
  uuid_text := UUID.parse_text
  string_str := fun _ => rfl
  integer_int := fun _ => rfl
  datetime_datetime := fun _ => rfl
  datetime_isoformat := fun t => congrArg some (textInstant_instantText t)

end Pydantic

end Python
