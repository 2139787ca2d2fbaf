import WellboreDdms.Python.Value
import Mathlib.Algebra.Order.Ring.Rat
import Mathlib.Data.List.Infix
import Mathlib.Order.WithBot

/-!
# Operations on values that raise

What a Python program does to a value without looking at its type first. Each operation
returns, or raises the exception of the type that lacks it.

- `iterate`, `lookup`, `item`, `containsText`, `hashable`: loops, `v.get(..)`, `v[..]`,
  `.. in v` and the use of a value as a key.
- `eqInt`, `eqText`, `sameKey`: comparisons of a value with an integer, with a text and of
  two keys.
- `FloatArithmetic`: `float(..)` and `math.isclose`, on the numbers of the type `φ`. Only
  which values `float` converts is given; the numbers themselves are a parameter.
- `FloatArithmetic.exact`: numbers without rounding.
-/

namespace Python

/-- The built-in exceptions of these operations. -/
inductive PyError where
  | typeError
  | attributeError
  | keyError (key : String)
  | valueError
  | overflowError
  deriving DecidableEq

namespace Value

/-- The items of `for x in v`. -/
def iterate : Value → Except PyError (List Value)
  | .list xs => .ok xs
  | .dict items => .ok (items.map fun p => .str p.1)
  | .str s => .ok (s.toList.map fun c => .str (String.singleton c))
  | _ => .error .typeError

/-- `v.get(key)`, which only dictionaries have. -/
def lookup (v : Value) (key : String) : Except PyError (Option Value) :=
  match v with
  | .dict items => .ok (Dict.get items key)
  | _ => .error .attributeError

/-- `v[key]`. -/
def item (v : Value) (key : String) : Except PyError Value :=
  match v with
  | .dict items =>
    match Dict.get items key with
    | some w => .ok w
    | Option.none => .error (.keyError key)
  | _ => .error .typeError

/-- The value may be a key. -/
def hashable : Value → Bool
  | .list _ | .dict _ => false
  | _ => true

/-- `v == n`. -/
def eqInt : Value → Int → Bool
  | .bool b, n => (if b then 1 else 0) = n
  | .int i, n => i = n
  | .float q, n => q = n
  | _, _ => false

/-- `v == s`. -/
def eqText : Value → String → Bool
  | .str t, s => t = s
  | _, _ => false

/-- The number a value is equal to. -/
def toRat : Value → Option ℚ
  | .bool b => some (if b then 1 else 0)
  | .int i => some i
  | .float q => some q
  | _ => Option.none

/-- `v == w`, of values that are hashable: they are one key. -/
def sameKey : Value → Value → Bool
  | .none, .none => true
  | .str s, .str t => s = t
  | .uuid u, .uuid w => u = w
  | .datetime t, .datetime u => t = u
  | v, w => (v.toRat.bind fun q => w.toRat.map fun r => decide (q = r)).getD false

/-- `s in v`. -/
def containsText (v : Value) (s : String) : Except PyError Bool :=
  match v with
  | .list xs => .ok (xs.any fun x => x.eqText s)
  | .dict items => .ok (Dict.contains items s)
  | .str t => .ok (decide (s.toList <:+: t.toList))
  | _ => .error .typeError

/-- A value equals a text only if it is that text. -/
theorem eqText_iff {v : Value} {s : String} : v.eqText s = true ↔ v = .str s := by
  cases v <;> simp [eqText]

end Value

/-- A number of a column: NaN, an infinity or a rational. -/
abbrev Number := Option (WithBot (WithTop ℚ))

/-- What a cell of a column holds: a number, or some other value. -/
inductive Cell where
  | number (x : Number)
  | value (v : Value)

/-- The numbers `float` makes, and `math.isclose` on them. `ofInt` fails for an integer
that is too large, `parse` for a text that spells no number. -/
structure FloatArithmetic (φ : Type) where
  ofInt : Int → Option φ
  ofRat : ℚ → φ
  ofNumber : Number → φ
  parse : String → Option φ
  isclose : φ → φ → Bool

namespace FloatArithmetic

variable {φ : Type} (fa : FloatArithmetic φ)

/-- `float(v)`. -/
def float : Value → Except PyError φ
  | .bool b => (fa.ofInt (if b then 1 else 0)).elim (.error .overflowError) .ok
  | .int i => (fa.ofInt i).elim (.error .overflowError) .ok
  | .float q => .ok (fa.ofRat q)
  | .str s => (fa.parse s).elim (.error .valueError) .ok
  | _ => .error .typeError

/-- `float(..)` of a cell. -/
def floatOfCell : Cell → Except PyError φ
  | .number x => .ok (fa.ofNumber x)
  | .value v => fa.float v

/-- Numbers without rounding; the texts are not parsed. -/
def exact : FloatArithmetic Number where
  ofInt := fun i => some (some ((i : ℚ) : WithTop ℚ))
  ofRat := fun q => some ((q : ℚ) : WithTop ℚ)
  ofNumber := id
  parse := fun _ => none
  isclose
    | some (some (some a)), some (some (some b)) =>
      |a - b| ≤ 1 / 1000000000 * max |a| |b|
    | some a, some b => a = b
    | _, _ => false

end FloatArithmetic

end Python
