import WellboreDdms.Records.Record

/-!
# Record ids with a version

The record storage answers a write with `id:version`. `split_record_id_version`
takes such a text apart by two regular expressions.

- `matchesRecordId`: `[\w\-\.]+:[^\:]+:[\w\-\.\:\%]+`, on the whole text. Which
  characters are `\w` is left to the Unicode tables.
- `splitRecordIdVersion`: the function itself.
- `splitRecordIdVersion_append`: it reads `id:version` for every record id, if the version has no
  more digits than `int` reads; `splitRecordIdVersion_append_long`: else it raises.
-/

namespace WellboreDdms

open Python

section

variable (isWord : Char → Bool)

/-- `[\w\-\.]` -/
def isNamespaceChar (c : Char) : Bool := isWord c || c = '-' || c = '.'

/-- `[\w\-\.\:\%]` -/
def isIdChar (c : Char) : Bool := isNamespaceChar isWord c || c = ':' || c = '%'

/-- The first two groups have no colon, so the cuts are where the expression has its
colons. -/
def matchesRecordId (s : List Char) : Bool :=
  match cutFirst s with
  | some (namespaceName, s) =>
    match cutFirst s with
    | some (entityType, name) =>
      !namespaceName.isEmpty && namespaceName.all (isNamespaceChar isWord) &&
        !entityType.isEmpty && !name.isEmpty && name.all (isIdChar isWord)
    | none => false
  | none => false

/-- `$` also matches before a last line feed. -/
def dropLastLineFeed (s : List Char) : List Char :=
  if s.getLast? = some '\n' then s.dropLast else s

/-- The `ValueError` of `int`. -/
def tooManyDigits (digits : Nat) : Raised :=
  .valueError ("Exceeds the limit (" ++ toString maxStrDigits ++
    " digits) for integer string conversion: value has " ++ toString digits ++
    " digits; use sys.set_int_max_str_digits() to increase the limit")

/-- `None if not version else int(version)`, of digits. -/
def versionInt (version : List Char) : Except Raised (Option Nat) :=
  if version.isEmpty then .ok none
  else
    match decimalInt version with
    | some v => .ok (some v.toNat)
    | none => .error (tooManyDigits version.length)

/-- `split_record_id_version`. The digits of the version have no colon, so they are
what follows the last one. -/
def splitRecordIdVersion (recordId : String) : Except Raised (Option String × Option Nat) :=
  let s := dropLastLineFeed recordId.toList
  let unversioned := if matchesRecordId isWord s then some recordId else none
  match cutLast s with
  | some (id, version) =>
    if matchesRecordId isWord id && version.all Char.isDigit then
      (versionInt version).map fun v => (some (String.ofList id), v)
    else .ok (unversioned, none)
  | none => .ok (unversioned, none)

/-- The texts `OSDU_RECORD_ID_REGEX` matches as a whole. -/
def IsRecordId (recordId : String) : Prop := matchesRecordId isWord recordId.toList = true

end

/-- A character that is no digit does not occur in a number. -/
theorem not_mem_toDigits {c : Char} (hc : c.isDigit = false) (v : Nat) :
    c ∉ Nat.toDigits 10 v := by
  intro h
  have hdigit := Nat.isDigit_of_mem_toDigits (by decide) (by decide) h
  rw [hc] at hdigit
  cases hdigit

/-- The number that is read from digits, unless they are too many. -/
theorem versionInt_of_digits {version : List Char} (h : ∀ c ∈ version, c.isDigit = true) :
    versionInt version =
      if version.isEmpty then .ok none
      else if version.length ≤ maxStrDigits then .ok (some (Nat.ofDigitChars 10 version 0))
      else .error (tooManyDigits version.length) := by
  rw [versionInt]
  by_cases hempty : version.isEmpty = true
  · rw [if_pos hempty, if_pos hempty]
  · have hne : version ≠ [] := mt List.isEmpty_iff.mpr hempty
    rw [if_neg hempty, if_neg hempty, decimalInt_of_digits hne h]
    by_cases hlength : version.length ≤ maxStrDigits
    · rw [if_pos hlength, if_pos hlength]
      rfl
    · rw [if_neg hlength, if_neg hlength]

/-- The text of an id and a version is cut between the two. -/
theorem splitRecordIdVersion_toDigits {isWord : Char → Bool} {recordId : String}
    (h : IsRecordId isWord recordId) (v : Nat) :
    splitRecordIdVersion isWord (recordId ++ ":" ++ toString v) =
      if (Nat.toDigits 10 v).length ≤ maxStrDigits then .ok (some recordId, some v)
      else .error (tooManyDigits (Nat.toDigits 10 v).length) := by
  have htext : (recordId ++ ":" ++ toString v).toList =
      recordId.toList ++ ':' :: Nat.toDigits 10 v := by
    rw [String.toList_append, String.toList_append, Nat.toString_eq_ofList_toDigits,
      String.toList_ofList]
    simp
  -- a number does not end with a line feed
  have hlast : dropLastLineFeed (recordId.toList ++ ':' :: Nat.toDigits 10 v) =
      recordId.toList ++ ':' :: Nat.toDigits 10 v := by
    refine if_neg fun hfeed => ?_
    have hmem : '\n' ∈ ':' :: Nat.toDigits 10 v := by
      rw [List.getLast?_append_of_ne_nil _ (List.cons_ne_nil _ _)] at hfeed
      exact List.mem_of_getLast? hfeed
    rcases List.mem_cons.mp hmem with heq | hmem
    · exact absurd heq (by decide)
    · exact not_mem_toDigits (by decide) v hmem
  have hdigit : ∀ c ∈ Nat.toDigits 10 v, c.isDigit = true := fun _ hc =>
    Nat.isDigit_of_mem_toDigits (by decide) (by decide) hc
  have hcond : (matchesRecordId isWord recordId.toList &&
      (Nat.toDigits 10 v).all Char.isDigit) = true :=
    Bool.and_eq_true_iff.mpr ⟨h, List.all_eq_true.mpr hdigit⟩
  have hne : (Nat.toDigits 10 v).isEmpty = false :=
    List.isEmpty_eq_false_iff.mpr Nat.toDigits_ne_nil
  simp only [splitRecordIdVersion, htext, hlast, cutLast_append _ (not_mem_toDigits (by decide) v),
    hcond, if_true, versionInt_of_digits hdigit, hne, Bool.false_eq_true, if_false,
    Nat.ofDigitChars_ten_toDigits, String.ofList_toList]
  split
  · rfl
  · rfl

/-- **The answer of the record storage is read**: the id and the version come back. -/
theorem splitRecordIdVersion_append {isWord : Char → Bool} {recordId : String}
    (h : IsRecordId isWord recordId) {v : Nat} (hv : v < 10 ^ maxStrDigits) :
    splitRecordIdVersion isWord (recordId ++ ":" ++ toString v) =
      .ok (some recordId, some v) := by
  rw [splitRecordIdVersion_toDigits h, if_pos]
  exact (Nat.length_toDigits_le_iff (by decide) (by decide)).mpr hv

/-- A version that is too long is not read. -/
theorem splitRecordIdVersion_append_long {isWord : Char → Bool} {recordId : String}
    (h : IsRecordId isWord recordId) {v : Nat} (hv : 10 ^ maxStrDigits ≤ v) :
    splitRecordIdVersion isWord (recordId ++ ":" ++ toString v) =
      .error (tooManyDigits (Nat.toDigits 10 v).length) := by
  rw [splitRecordIdVersion_toDigits h, if_neg]
  intro hlength
  exact hv.not_gt ((Nat.length_toDigits_le_iff (by decide) (by decide)).mp hlength)

end WellboreDdms
