import Mathlib.Algebra.Group.Int.Defs
import Mathlib.Algebra.Group.Nat.Defs
import Mathlib.Data.List.Basic
import Mathlib.Data.List.TakeWhile

/-!
# Python text operations

The `str` and `int` operations the service applies to identifiers, on lists of
characters, as CPython defines them.

- `removeAll pat s` is `s.replace(pat, '')`: occurrences are taken from the left
  and do not overlap.
- `strip p s` is `s.strip(chars)`.
- `transformDecimalAndSpaceToASCII`: what `int` does to a text first. White space and the decimal
  digits of every script become those of ASCII, and what is parsed is ASCII.
- `hexInt s` is `int(s, 16)`: a sign, a `0x` prefix and single underscores between digits are
  accepted, and the white space of ASCII around them.
- `decimalInt s` is `int(s)`, by the same rules and of at most `maxStrDigits` digits;
  `decimalInt_repr`: it reads what `str` writes.
- `repr_lt_repr`: the texts of numbers with as many digits sort as the numbers.
- `split s` is `s.split(':')`, `splitText` its form for any separator, `splitMax` the one with
  `maxsplit`, and `join` the inverse; `cutFirst` and `cutLast` cut at one colon, and `lastPart`
  is what follows the last slash.
-/

namespace Python

/-- `s.replace(pat, '')`; `skip` characters of an occurrence are still to drop. -/
def removeFrom (pat : List Char) : Nat → List Char → List Char
  | _, [] => []
  | skip + 1, _ :: s => removeFrom pat skip s
  | 0, c :: s =>
    if pat.isPrefixOf (c :: s) then removeFrom pat (pat.length - 1) s
    else c :: removeFrom pat 0 s

/-- `s.replace(pat, '')`. -/
def removeAll (pat s : List Char) : List Char := removeFrom pat 0 s

/-- `s.strip(chars)`, for the characters that satisfy `p`. -/
def strip (p : Char → Bool) (s : List Char) : List Char :=
  ((s.dropWhile p).reverse.dropWhile p).reverse

/-- `s.split(':')`. -/
def split (s : String) : List String := (s.toList.splitOn ':').map String.ofList

/-- `':'.join(parts)`. -/
def join (parts : List String) : String :=
  String.ofList ([':'].intercalate (parts.map String.toList))

/-- `s.split(':', maxsplit=max)`: the last part keeps the separators left over. -/
def splitMax (max : Nat) (s : String) : List String :=
  let parts := split s
  if parts.length ≤ max + 1 then parts else parts.take max ++ [join (parts.drop max)]

/-- Enough splits are as good as any number. -/
theorem splitMax_of_le {max : Nat} {s : String} (h : (split s).length ≤ max + 1) :
    splitMax max s = split s :=
  if_pos h

/-- Text up to a colon, the colon, and the rest. -/
theorem split_of_colon {s : String} {a b : List Char} (h : s.toList = a ++ ':' :: b)
    (ha : ':' ∉ a) : split s = String.ofList a :: split (String.ofList b) := by
  rw [split, h, List.splitOn_append_cons_self_of_not_mem ha, List.map_cons, split,
    String.toList_ofList]

theorem split_of_not_mem {a : List Char} (h : ':' ∉ a) :
    split (String.ofList a) = [String.ofList a] := by
  rw [split, String.toList_ofList, List.splitOn_eq_singleton h, List.map_singleton]

/-- A text with a colon has two parts or more. -/
theorem exists_split_of_mem {s : String} (h : ':' ∈ s.toList) :
    ∃ a b parts, split s = a :: b :: parts := by
  obtain ⟨a, b, hs, ha⟩ := List.eq_append_cons_of_mem h
  obtain ⟨c, parts, hparts⟩ : ∃ c parts, split (String.ofList b) = c :: parts := by
    refine List.exists_cons_of_ne_nil fun hnil => ?_
    exact List.splitOn_ne_nil ':' _ (List.map_eq_nil_iff.mp hnil)
  exact ⟨_, c, parts, by rw [split_of_colon hs ha, hparts]⟩

/-- Two parts or more are joined by a colon. -/
theorem colon_mem_join (a b : String) (parts : List String) :
    ':' ∈ (join (a :: b :: parts)).toList := by
  rw [join, String.toList_ofList, List.map_cons, List.map_cons, List.intercalate_cons_cons]
  simp

/-- Without line breaks. -/
def SingleLine (s : String) : Prop := '\n' ∉ s.toList

instance (s : String) : Decidable (SingleLine s) :=
  inferInstanceAs (Decidable ('\n' ∉ s.toList))

/-- `s.lower()`, for ASCII letters. -/
def lower (s : String) : String := String.ofList (s.toList.map Char.toLower)

/-- The text before the first colon and the text after it. -/
def cutFirst (s : List Char) : Option (List Char × List Char) :=
  match s.dropWhile (fun c => c ≠ ':') with
  | _ :: rest => some (s.takeWhile fun c => c ≠ ':', rest)
  | [] => none

/-- The text before the last colon and the text after it. -/
def cutLast (s : List Char) : Option (List Char × List Char) :=
  (cutFirst s.reverse).map fun p => (p.2.reverse, p.1.reverse)

theorem cutFirst_append {a : List Char} (h : ':' ∉ a) (b : List Char) :
    cutFirst (a ++ ':' :: b) = some (a, b) := by
  have ha : ∀ c ∈ a, decide (c ≠ ':') = true := by
    intro c hc
    exact decide_eq_true fun heq => h (heq ▸ hc)
  simp only [cutFirst, List.dropWhile_append_of_pos ha, List.takeWhile_append_of_pos ha]
  simp

theorem cutFirst_eq_some_iff {s a b : List Char} :
    cutFirst s = some (a, b) ↔ s = a ++ ':' :: b ∧ ':' ∉ a := by
  constructor
  · intro h
    by_cases hs : ':' ∈ s
    · obtain ⟨a', b', rfl, ha'⟩ := List.eq_append_cons_of_mem hs
      rw [cutFirst_append ha'] at h
      obtain ⟨rfl, rfl⟩ := Prod.mk.inj (Option.some.inj h)
      exact ⟨rfl, ha'⟩
    · have hnil : s.dropWhile (fun c => c ≠ ':') = [] := by
        rw [List.dropWhile_eq_nil_iff]
        exact fun c hc => decide_eq_true fun heq => hs (heq ▸ hc)
      rw [cutFirst, hnil] at h
      cases h
  · rintro ⟨rfl, ha⟩
    exact cutFirst_append ha b

theorem cutLast_append {b : List Char} (a : List Char) (h : ':' ∉ b) :
    cutLast (a ++ ':' :: b) = some (a, b) := by
  have hrev : (a ++ ':' :: b).reverse = b.reverse ++ ':' :: a.reverse := by simp
  have hb : ':' ∉ b.reverse := fun hc => h (List.mem_reverse.mp hc)
  rw [cutLast, hrev, cutFirst_append hb]
  simp

theorem cutLast_eq_some_iff {s a b : List Char} :
    cutLast s = some (a, b) ↔ s = a ++ ':' :: b ∧ ':' ∉ b := by
  constructor
  · intro h
    obtain ⟨⟨b', a'⟩, hcut, heq⟩ := Option.map_eq_some_iff.mp h
    obtain ⟨rfl, rfl⟩ := Prod.mk.inj heq
    obtain ⟨hs, hb⟩ := cutFirst_eq_some_iff.mp hcut
    refine ⟨?_, fun hmem => hb (List.mem_reverse.mp hmem)⟩
    rw [← List.reverse_reverse s, hs]
    simp
  · rintro ⟨rfl, hb⟩
    exact cutLast_append a hb

/-- `s.split(pat)`; `skip` characters of an occurrence are still to drop. -/
def splitTextFrom (pat : List Char) : Nat → List Char → List (List Char)
  | _, [] => [[]]
  | skip + 1, _ :: s => splitTextFrom pat skip s
  | 0, c :: s =>
    if pat.isPrefixOf (c :: s) then [] :: splitTextFrom pat (pat.length - 1) s
    else
      match splitTextFrom pat 0 s with
      | part :: parts => (c :: part) :: parts
      | [] => [[c]]

/-- `s.split(pat)`, for a separator of any length. -/
def splitText (pat s : String) : List String :=
  (splitTextFrom pat.toList 0 s.toList).map String.ofList

/-- `s.split('/')[-1]` -/
def lastPart (s : String) : String := String.ofList ((s.toList.splitOn '/').getLastD [])

theorem lastPart_of_slash {s : String} {a b : List Char} (h : s.toList = a ++ '/' :: b)
    (hb : '/' ∉ b) : lastPart s = String.ofList b := by
  rw [lastPart, h, List.splitOn_append_cons_self, List.splitOn_eq_singleton hb,
    List.getLastD_concat]

/-! ## Characters -/

/-- The code points for which `str.isspace` holds. -/
def whitespace : List Nat :=
  [0x9, 0xa, 0xb, 0xc, 0xd, 0x1c, 0x1d, 0x1e, 0x1f, 0x20, 0x85, 0xa0, 0x1680, 0x2000,
   0x2001, 0x2002, 0x2003, 0x2004, 0x2005, 0x2006, 0x2007, 0x2008, 0x2009, 0x200a, 0x2028,
   0x2029, 0x202f, 0x205f, 0x3000]

/-- The code points of the digit zero of each script. -/
def zeros : List Nat :=
  [0x30, 0x660, 0x6f0, 0x7c0, 0x966, 0x9e6, 0xa66, 0xae6, 0xb66, 0xbe6, 0xc66, 0xce6,
   0xd66, 0xde6, 0xe50, 0xed0, 0xf20, 0x1040, 0x1090, 0x17e0, 0x1810, 0x1946, 0x19d0,
   0x1a80, 0x1a90, 0x1b50, 0x1bb0, 0x1c40, 0x1c50, 0xa620, 0xa8d0, 0xa900, 0xa9d0, 0xa9f0,
   0xaa50, 0xabf0, 0xff10, 0x104a0, 0x10d30, 0x11066, 0x110f0, 0x11136, 0x111d0, 0x112f0,
   0x11450, 0x114d0, 0x11650, 0x116c0, 0x11730, 0x118e0, 0x11950, 0x11c50, 0x11d50,
   0x11da0, 0x11f50, 0x16a60, 0x16ac0, 0x16b50, 0x1d7ce, 0x1d7d8, 0x1d7e2, 0x1d7ec,
   0x1d7f6, 0x1e140, 0x1e2f0, 0x1e4f0, 0x1e950, 0x1fbf0]

/-- `str.isspace`, for one character; `str.strip` removes these. -/
def isSpace (c : Char) : Bool := c.toNat ∈ whitespace

/-- The white space of the C locale, which is all that `int` skips. -/
def isAsciiSpace (c : Char) : Bool := c.toNat ∈ [0x9, 0xa, 0xb, 0xc, 0xd, 0x20]

/-- The value of a decimal digit, of any script. -/
def decimalValue (c : Char) : Option Nat :=
  (zeros.find? fun z => z ≤ c.toNat && c.toNat < z + 10).map fun z => c.toNat - z

/-- The value of a hexadecimal digit of ASCII. -/
def hexValue (c : Char) : Option Nat :=
  if 'a' ≤ c ∧ c ≤ 'f' then some (c.toNat - 'a'.toNat + 10)
  else if 'A' ≤ c ∧ c ≤ 'F' then some (c.toNat - 'A'.toNat + 10)
  else if c.isDigit then some (c.toNat - '0'.toNat)
  else none

/-- The characters of a text that is not ASCII, as `int` parses them: white space is a space and
a decimal digit that of ASCII. Nothing is read after another character, a question mark. -/
def toAscii : List Char → List Char
  | [] => []
  | c :: s =>
    if c.toNat < 127 then c :: toAscii s
    else if isSpace c then ' ' :: toAscii s
    else
      match decimalValue c with
      | some d => Char.ofNat ('0'.toNat + d) :: toAscii s
      | none => ['?']

/-- `_PyUnicode_TransformDecimalAndSpaceToASCII`, the first thing that `int` does to a text. -/
def transformDecimalAndSpaceToASCII (s : List Char) : List Char :=
  if s.all fun c => c.toNat < 128 then s else toAscii s

/-! ## `int(s, 16)` -/

/-- The digits of a base 16 literal; an underscore stands between two digits. -/
def hexDigits (acc : Nat) (afterDigit : Bool) : List Char → Option Nat
  | [] => if afterDigit then some acc else none
  | c :: s =>
    if c = '_' then
      if afterDigit then hexDigits acc false s else none
    else
      match hexValue c with
      | some d => hexDigits (acc * 16 + d) true s
      | none => none

/-- The optional prefix `0x` of a base 16 literal, with the underscore that may
follow it. -/
def dropHexPrefix : List Char → List Char
  | '0' :: x :: s =>
    if x = 'x' ∨ x = 'X' then
      match s with
      | '_' :: s => s
      | s => s
    else '0' :: x :: s
  | s => s

/-- A literal after white space and a sign, before white space. -/
def signedInt (literal : List Char → Option Nat) (s : List Char) : Option Int :=
  match strip isAsciiSpace (transformDecimalAndSpaceToASCII s) with
  | '-' :: s => (literal s).map fun n => -(n : Int)
  | '+' :: s => (literal s).map Int.ofNat
  | s => (literal s).map Int.ofNat

/-- `int(s, 16)`; `none` is the `ValueError`. The number of digits is not limited. -/
def hexInt (s : List Char) : Option Int :=
  signedInt (fun s => hexDigits 0 false (dropHexPrefix s)) s

/-! ## `int(s)` -/

/-- The digits of a decimal literal; an underscore stands between two digits. -/
def decimalDigits (acc : Nat) (afterDigit : Bool) : List Char → Option Nat
  | [] => if afterDigit then some acc else none
  | c :: s =>
    if c = '_' then
      if afterDigit then decimalDigits acc false s else none
    else if c.isDigit then decimalDigits (acc * 10 + (c.toNat - '0'.toNat)) true s
    else none

/-- `sys.get_int_max_str_digits()`, where nothing has changed it: the digits that `int(s)` reads
at most, and `str(i)` writes. -/
def maxStrDigits : Nat := 4300

/-- A decimal literal, of which the underscores are not counted. -/
def decimalLiteral (s : List Char) : Option Nat :=
  if (s.filter fun c => c ≠ '_').length ≤ maxStrDigits then decimalDigits 0 false s else none

/-- `int(s)`; `none` is the `ValueError`. -/
def decimalInt (s : List Char) : Option Int := signedInt decimalLiteral s

/-! ## Text the operations leave alone -/

/-- A pattern with a character that the text lacks does not occur in it. -/
theorem removeAll_of_not_mem {pat s : List Char} {c : Char} (hc : c ∈ pat) (hs : c ∉ s) :
    removeAll pat s = s := by
  unfold removeAll
  induction s with
  | nil => rfl
  | cons d s ih =>
    have hpre : pat.isPrefixOf (d :: s) = false := by
      rw [Bool.eq_false_iff]
      intro h
      exact hs ((List.isPrefixOf_iff_prefix.mp h).subset hc)
    rw [removeFrom, hpre, ih (fun h => hs (List.mem_cons_of_mem _ h))]
    rfl

/-- An occurrence at the front is dropped. -/
theorem removeAll_append {pat : List Char} (hpat : pat ≠ []) (s : List Char) :
    removeAll pat (pat ++ s) = removeAll pat s := by
  have hdrop : ∀ (t : List Char), removeFrom pat t.length (t ++ s) = removeAll pat s := by
    intro t
    induction t with
    | nil => rfl
    | cons c t ih => exact ih
  obtain ⟨c, t, rfl⟩ := List.exists_cons_of_ne_nil hpat
  have hpre : (c :: t).isPrefixOf (c :: (t ++ s)) = true :=
    List.isPrefixOf_iff_prefix.mpr ⟨s, rfl⟩
  show removeFrom (c :: t) 0 (c :: (t ++ s)) = _
  rw [removeFrom, if_pos hpre]
  exact hdrop t

/-- Stripping characters that do not occur changes nothing. -/
theorem strip_of_forall {p : Char → Bool} {s : List Char} (h : ∀ c ∈ s, p c = false) :
    strip p s = s := by
  have hdrop : ∀ t : List Char, (∀ c ∈ t, p c = false) → t.dropWhile p = t := by
    intro t ht
    cases t with
    | nil => rfl
    | cons c t => simp [ht c List.mem_cons_self]
  rw [strip, hdrop s h, hdrop _ (fun c hc => h c (List.mem_reverse.mp hc)), List.reverse_reverse]

/-! ## Where a text is split -/

section

variable {pat : List Char}

theorem splitTextFrom_drop (x s : List Char) :
    splitTextFrom pat x.length (x ++ s) = splitTextFrom pat 0 s := by
  induction x with
  | nil => rfl
  | cons c x ih => exact ih

/-- Without the separator, the text is one piece. -/
theorem splitTextFrom_of_absent {s : List Char} (h : ¬ pat <:+: s) :
    splitTextFrom pat 0 s = [s] := by
  induction s with
  | nil => rfl
  | cons c s ih =>
    have hpre : ¬ pat.isPrefixOf (c :: s) = true :=
      fun hpre => h (List.isPrefixOf_iff_prefix.mp hpre).isInfix
    rw [splitTextFrom, if_neg hpre, ih fun hinfix => h (List.infix_cons hinfix)]

/-- The cut is made at the first occurrence: none begins before it. -/
theorem splitTextFrom_first (hpat : pat ≠ []) {a : List Char}
    (h : ¬ pat <:+: a ++ pat.dropLast) (b : List Char) :
    splitTextFrom pat 0 (a ++ (pat ++ b)) = a :: splitTextFrom pat 0 b := by
  induction a with
  | nil =>
    obtain ⟨c, t, rfl⟩ := List.exists_cons_of_ne_nil hpat
    have hpre : (c :: t).isPrefixOf (c :: (t ++ b)) = true :=
      List.isPrefixOf_iff_prefix.mpr ⟨b, rfl⟩
    show splitTextFrom (c :: t) 0 (c :: (t ++ b)) = _
    rw [splitTextFrom, if_pos hpre]
    exact congrArg _ (splitTextFrom_drop t b)
  | cons c a ih =>
    have hpre : ¬ pat.isPrefixOf (c :: (a ++ (pat ++ b))) = true := by
      intro hpre
      -- an occurrence here would end before the one that is cut out
      have hstart : pat <+: c :: (a ++ pat.dropLast) := by
        have hlong : c :: (a ++ pat.dropLast) <+: c :: (a ++ (pat ++ b)) := by
          have hlast : pat.dropLast <+: pat ++ b :=
            (List.dropLast_prefix pat).trans (List.prefix_append pat b)
          simpa using hlast
        refine List.prefix_of_prefix_length_le (List.isPrefixOf_iff_prefix.mp hpre) hlong ?_
        have hpos := List.length_pos_of_ne_nil hpat
        simp only [List.length_cons, List.length_append, List.length_dropLast]
        omega
      exact h hstart.isInfix
    have hrest : ¬ pat <:+: a ++ pat.dropLast := fun hinfix => h (List.infix_cons hinfix)
    rw [List.cons_append, splitTextFrom, if_neg hpre, ih hrest]

/-- A separator that occurs has a first place. -/
theorem exists_first_of_infix (hpat : pat ≠ []) {s : List Char} (h : pat <:+: s) :
    ∃ a b, s = a ++ (pat ++ b) ∧ ¬ pat <:+: a ++ pat.dropLast := by
  induction s with
  | nil => exact absurd (List.infix_nil.mp h) hpat
  | cons c s ih =>
    by_cases hpre : pat <+: c :: s
    · obtain ⟨b, hb⟩ := hpre
      refine ⟨[], b, hb.symm, fun hinfix => ?_⟩
      have hlength := hinfix.length_le
      have hpos := List.length_pos_of_ne_nil hpat
      simp only [List.nil_append, List.length_dropLast] at hlength
      omega
    · obtain ⟨a, b, rfl, hfirst⟩ := ih ((List.infix_cons_iff.mp h).resolve_left hpre)
      refine ⟨c :: a, b, rfl, fun hinfix => ?_⟩
      rcases List.infix_cons_iff.mp hinfix with hstart | hinfix
      · have hlast : pat.dropLast <+: pat ++ b :=
          (List.dropLast_prefix pat).trans (List.prefix_append pat b)
        refine hpre (hstart.trans ?_)
        simpa using hlast
      · exact hfirst hinfix

theorem splitTextFrom_ne_nil (s : List Char) : splitTextFrom pat 0 s ≠ [] := by
  induction s with
  | nil => exact nofun
  | cons c s ih =>
    rw [splitTextFrom]
    split
    · exact nofun
    · split
      · exact nofun
      · exact nofun

/-- A text splits in two around its only occurrence. -/
theorem splitTextFrom_pair_iff (hpat : pat ≠ []) {s p q : List Char} :
    splitTextFrom pat 0 s = [p, q] ↔
      s = p ++ (pat ++ q) ∧ ¬ pat <:+: p ++ pat.dropLast ∧ ¬ pat <:+: q := by
  constructor
  · intro hsplit
    by_cases hinfix : pat <:+: s
    · obtain ⟨a, b, rfl, hfirst⟩ := exists_first_of_infix hpat hinfix
      rw [splitTextFrom_first hpat hfirst] at hsplit
      obtain ⟨rfl, hb⟩ := List.cons.inj hsplit
      by_cases hagain : pat <:+: b
      · obtain ⟨a', b', rfl, hfirst'⟩ := exists_first_of_infix hpat hagain
        rw [splitTextFrom_first hpat hfirst'] at hb
        exact absurd (List.cons.inj hb).2 (splitTextFrom_ne_nil b')
      · rw [splitTextFrom_of_absent hagain] at hb
        obtain rfl := (List.cons.inj hb).1
        exact ⟨rfl, hfirst, hagain⟩
    · rw [splitTextFrom_of_absent hinfix] at hsplit
      cases (List.cons.inj hsplit).2
  · rintro ⟨rfl, hfirst, hrest⟩
    rw [splitTextFrom_first hpat hfirst, splitTextFrom_of_absent hrest]

/-- A separator that is no part of the pattern keeps its occurrences apart. -/
theorem infix_append_cons_iff (hpat : pat ≠ []) {c : Char} (hc : c ∉ pat) {a b : List Char} :
    pat <:+: a ++ c :: b ↔ pat <:+: a ∨ pat <:+: b := by
  have hstart : ∀ {x : List Char}, pat <+: x ++ c :: b → pat <+: x := by
    intro x h
    have hsplit : x ++ c :: b = (x ++ [c]) ++ b := by simp
    rcases List.prefix_or_prefix_of_prefix h (List.prefix_append x (c :: b)) with h' | h'
    · exact h'
    · rw [hsplit] at h
      rcases List.prefix_or_prefix_of_prefix h (List.prefix_append (x ++ [c]) b) with h'' | h''
      · rcases List.prefix_concat_iff.mp h'' with rfl | hx
        · exact absurd (List.mem_append_right x (List.mem_singleton_self c)) hc
        · exact hx
      · exact absurd (h''.subset (List.mem_append_right x (List.mem_singleton_self c))) hc
  induction a with
  | nil =>
    rw [List.nil_append, List.infix_cons_iff, List.infix_nil]
    refine or_congr_left (iff_of_false (fun h => hpat ?_) hpat)
    exact List.prefix_nil.mp (hstart (x := []) h)
  | cons d a ih =>
    have hfront : pat <+: d :: (a ++ c :: b) ↔ pat <+: d :: a :=
      ⟨fun h => hstart (x := d :: a) h, fun h => h.trans (List.prefix_append (d :: a) (c :: b))⟩
    have hrest : pat <:+: a ++ c :: b ↔ pat <:+: a ∨ pat <:+: b := ih
    rw [List.cons_append, List.infix_cons_iff, List.infix_cons_iff, hfront, hrest, or_assoc]

end

/-! ## Numbers and their texts -/

/-- Digits are read as the number they write. -/
theorem decimalDigits_of_digits {s : List Char} (h : ∀ c ∈ s, c.isDigit = true) (acc : Nat) :
    decimalDigits acc true s = some (Nat.ofDigitChars 10 s acc) := by
  induction s generalizing acc with
  | nil => rfl
  | cons c s ih =>
    have hdigit := h c List.mem_cons_self
    have hne : c ≠ '_' := by
      rintro rfl
      exact absurd hdigit (by decide)
    rw [decimalDigits, if_neg hne, if_pos hdigit, Nat.ofDigitChars_cons, Nat.mul_comm 10]
    exact ih (fun d hd => h d (List.mem_cons_of_mem c hd)) _

/-- A literal of digits has the value that they write, if they are not too many. -/
theorem decimalLiteral_of_digits {s : List Char} (hne : s ≠ [])
    (h : ∀ c ∈ s, c.isDigit = true) :
    decimalLiteral s =
      if s.length ≤ maxStrDigits then some (Nat.ofDigitChars 10 s 0) else none := by
  have hunderscore : ∀ c ∈ s, c ≠ '_' := by
    rintro _ hc rfl
    exact absurd (h '_' hc) (by decide)
  have hcount : (s.filter fun c => c ≠ '_') = s :=
    List.filter_eq_self.mpr fun c hc => decide_eq_true (hunderscore c hc)
  -- the first digit may stand where an underscore may not
  have hfirst : decimalDigits 0 false s = decimalDigits 0 true s := by
    obtain ⟨c, t, rfl⟩ := List.exists_cons_of_ne_nil hne
    simp only [decimalDigits, if_neg (hunderscore c List.mem_cons_self)]
  rw [decimalLiteral, hcount, hfirst, decimalDigits_of_digits h]

theorem ascii_of_isDigit {c : Char} (h : c.isDigit = true) : c.toNat < 128 := by
  have hrange : c.toNat ≤ 57 := (Char.isDigit_iff_toNat.mp h).2
  omega

theorem isAsciiSpace_of_isDigit {c : Char} (h : c.isDigit = true) : isAsciiSpace c = false := by
  have hrange : 48 ≤ c.toNat ∧ c.toNat ≤ 57 := Char.isDigit_iff_toNat.mp h
  simp only [isAsciiSpace]
  simp
  omega

/-- An ASCII text is parsed as it is. -/
theorem transformDecimalAndSpaceToASCII_of_ascii {s : List Char} (h : ∀ c ∈ s, c.toNat < 128) :
    transformDecimalAndSpaceToASCII s = s :=
  if_pos (List.all_eq_true.mpr fun c hc => decide_eq_true (h c hc))

/-- Text without white space, which `int` parses as it is. -/
theorem strip_transform {s : List Char} (hascii : ∀ c ∈ s, c.toNat < 128)
    (hspace : ∀ c ∈ s, isAsciiSpace c = false) :
    strip isAsciiSpace (transformDecimalAndSpaceToASCII s) = s := by
  rw [transformDecimalAndSpaceToASCII_of_ascii hascii, strip_of_forall hspace]

/-- Text without white space and without a sign is a literal as a whole. -/
theorem signedInt_of_plain {literal : List Char → Option Nat} {c : Char} {s : List Char}
    (hascii : ∀ d ∈ c :: s, d.toNat < 128) (hspace : ∀ d ∈ c :: s, isAsciiSpace d = false)
    (hminus : c ≠ '-') (hplus : c ≠ '+') :
    signedInt literal (c :: s) = (literal (c :: s)).map Int.ofNat := by
  rw [signedInt, strip_transform hascii hspace]
  split
  · rename_i heq
    exact absurd (List.cons.inj heq).1 hminus
  · rename_i heq
    exact absurd (List.cons.inj heq).1 hplus
  · rfl

/-- Digits alone are a literal. -/
theorem decimalInt_of_digits {s : List Char} (hne : s ≠ []) (h : ∀ c ∈ s, c.isDigit = true) :
    decimalInt s =
      if s.length ≤ maxStrDigits then some (Nat.ofDigitChars 10 s 0 : Int) else none := by
  obtain ⟨c, t, rfl⟩ := List.exists_cons_of_ne_nil hne
  have hsign : ∀ sign, sign.isDigit = false → c ≠ sign := by
    rintro sign hsign rfl
    cases hsign.symm.trans (h c List.mem_cons_self)
  rw [decimalInt, signedInt_of_plain (fun d hd => ascii_of_isDigit (h d hd))
    (fun d hd => isAsciiSpace_of_isDigit (h d hd)) (hsign '-' (by decide)) (hsign '+' (by decide)),
    decimalLiteral_of_digits hne h]
  split
  · rfl
  · rfl

/-- The digits of a number, after a minus sign if it is negative. -/
theorem toList_repr (i : Int) :
    i.repr.toList =
      if 0 ≤ i then Nat.toDigits 10 i.natAbs else '-' :: Nat.toDigits 10 i.natAbs := by
  rw [Int.repr_eq_if]
  split
  · rename_i hnonneg
    have habs : i.toNat = i.natAbs := by omega
    rw [Nat.toList_repr, habs]
  · rename_i hneg
    have habs : (-i).toNat = i.natAbs := by omega
    rw [String.toList_append, Nat.toList_repr, habs]
    rfl

/-- Two numbers do not have one text. -/
theorem repr_injective : Function.Injective Int.repr := by
  intro i j h
  have hdigits : ∀ {m n : Nat}, Nat.toDigits 10 m = Nat.toDigits 10 n → m = n := by
    intro m n hmn
    have hread := congrArg (fun s => Nat.ofDigitChars 10 s 0) hmn
    simpa only [Nat.ofDigitChars_ten_toDigits] using hread
  have hminus : ∀ {m : Nat} {s : List Char}, Nat.toDigits 10 m ≠ '-' :: s := by
    intro m s hm
    have hdigit : ('-').isDigit = true :=
      Nat.isDigit_of_mem_toDigits (by decide) (by decide) (hm ▸ List.mem_cons_self)
    exact absurd hdigit (by decide)
  have hlist := congrArg String.toList h
  rw [toList_repr, toList_repr] at hlist
  by_cases hi : 0 ≤ i
  · by_cases hj : 0 ≤ j
    · rw [if_pos hi, if_pos hj] at hlist
      have habs := hdigits hlist
      omega
    · rw [if_pos hi, if_neg hj] at hlist
      exact absurd hlist hminus
  · by_cases hj : 0 ≤ j
    · rw [if_neg hi, if_pos hj] at hlist
      exact absurd hlist.symm hminus
    · rw [if_neg hi, if_neg hj] at hlist
      have habs := hdigits (List.cons.inj hlist).2
      omega

/-- **`int(str(i))`** is `i`, unless `str(i)` is too long. -/
theorem decimalInt_repr {i : Int} (h : i.natAbs < 10 ^ maxStrDigits) :
    decimalInt i.repr.toList = some i := by
  have hdigit : ∀ c ∈ Nat.toDigits 10 i.natAbs, c.isDigit = true := fun c hc =>
    Nat.isDigit_of_mem_toDigits (by decide) (by decide) hc
  have hne : Nat.toDigits 10 i.natAbs ≠ [] := Nat.toDigits_ne_nil
  have hlength : (Nat.toDigits 10 i.natAbs).length ≤ maxStrDigits :=
    (Nat.length_toDigits_le_iff (by decide) (by decide)).mpr h
  rw [toList_repr]
  split
  · rename_i hnonneg
    rw [decimalInt_of_digits hne hdigit, if_pos hlength, Nat.ofDigitChars_ten_toDigits,
      Int.natAbs_of_nonneg hnonneg]
  · rename_i hneg
    rw [decimalInt, signedInt, strip_transform
      (List.forall_mem_cons.mpr ⟨by decide, fun c hc => ascii_of_isDigit (hdigit c hc)⟩)
      (List.forall_mem_cons.mpr ⟨by decide, fun c hc => isAsciiSpace_of_isDigit (hdigit c hc)⟩)]
    show (decimalLiteral (Nat.toDigits 10 i.natAbs)).map (fun n => -(n : Int)) = some i
    rw [decimalLiteral_of_digits hne hdigit, if_pos hlength, Nat.ofDigitChars_ten_toDigits]
    have hvalue : -((i.natAbs : Nat) : Int) = i := by omega
    exact congrArg some hvalue

/-- The text of a number has digits, and a minus sign perhaps. -/
theorem mem_repr {i : Int} {c : Char} (h : c ∈ i.repr.toList) : c.isDigit = true ∨ c = '-' := by
  have hdigit : c ∈ Nat.toDigits 10 i.natAbs → c.isDigit = true := fun hc =>
    Nat.isDigit_of_mem_toDigits (by decide) (by decide) hc
  rw [toList_repr] at h
  split at h
  · exact Or.inl (hdigit h)
  · rcases List.mem_cons.mp h with h | h
    · exact Or.inr h
    · exact Or.inl (hdigit h)

theorem slash_not_mem_repr (i : Int) : '/' ∉ i.repr.toList := by
  intro h
  rcases mem_repr h with h | h
  · exact absurd h (by decide)
  · exact absurd h (by decide)

/-! ## Texts of numbers in order -/

/-- A number of `n` digits is less than `10 ^ n`. -/
theorem ofDigitChars_lt {s : List Char} (h : ∀ c ∈ s, c.isDigit = true) :
    Nat.ofDigitChars 10 s 0 < 10 ^ s.length := by
  induction s with
  | nil => exact Nat.one_pos
  | cons c s ih =>
    have hc : 48 ≤ c.toNat ∧ c.toNat ≤ 57 := Char.isDigit_iff_toNat.mp (h c List.mem_cons_self)
    have hs := ih fun d hd => h d (List.mem_cons_of_mem c hd)
    have hdigit : c.toNat - '0'.toNat ≤ 9 := Nat.sub_le_of_le_add hc.2
    have hvalue : 10 ^ s.length * (c.toNat - '0'.toNat) ≤ 10 ^ s.length * 9 :=
      Nat.mul_le_mul_left _ hdigit
    rw [Nat.ofDigitChars_cons, Nat.mul_zero, Nat.zero_add, Nat.ofDigitChars_eq_ofDigitChars_zero,
      List.length_cons, Nat.pow_succ]
    omega

/-- Of two texts of as many digits, the one that writes the smaller number sorts first. -/
theorem lt_of_ofDigitChars_lt {s t : List Char} (hs : ∀ c ∈ s, c.isDigit = true)
    (ht : ∀ c ∈ t, c.isDigit = true) (hlength : s.length = t.length)
    (hlt : Nat.ofDigitChars 10 s 0 < Nat.ofDigitChars 10 t 0) : s < t := by
  induction s generalizing t with
  | nil =>
    cases List.length_eq_zero_iff.mp hlength.symm
    exact absurd hlt (Nat.lt_irrefl _)
  | cons c s ih =>
    obtain ⟨d, t, rfl⟩ := List.exists_cons_of_length_eq_add_one hlength.symm
    obtain ⟨hc, hs⟩ := List.forall_mem_cons.mp hs
    obtain ⟨hd, htail⟩ := List.forall_mem_cons.mp ht
    have hrest : s.length = t.length := Nat.succ.inj hlength
    simp only [Nat.ofDigitChars_cons, Nat.mul_zero, Nat.zero_add] at hlt
    rw [Nat.ofDigitChars_eq_ofDigitChars_zero,
      Nat.ofDigitChars_eq_ofDigitChars_zero (l := t), hrest] at hlt
    rw [List.cons_lt_cons_iff]
    rcases Nat.lt_trichotomy c.toNat d.toNat with hcd | hcd | hcd
    · exact Or.inl hcd
    · have hsame : c = d := Char.toNat_inj.mp hcd
      subst hsame
      exact Or.inr ⟨rfl, ih hs htail hrest (Nat.lt_of_add_lt_add_left hlt)⟩
    · -- the first digit decides, whatever comes after it
      exfalso
      have hrange : 48 ≤ d.toNat := (Char.isDigit_iff_toNat.mp hd).1
      have hbound := ofDigitChars_lt htail
      have hsucc : d.toNat - '0'.toNat + 1 ≤ c.toNat - '0'.toNat := by
        show d.toNat - 48 + 1 ≤ c.toNat - 48
        omega
      have hfirst := Nat.mul_le_mul_left (10 ^ t.length) hsucc
      rw [Nat.mul_add, Nat.mul_one] at hfirst
      omega

/-- Numbers of equally many digits sort like their texts. -/
theorem repr_lt_repr {i j : Int} (hi : 0 ≤ i) (hlt : i < j)
    (hlength : i.repr.length = j.repr.length) : i.repr.toList < j.repr.toList := by
  have htext : ∀ {k : Int}, 0 ≤ k → k.repr.toList = Nat.toDigits 10 k.toNat := by
    intro k hk
    rw [Int.repr_eq_if, if_pos hk, Nat.toList_repr]
  have hdigits : ∀ {n : Nat}, ∀ c ∈ Nat.toDigits 10 n, c.isDigit = true := fun c hc =>
    Nat.isDigit_of_mem_toDigits (by decide) (by decide) hc
  rw [← String.length_toList, ← String.length_toList] at hlength
  rw [htext hi, htext (Int.le_trans hi (Int.le_of_lt hlt))] at hlength ⊢
  refine lt_of_ofDigitChars_lt hdigits hdigits hlength ?_
  rw [Nat.ofDigitChars_ten_toDigits, Nat.ofDigitChars_ten_toDigits]
  omega

/-- A number has as many digits as the powers of ten it reaches. -/
theorem length_repr {i : Int} {n : Nat} (hle : 10 ^ n ≤ i) (hlt : i < 10 ^ (n + 1)) :
    i.repr.length = n + 1 := by
  have hnonneg : 0 ≤ i := Int.le_trans (Int.pow_nonneg (by decide)) hle
  obtain ⟨k, rfl⟩ := Int.eq_ofNat_of_zero_le hnonneg
  have hle : 10 ^ n ≤ k := by exact_mod_cast hle
  have hlt : k < 10 ^ (n + 1) := by exact_mod_cast hlt
  have hupper : (Nat.toDigits 10 k).length ≤ n + 1 :=
    (Nat.length_toDigits_le_iff (by decide) n.succ_pos).mpr hlt
  have hlower : n < (Nat.toDigits 10 k).length := by
    cases n with
    | zero => exact Nat.length_toDigits_pos
    | succ n =>
      refine Nat.lt_of_not_le fun hshort => ?_
      exact hle.not_gt ((Nat.length_toDigits_le_iff (by decide) n.succ_pos).mp hshort)
  rw [Int.repr_eq_if, if_pos hnonneg, ← String.length_toList, Nat.toList_repr]
  exact le_antisymm hupper hlower

end Python
