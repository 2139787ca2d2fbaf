import WellboreDdms.Python.Text
import Mathlib.Tactic.Ring

/-!
# `uuid.UUID`

The 128-bit value of a UUID, its canonical text and the parser of the standard
library.

- `UUID.text` is `str(u)`: 32 lowercase hexadecimal digits in groups of
  8-4-4-4-12.
- `UUID.parse` is `uuid.UUID(hex)`: `urn:` and `uuid:` are removed wherever they
  occur, braces are stripped, hyphens are removed, and what remains must be 32
  characters that `int(_, 16)` accepts.
- `UUID.parse_text`, `UUID.parse_urn`: the parser reads the canonical text back, also
  with the URN markers before it.
-/

namespace Python

/-- A UUID, as the integer it denotes. -/
structure UUID where
  int : Nat
  lt : int < 2 ^ 128
  deriving DecidableEq

namespace UUID

/-- A number as a UUID, of which the last 128 bits count. -/
def ofNat (n : Nat) : UUID := ⟨n % 2 ^ 128, Nat.mod_lt n (by decide)⟩

/-- The lowercase hexadecimal digit of a value below 16. -/
def hexChar (d : Nat) : Char :=
  "0123456789abcdef".toList.getD d '0'

/-- The last `k` hexadecimal digits of `n`. -/
def digits : Nat → Nat → List Char
  | 0, _ => []
  | k + 1, n => digits k (n / 16) ++ [hexChar (n % 16)]

/-- The grouping of 32 digits by hyphens. -/
def hyphenate (hex : List Char) : List Char :=
  hex.take 8 ++ '-' :: ((hex.drop 8).take 4 ++ '-' :: ((hex.drop 12).take 4 ++
    '-' :: ((hex.drop 16).take 4 ++ '-' :: hex.drop 20)))

/-- `str(u)`, as characters. -/
def chars (u : UUID) : List Char := hyphenate (digits 32 u.int)

/-- `str(u)`. -/
def text (u : UUID) : String := String.ofList u.chars

@[simp] theorem toList_text (u : UUID) : u.text.toList = u.chars := String.toList_ofList

/-- `int(hex, 16)` as a UUID, if it is a 128-bit value. -/
def ofInt : Int → Option UUID
  | .ofNat n => if h : n < 2 ^ 128 then some ⟨n, h⟩ else none
  | .negSucc _ => none

/-- `uuid.UUID(hex)`; `none` is the `ValueError`. -/
def parseChars (s : List Char) : Option UUID :=
  let hex := removeAll "uuid:".toList (removeAll "urn:".toList s)
  let hex := (strip (fun c => c = '\x7b' || c = '\x7d') hex).filter (fun c => c ≠ '-')
  if hex.length = 32 then (hexInt hex).bind ofInt else none

/-- `uuid.UUID(hex)`; `none` is the `ValueError`. -/
def parse (s : String) : Option UUID := parseChars s.toList

/-! ## The digits of a UUID -/

/-- A digit is read as what it was written from. -/
theorem hexValue_hexChar {d : Nat} (h : d < 16) : hexValue (hexChar d) = some d := by
  have key : ∀ e : Fin 16, hexValue (hexChar e) = some e.val := by decide
  exact key ⟨d, h⟩

/-- A character of ASCII that is no separator, no sign, no brace and no space. -/
structure Plain (c : Char) : Prop where
  not_mem : c ∉ [':', '-', '+', '_', 'x', 'X', 'r', '\x7b', '\x7d']
  ascii : c.toNat < 128
  not_space : isAsciiSpace c = false

/-- What a hexadecimal digit is not. -/
theorem hexChar_plain {d : Nat} (h : d < 16) : Plain (hexChar d) := by
  have key : ∀ e : Fin 16, hexChar e ∉ [':', '-', '+', '_', 'x', 'X', 'r', '\x7b', '\x7d'] ∧
      (hexChar e).toNat < 128 ∧ isAsciiSpace (hexChar e) = false := by decide
  obtain ⟨hmem, hascii, hspace⟩ := key ⟨d, h⟩
  exact ⟨hmem, hascii, hspace⟩

@[simp] theorem length_digits (k n : Nat) : (digits k n).length = k := by
  induction k generalizing n with
  | zero => rfl
  | succ k ih => simp [digits, ih]

theorem exists_of_mem_digits {k n : Nat} {c : Char} (hc : c ∈ digits k n) :
    ∃ d < 16, c = hexChar d := by
  induction k generalizing n with
  | zero => cases hc
  | succ k ih =>
    rcases List.mem_append.mp hc with h | h
    · exact ih h
    · exact ⟨n % 16, Nat.mod_lt _ (by decide), List.mem_singleton.mp h⟩

theorem mem_digits_plain {k n : Nat} {c : Char} (hc : c ∈ digits k n) : Plain c := by
  obtain ⟨d, hd, rfl⟩ := exists_of_mem_digits hc
  exact hexChar_plain hd

/-- Reading digits one by one, from any value read before. -/
theorem hexDigits_digits (k n acc : Nat) (b : Bool) (s : List Char) (hk : 0 < k) :
    hexDigits acc b (digits k n ++ s) = hexDigits (acc * 16 ^ k + n % 16 ^ k) true s := by
  induction k generalizing n acc b s with
  | zero => omega
  | succ k ih =>
    have hd : n % 16 < 16 := Nat.mod_lt _ (by decide)
    have hne : hexChar (n % 16) ≠ '_' := by
      intro h
      exact (hexChar_plain hd).not_mem (by simp [h])
    have hlast : ∀ a b', hexDigits a b' (hexChar (n % 16) :: s)
        = hexDigits (a * 16 + n % 16) true s := by
      intro a b'
      rw [hexDigits, if_neg hne, hexValue_hexChar hd]
    rw [digits, List.append_assoc, List.singleton_append]
    rcases Nat.eq_zero_or_pos k with rfl | hpos
    · rw [digits, List.nil_append, hlast]
      norm_num
    · have harith : (acc * 16 ^ k + n / 16 % 16 ^ k) * 16 + n % 16
          = acc * 16 ^ (k + 1) + n % 16 ^ (k + 1) := by
        rw [pow_succ 16 k, Nat.mul_comm (16 ^ k) 16, Nat.mod_mul]
        ring
      rw [ih _ _ _ _ hpos, hlast, harith]

/-- The 32 digits of a UUID are a literal of its value. -/
theorem hexInt_digits (u : UUID) : hexInt (digits 32 u.int) = some (u.int : Int) := by
  obtain ⟨c, d, s, hs⟩ : ∃ c d s, digits 32 u.int = c :: d :: s := by
    rcases h : digits 32 u.int with - | ⟨c, - | ⟨d, s⟩⟩
    · simpa using congrArg List.length h
    · simpa using congrArg List.length h
    · exact ⟨c, d, s, rfl⟩
  have hmem : ∀ e ∈ c :: d :: s, Plain e := fun e he => mem_digits_plain (hs ▸ he)
  have hc := (hmem c List.mem_cons_self).not_mem
  have hd := (hmem d (List.mem_cons_of_mem _ List.mem_cons_self)).not_mem
  -- a digit is no `x`, so there is no prefix to drop
  have hplain : dropHexPrefix (c :: d :: s) = c :: d :: s := by
    unfold dropHexPrefix
    split
    · rename_i x t heq
      obtain ⟨rfl, rfl, rfl⟩ : c = '0' ∧ d = x ∧ s = t := by simpa using heq
      rw [if_neg]
      rintro (rfl | rfl)
      · exact hd (by decide)
      · exact hd (by decide)
    · rfl
  have hval : hexDigits 0 false (c :: d :: s) = some u.int := by
    have := hexDigits_digits 32 u.int 0 false [] (by decide)
    rw [List.append_nil, hs, hexDigits, if_pos rfl] at this
    rw [this, Nat.zero_mul, Nat.zero_add, Nat.mod_eq_of_lt]
    exact lt_of_lt_of_eq u.lt (by norm_num)
  rw [hs, hexInt, signedInt_of_plain (fun e he => (hmem e he).ascii)
    (fun e he => (hmem e he).not_space) (by rintro rfl; exact hc (by decide))
    (by rintro rfl; exact hc (by decide)), hplain, hval]
  rfl

/-! ## The canonical text -/

theorem mem_hyphenate {hex : List Char} {c : Char} (hc : c ∈ hyphenate hex) :
    c = '-' ∨ c ∈ hex := by
  simp only [hyphenate, List.mem_append, List.mem_cons] at hc
  rcases hc with h | h | h | h | h | h | h | h | h
  · exact Or.inr (List.mem_of_mem_take h)
  · exact Or.inl h
  · exact Or.inr (List.mem_of_mem_drop (List.mem_of_mem_take h))
  · exact Or.inl h
  · exact Or.inr (List.mem_of_mem_drop (List.mem_of_mem_take h))
  · exact Or.inl h
  · exact Or.inr (List.mem_of_mem_drop (List.mem_of_mem_take h))
  · exact Or.inl h
  · exact Or.inr (List.mem_of_mem_drop h)

/-- Removing the hyphens undoes the grouping. -/
theorem filter_hyphenate {hex : List Char} (h : '-' ∉ hex) :
    (hyphenate hex).filter (fun c => c ≠ '-') = hex := by
  have hkeep : ∀ l : List Char, l ⊆ hex → l.filter (fun c => c ≠ '-') = l := by
    intro l hl
    refine List.filter_eq_self.mpr fun c hc => ?_
    have : c ≠ '-' := fun heq => h (heq ▸ hl hc)
    simpa using this
  have hsplit : ∀ j, (hex.drop j).take 4 ++ hex.drop (j + 4) = hex.drop j := by
    intro j
    have := List.take_append_drop 4 (hex.drop j)
    rwa [List.drop_drop] at this
  have hdash : ∀ l : List Char, List.filter (fun c => decide (c ≠ '-')) ('-' :: l)
      = List.filter (fun c => decide (c ≠ '-')) l := fun l => by simp
  have htake : ∀ j, (hex.drop j).take 4 ⊆ hex := fun j c hc =>
    List.mem_of_mem_drop (List.mem_of_mem_take hc)
  rw [hyphenate, List.filter_append, hdash, List.filter_append, hdash, List.filter_append, hdash,
    List.filter_append, hdash, hkeep _ (List.take_subset _ _), hkeep _ (htake 8),
    hkeep _ (htake 12), hkeep _ (htake 16), hkeep _ (List.drop_subset _ _), hsplit 16, hsplit 12,
    hsplit 8, List.take_append_drop]

/-- The canonical text has no colons, no braces and no `r`. -/
theorem chars_plain (u : UUID) {c : Char} (hc : c ∈ u.chars) :
    c ≠ ':' ∧ c ≠ 'r' ∧ c ≠ '\x7b' ∧ c ≠ '\x7d' := by
  rcases mem_hyphenate hc with rfl | h
  · decide
  · have := (mem_digits_plain h).not_mem
    refine ⟨?_, ?_, ?_, ?_⟩ <;> rintro rfl <;> exact this (by decide)

theorem colon_not_mem_chars (u : UUID) : ':' ∉ u.chars := fun h => (u.chars_plain h).1 rfl

theorem slash_not_mem_chars (u : UUID) : '/' ∉ u.chars := by
  intro hc
  rcases mem_hyphenate hc with h | h
  · exact absurd h (by decide)
  · have key : ∀ e : Fin 16, '/' ≠ hexChar e := by decide
    obtain ⟨d, hd, heq⟩ := exists_of_mem_digits h
    exact key ⟨d, hd⟩ heq

theorem chars_ne_nil (u : UUID) : u.chars ≠ [] := by simp [chars, hyphenate]

/-- Without its hyphens the canonical text is the 32 digits. -/
theorem filter_chars (u : UUID) : u.chars.filter (fun c => c ≠ '-') = digits 32 u.int :=
  filter_hyphenate fun h => (mem_digits_plain h).not_mem (by decide)

/-- What `uuid.UUID` does once both markers are removed. -/
theorem parseChars_of_removed {s : List Char} {u : UUID}
    (h : removeAll "uuid:".toList (removeAll "urn:".toList s) = u.chars) :
    parseChars s = some u := by
  have hstrip : strip (fun c => c = '\x7b' || c = '\x7d') u.chars = u.chars := by
    refine strip_of_forall fun c hc => ?_
    obtain ⟨-, -, h1, h2⟩ := u.chars_plain hc
    simp [h1, h2]
  unfold parseChars
  simp only [h, hstrip, filter_chars, length_digits, if_true, hexInt_digits, Option.bind_some]
  show ofInt (Int.ofNat u.int) = some u
  rw [ofInt, dif_pos u.lt]

/-- `uuid.UUID(str(u)) == u`. -/
@[simp] theorem parseChars_chars (u : UUID) : parseChars u.chars = some u := by
  apply parseChars_of_removed
  rw [removeAll_of_not_mem (c := ':') (by decide) u.colon_not_mem_chars,
    removeAll_of_not_mem (c := ':') (by decide) u.colon_not_mem_chars]

/-- **Parsing** the text of a UUID gives it back. -/
@[simp] theorem parse_text (u : UUID) : parse u.text = some u := by
  rw [parse, toList_text, parseChars_chars]

theorem text_injective : Function.Injective text := by
  intro u v h
  have hparse := congrArg parse h
  rw [parse_text, parse_text] at hparse
  exact Option.some.inj hparse

/-- The markers of a URN are removed before a text that has no colon. -/
theorem parseChars_urn {cs : List Char} (h : ':' ∉ cs) :
    parseChars ("urn:".toList ++ ("uuid:".toList ++ cs)) = parseChars cs := by
  have hurn : removeAll "urn:".toList ("uuid:".toList ++ cs) = "uuid:".toList ++ cs := by
    have hcs : removeFrom ['u', 'r', 'n', ':'] 0 cs = cs :=
      removeAll_of_not_mem (c := ':') (by decide) h
    simp [removeAll, removeFrom, List.isPrefixOf, hcs]
  have hplain : removeAll "urn:".toList cs = cs := removeAll_of_not_mem (c := ':') (by decide) h
  have hremoved : removeAll "uuid:".toList (removeAll "urn:".toList
      ("urn:".toList ++ ("uuid:".toList ++ cs))) =
      removeAll "uuid:".toList (removeAll "urn:".toList cs) := by
    rw [removeAll_append (by decide), hurn, removeAll_append (by decide), hplain]
  unfold parseChars
  rw [hremoved]

/-- `uuid.UUID("urn:uuid:" + s)`, for a text without colons. -/
theorem parse_urn_of_not_mem {s : String} (h : ':' ∉ s.toList) :
    parse ("urn:uuid:" ++ s) = parse s := by
  have hurn : "urn:uuid:".toList = "urn:".toList ++ "uuid:".toList := by decide
  rw [parse, parse, String.toList_append, hurn, List.append_assoc, parseChars_urn h]

/-- `uuid.UUID(u.urn) == u`. -/
theorem parse_urn (u : UUID) : parse ("urn:uuid:" ++ u.text) = some u := by
  have hcolon : ':' ∉ u.text.toList := by
    rw [toList_text]
    exact u.colon_not_mem_chars
  rw [parse_urn_of_not_mem hcolon, parse_text]

end UUID

end Python
