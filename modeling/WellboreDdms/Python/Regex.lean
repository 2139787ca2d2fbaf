import Mathlib.Data.List.Basic

/-!
# Regular expressions

The parts of an expression as CPython matches them, by backtracking: each is a function of
`k`, which matches what follows the part on what follows its characters.

- `literal text k`: the text itself.
- `plus p k` and `star p k`: `[..]+` and `[..]*`; they give characters back until `k` matches.
- `endOfText`: `$`.
- `plus_eq_some_iff`, `plus_eq_none_iff`: what `[..]+` takes, and when it fails.
-/

namespace Python.Regex

variable {α β : Type}

/-- `.`: no line feed. -/
def dot (c : Char) : Bool := c ≠ '\n'

/-- `$` also matches before a last line feed. -/
def endOfText (s : List Char) : Option Unit :=
  if s = [] ∨ s = ['\n'] then some () else none

/-- The text itself. -/
def literal [DecidableEq α] (text : List α) (k : List α → Option β) (s : List α) : Option β :=
  (s.dropPrefix? text).bind k

/-- `[..]+`, for the characters that satisfy `p`: the longest run first. -/
def plus (p : α → Bool) (k : List α → Option β) : List α → Option (List α × β)
  | [] => none
  | c :: s =>
    if p c then
      match plus p k s with
      | some (taken, b) => some (c :: taken, b)
      | none => (k s).map fun b => ([c], b)
    else none

/-- `[..]*` -/
def star (p : α → Bool) (k : List α → Option β) (s : List α) : Option (List α × β) :=
  (plus p k s).or ((k s).map fun b => ([], b))

/-! ## What a part takes -/

section

variable {p : α → Bool} {k : List α → Option β}

theorem literal_append [DecidableEq α] (text s : List α) : literal text k (text ++ s) = k s := by
  rw [literal, List.dropPrefix?_append_of_beq s (BEq.refl text), Option.bind_some]

theorem literal_eq_some_iff [DecidableEq α] {text s : List α} {b : β} :
    literal text k s = some b ↔ ∃ t, s = text ++ t ∧ k t = some b := by
  rw [literal, Option.bind_eq_some_iff]
  refine exists_congr fun t => and_congr_left fun _ => ?_
  rw [List.dropPrefix?_eq_some_iff]
  constructor
  · rintro ⟨text', hs, htext⟩
    rwa [eq_of_beq htext] at hs
  · intro hs
    exact ⟨text, hs, BEq.refl text⟩

/-- `[..]+` takes `x` from `s`: what follows `x` matches, and nothing longer would do. -/
structure Takes (p : α → Bool) (k : List α → Option β) (s x : List α) (b : β) : Prop where
  ne_nil : x ≠ []
  all : ∀ c ∈ x, p c = true
  longest : ∃ t, s = x ++ t ∧ k t = some b ∧
    ∀ y u, t = y ++ u → y ≠ [] → (∀ c ∈ y, p c = true) → k u = none

/-- `[..]+` fails where no run of the characters is followed by a match. -/
theorem plus_eq_none_iff {s : List α} :
    plus p k s = none ↔
      ∀ x t, s = x ++ t → x ≠ [] → (∀ c ∈ x, p c = true) → k t = none := by
  induction s with
  | nil =>
    refine iff_of_true rfl fun x t hs hx => ?_
    exact absurd (List.append_eq_nil_iff.mp hs.symm).1 hx
  | cons c s ih =>
    rw [plus]
    by_cases hc : p c = true
    · rw [if_pos hc]
      cases hrest : plus p k s with
      | some m =>
        -- a run that matches after `c` is one with `c`
        refine iff_of_false (Option.some_ne_none _) fun h => ?_
        have hnone : plus p k s = none := ih.mpr fun x t hs hx hall =>
          h (c :: x) t (by rw [hs, List.cons_append]) (List.cons_ne_nil _ _)
            (List.forall_mem_cons.mpr ⟨hc, hall⟩)
        cases hrest.symm.trans hnone
      | none =>
        dsimp only
        rw [Option.map_eq_none_iff]
        constructor
        · intro hs x t hx hne hall
          obtain ⟨d, x, rfl⟩ := List.exists_cons_of_ne_nil hne
          obtain ⟨rfl, rfl⟩ := List.cons.inj hx
          by_cases hnil : x = []
          · subst hnil
            exact hs
          · exact ih.mp hrest x t rfl hnil (List.forall_mem_cons.mp hall).2
        · intro h
          exact h [c] s rfl (List.cons_ne_nil _ _) (List.forall_mem_singleton.mpr hc)
    · rw [if_neg hc]
      refine iff_of_true rfl fun x t hx hne hall => ?_
      obtain ⟨d, x, rfl⟩ := List.exists_cons_of_ne_nil hne
      obtain ⟨rfl, -⟩ := List.cons.inj hx
      exact absurd (hall c List.mem_cons_self) hc

theorem Takes.cons {s x : List α} {b : β} {c : α} (h : Takes p k s x b) (hc : p c = true) :
    Takes p k (c :: s) (c :: x) b := by
  obtain ⟨t, hs, hlongest⟩ := h.longest
  refine ⟨List.cons_ne_nil _ _, List.forall_mem_cons.mpr ⟨hc, h.all⟩, t, ?_, hlongest⟩
  rw [hs, List.cons_append]

/-- Of two longest runs, none is longer than the other. -/
theorem Takes.unique {s x x' : List α} {b b' : β} (h : Takes p k s x b) (h' : Takes p k s x' b') :
    x = x' ∧ b = b' := by
  obtain ⟨t, rfl, hk, hlongest⟩ := h.longest
  obtain ⟨t', hs', hk', hlongest'⟩ := h'.longest
  rcases List.append_eq_append_iff.mp hs' with ⟨y, hx', ht⟩ | ⟨y, hx, ht'⟩
  · by_cases hy : y = []
    · subst hy hx' ht
      exact ⟨(List.append_nil x).symm, Option.some.inj (hk.symm.trans hk')⟩
    · have hall : ∀ c ∈ y, p c = true := fun c hc =>
        h'.all c (hx' ▸ List.mem_append_right _ hc)
      cases hk'.symm.trans (hlongest y t' ht hy hall)
  · by_cases hy : y = []
    · subst hy hx ht'
      exact ⟨List.append_nil x', Option.some.inj (hk.symm.trans hk')⟩
    · have hall : ∀ c ∈ y, p c = true := fun c hc => h.all c (hx ▸ List.mem_append_right _ hc)
      cases hk.symm.trans (hlongest' y t ht' hy hall)

theorem takes_of_plus {s x : List α} {b : β} (h : plus p k s = some (x, b)) : Takes p k s x b := by
  induction s generalizing x with
  | nil => cases h
  | cons c s ih =>
    rw [plus] at h
    by_cases hc : p c = true
    · rw [if_pos hc] at h
      cases hrest : plus p k s with
      | some m =>
        obtain ⟨x', b'⟩ := m
        rw [hrest] at h
        obtain ⟨rfl, rfl⟩ := Prod.mk.inj (Option.some.inj h)
        exact (ih hrest).cons hc
      | none =>
        -- nothing longer than `c` matches
        rw [hrest] at h
        obtain ⟨b', hk, heq⟩ := Option.map_eq_some_iff.mp h
        obtain ⟨rfl, rfl⟩ := Prod.mk.inj heq
        exact ⟨List.cons_ne_nil _ _, List.forall_mem_singleton.mpr hc, s, rfl, hk,
          plus_eq_none_iff.mp hrest⟩
    · rw [if_neg hc] at h
      cases h

/-- `[..]+` takes the longest run that is followed by a match. -/
theorem plus_eq_some_iff {s x : List α} {b : β} :
    plus p k s = some (x, b) ↔ Takes p k s x b := by
  refine ⟨takes_of_plus, fun h => ?_⟩
  cases hplus : plus p k s with
  | none =>
    obtain ⟨t, hs, hk, -⟩ := h.longest
    cases hk.symm.trans (plus_eq_none_iff.mp hplus x t hs h.ne_nil h.all)
  | some m =>
    obtain ⟨x', b'⟩ := m
    obtain ⟨rfl, rfl⟩ := h.unique (takes_of_plus hplus)
    rfl

/-- A run that ends at a character it cannot take gives nothing back. -/
theorem plus_literal_eq_some_iff [DecidableEq α] {d : α} (hd : p d = false) {s x : List α}
    {b : β} :
    plus p (literal [d] k) s = some (x, b) ↔
      x ≠ [] ∧ (∀ c ∈ x, p c = true) ∧ ∃ t, s = x ++ d :: t ∧ k t = some b := by
  rw [plus_eq_some_iff]
  constructor
  · rintro ⟨hne, hall, t, hs, hk, -⟩
    obtain ⟨u, rfl, hu⟩ := literal_eq_some_iff.mp hk
    exact ⟨hne, hall, u, hs, hu⟩
  · rintro ⟨hne, hall, t, hs, hk⟩
    refine ⟨hne, hall, d :: t, hs, (literal_append [d] t).trans hk, ?_⟩
    intro y u hy hyne hyall
    obtain ⟨c, y, rfl⟩ := List.exists_cons_of_ne_nil hyne
    obtain ⟨rfl, -⟩ := List.cons.inj hy
    cases hd.symm.trans (hyall _ List.mem_cons_self)

/-- The end is reached at the end, or before a last line break. -/
theorem endOfText_eq_some_iff {s : List Char} {b : Unit} :
    endOfText s = some b ↔ s = [] ∨ s = ['\n'] := by
  rw [endOfText]
  split <;> simp [*]

/-- `[..]*$` takes everything up to a last line feed. -/
theorem star_endOfText_eq_some_iff {p : Char → Bool} (hp : p '\n' = false) {s x : List Char}
    {b : Unit} :
    star p endOfText s = some (x, b) ↔ (∀ c ∈ x, p c = true) ∧ (s = x ∨ s = x ++ ['\n']) := by
  rw [star, Option.or_eq_some_iff]
  constructor
  · rintro (htakes | ⟨-, hend⟩)
    · obtain ⟨-, hall, t, rfl, ht, -⟩ := plus_eq_some_iff.mp htakes
      rcases endOfText_eq_some_iff.mp ht with rfl | rfl
      · exact ⟨hall, .inl (List.append_nil x)⟩
      · exact ⟨hall, .inr rfl⟩
    · obtain ⟨b', hs, heq⟩ := Option.map_eq_some_iff.mp hend
      obtain ⟨rfl, -⟩ := Prod.mk.inj heq
      exact ⟨nofun, endOfText_eq_some_iff.mp hs⟩
  · rintro ⟨hall, hs⟩
    obtain ⟨t, rfl, ht⟩ : ∃ t, s = x ++ t ∧ (t = [] ∨ t = ['\n']) := by
      rcases hs with rfl | rfl
      · exact ⟨[], (List.append_nil s).symm, .inl rfl⟩
      · exact ⟨['\n'], rfl, .inr rfl⟩
    -- the greedy match takes the longest text, and the line break is none of its characters
    have hlongest : ∀ y u, t = y ++ u → y ≠ [] → (∀ c ∈ y, p c = true) → endOfText u = none := by
      intro y u hy hne hally
      obtain ⟨c, y, rfl⟩ := List.exists_cons_of_ne_nil hne
      rcases ht with rfl | rfl
      · cases hy
      · obtain ⟨rfl, -⟩ := List.cons.inj hy
        cases hp.symm.trans (hally _ List.mem_cons_self)
    by_cases hx : x = []
    · subst hx
      exact .inr ⟨plus_eq_none_iff.mpr hlongest,
        Option.map_eq_some_iff.mpr ⟨b, endOfText_eq_some_iff.mpr ht, rfl⟩⟩
    · exact .inl (plus_eq_some_iff.mpr ⟨hx, hall, t, rfl, endOfText_eq_some_iff.mpr ht, hlongest⟩)

theorem forall_dot {s : List Char} (h : '\n' ∉ s) : ∀ c ∈ s, dot c = true := by
  intro c hc
  exact decide_eq_true fun heq => h (heq ▸ hc)

/-- On one line, `.*$` takes everything. -/
theorem star_dot_endOfText {s : List Char} (h : '\n' ∉ s) :
    star dot endOfText s = some (s, ()) :=
  (star_endOfText_eq_some_iff (by decide)).mpr ⟨forall_dot h, .inl rfl⟩

end

end Python.Regex
