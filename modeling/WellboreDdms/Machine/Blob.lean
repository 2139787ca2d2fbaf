import Mathlib.Data.List.Basic

/-!
# Optimistic locking of one blob

A blob carries an entity tag that every write renews. A client reads tag and
content by two separate requests, which may be answered in either order, and
writes back under the condition that the tag is still the one it read.

- `Blob`, `Blob.put`: the stored blob and a write; `past` keeps the tags of the
  versions it has replaced, so that "every write produces a fresh tag" is
  `¬ b.Known e`.
- `Fetch`: the answers a client holds of its two reads. The content is kept with
  the tag of the version it was read from, which the client cannot see.
- `Fetch.Sound`: the invariant of every fetch in flight. It survives the writes
  of all clients (`Sound.put`), the content read (`Sound.readContent`), and the
  tag read if that is coherent (`Sound.readMeta`): the content, when it came
  first, is still the stored one.
- `Sound.cas`: the compare-and-swap fact. A tag that still matches proves that
  the content held is the content stored.
-/

namespace Machine

universe u v

variable {ε : Type u} {α : Type v}

/-- A stored blob: its tag, its content, and the tags of the replaced versions. -/
structure Blob (ε : Type u) (α : Type v) where
  etag : ε
  content : α
  past : List ε := []

namespace Blob

/-- `e` is the tag of the stored version or of a version it has replaced. -/
def Known (b : Blob ε α) (e : ε) : Prop := e ∈ b.etag :: b.past

instance [DecidableEq ε] (b : Blob ε α) (e : ε) : Decidable (b.Known e) :=
  inferInstanceAs (Decidable (e ∈ b.etag :: b.past))

/-- Overwrite the blob; the new version is tagged `fresh`. -/
def put (b : Blob ε α) (fresh : ε) (new : α) : Blob ε α where
  etag := fresh
  content := new
  past := b.etag :: b.past

@[simp] theorem put_etag (b : Blob ε α) (fresh : ε) (new : α) :
    (b.put fresh new).etag = fresh := rfl

@[simp] theorem put_content (b : Blob ε α) (fresh : ε) (new : α) :
    (b.put fresh new).content = new := rfl

theorem known_etag (b : Blob ε α) : b.Known b.etag := List.mem_cons_self

theorem Known.put {b : Blob ε α} {e : ε} (h : b.Known e) (fresh : ε) (new : α) :
    (b.put fresh new).Known e :=
  List.mem_cons_of_mem _ h

/-- A tag handed out before is not the one a write produces. -/
theorem Known.ne_fresh {b : Blob ε α} {e fresh : ε} (h : b.Known e) (hf : ¬ b.Known fresh) :
    e ≠ fresh :=
  fun he => hf (he ▸ h)

end Blob

/-- The two reads of one blob. -/
inductive Read where
  | metadata
  | content
  deriving DecidableEq

/-- The answers a client holds of the two reads. -/
structure Fetch (ε : Type u) (α : Type v) where
  etag : Option ε := none
  content : Option (ε × α) := none

namespace Fetch

/-- The metadata read executes. -/
def readMeta (f : Fetch ε α) (b : Blob ε α) : Fetch ε α := { f with etag := some b.etag }

/-- The content read executes. -/
def readContent (f : Fetch ε α) (b : Blob ε α) : Fetch ε α :=
  { f with content := some (b.etag, b.content) }

@[simp] theorem readMeta_etag (f : Fetch ε α) (b : Blob ε α) :
    (f.readMeta b).etag = some b.etag := rfl

@[simp] theorem readMeta_content (f : Fetch ε α) (b : Blob ε α) :
    (f.readMeta b).content = f.content := rfl

@[simp] theorem readContent_etag (f : Fetch ε α) (b : Blob ε α) :
    (f.readContent b).etag = f.etag := rfl

@[simp] theorem readContent_content (f : Fetch ε α) (b : Blob ε α) :
    (f.readContent b).content = some (b.etag, b.content) := rfl

/-- One of the two reads that are under way executes; each is answered once. -/
def read [DecidableEq ε] (f : Fetch ε α) (b : Blob ε α) : Read → Option (Fetch ε α)
  | .metadata => if f.etag.isNone then some (f.readMeta b) else none
  | .content => if f.content.isNone then some (f.readContent b) else none

/-- A write under `if_match` of the tag held succeeds; without a tag it is not
conditional. -/
def Matches (f : Fetch ε α) (b : Blob ε α) : Prop := ∀ e ∈ f.etag, e = b.etag

instance [DecidableEq ε] (f : Fetch ε α) (b : Blob ε α) : Decidable (f.Matches b) :=
  inferInstanceAs (Decidable (∀ e ∈ f.etag, e = b.etag))

/-- A metadata read now would not tear the fetch: the content, when it was read
first, comes from the version that is still stored. -/
def Coherent (f : Fetch ε α) (b : Blob ε α) : Prop :=
  ∀ p ∈ f.content, p.1 = b.etag

instance [DecidableEq ε] (f : Fetch ε α) (b : Blob ε α) : Decidable (f.Coherent b) :=
  inferInstanceAs (Decidable (∀ p ∈ f.content, p.1 = b.etag))

/-- What every fetch in flight satisfies against the stored blob. -/
structure Sound (f : Fetch ε α) (b : Blob ε α) : Prop where
  etag_known : ∀ e ∈ f.etag, b.Known e
  version_known : ∀ p ∈ f.content, b.Known p.1
  current : ∀ p ∈ f.content, p.1 = b.etag → p.2 = b.content
  agree : ∀ e ∈ f.etag, ∀ p ∈ f.content, e = b.etag → p.1 = e

theorem sound_empty (b : Blob ε α) : ({} : Fetch ε α).Sound b := by
  constructor <;> simp

namespace Sound

variable {f : Fetch ε α} {b : Blob ε α}

/-- A coherent metadata read. -/
theorem readMeta (h : f.Sound b) (hc : f.Coherent b) : (f.readMeta b).Sound b where
  etag_known := by
    rintro e he
    cases he
    exact b.known_etag
  version_known := h.version_known
  current := h.current
  agree := by
    rintro e he p hp -
    cases he
    exact hc p hp

/-- A content read never tears a fetch: a tag read before it is either still
current, or out of date for good. -/
theorem readContent (h : f.Sound b) : (f.readContent b).Sound b where
  etag_known := h.etag_known
  version_known := by
    rintro p hp
    cases hp
    exact b.known_etag
  current := by
    rintro p hp -
    cases hp
    rfl
  agree := by
    rintro e - p hp he
    cases hp
    exact he.symm

/-- A read of either kind, if it does not tear the fetch. -/
theorem read [DecidableEq ε] {f' : Fetch ε α} {r : Read} (h : f.Sound b)
    (hr : f.read b r = some f') (hc : r = .metadata → f.Coherent b) : f'.Sound b := by
  cases r with
  | metadata =>
    obtain ⟨-, hr⟩ := Option.ite_none_right_eq_some.mp hr
    cases hr
    exact h.readMeta (hc rfl)
  | content =>
    obtain ⟨-, hr⟩ := Option.ite_none_right_eq_some.mp hr
    cases hr
    exact h.readContent

/-- A write by anyone leaves the fetches of all others sound. -/
theorem put (h : f.Sound b) {fresh : ε} (hf : ¬ b.Known fresh) (new : α) :
    f.Sound (b.put fresh new) where
  etag_known := fun e he => (h.etag_known e he).put fresh new
  version_known := fun p hp => (h.version_known p hp).put fresh new
  current := fun p hp he => absurd he ((h.version_known p hp).ne_fresh hf)
  agree := fun e he _ _ heq => absurd heq ((h.etag_known e he).ne_fresh hf)

/-- **Compare-and-swap.** A tag that still matches proves that the content held
is the one stored. -/
theorem cas (h : f.Sound b) {p : ε × α} (he : f.etag = some b.etag)
    (hp : f.content = some p) : p = (b.etag, b.content) := by
  have hv : p.1 = b.etag := h.agree b.etag he p hp rfl
  exact Prod.ext hv (h.current p hp hv)

end Sound

/-- What a client holds after its own write: the new version, tag and content. -/
def written (fresh : ε) (new : α) : Fetch ε α := ⟨some fresh, some (fresh, new)⟩

/-- What a writer remembers of its own put is sound. -/
theorem sound_written (b : Blob ε α) (fresh : ε) (new : α) :
    (written fresh new).Sound (b.put fresh new) where
  etag_known := by
    rintro e he
    cases he
    exact (b.put fresh new).known_etag
  version_known := by
    rintro p hp
    cases hp
    exact (b.put fresh new).known_etag
  current := by
    rintro p hp -
    cases hp
    rfl
  agree := by
    rintro e he p hp -
    cases he
    cases hp
    rfl

end Fetch

end Machine
