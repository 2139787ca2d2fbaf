import WellboreDdms.Machine.Run
import WellboreDdms.Records.Record
import Mathlib.Logic.Function.Basic

/-!
# The cache of family processors

The log recognition keeps one family processor for each client, built from the catalog
the client has stored, and builds it again after the lifetime of a catalog.

- `getProcessor`: one call. It looks the client up, builds what is missing, and if the
  entry is too old drops it and starts over.
- `served_fresh`: in every run of calls in which no checked age has wrapped around a day
  (`Unwrapped`), every processor returned is younger than the lifetime; a call ends
  after one rebuild at most if building takes less than the lifetime.
- `old_processor_is_served`: a processor built a day ago is returned.
-/

namespace WellboreDdms

open Python Machine

variable {π : Type}

/-- One second and one day: clocks count microseconds. -/
def timedeltaSecond : Int := 1000000

/-- In microseconds. -/
def timedeltaDay : Int := 86400 * timedeltaSecond

/-- `delta.seconds`: what is left of the whole seconds without the whole days. -/
def timedeltaSeconds (delta : Int) : Int := delta % timedeltaDay / timedeltaSecond

/-- The whole seconds of an age are not more than the age. -/
theorem timedeltaSeconds_lt {age lifetime : Int} (h : 0 ≤ age)
    (hlt : age < lifetime * timedeltaSecond) : timedeltaSeconds age < lifetime := by
  unfold timedeltaSeconds timedeltaDay
  unfold timedeltaSecond at *
  omega

/-- A processor and the date of its creation. -/
structure ProcessorItem (π : Type) where
  processor : π
  creationDate : DateTime

/-- `":doc:" + "WDMS catalog".encode('utf-8').hex()` -/
def fixedRecordId : String := ":doc:57444d5320636174616c6f67"

/-- The client of the default processor. -/
def defaultCatalogName : String := "default_WDMS_catalog"

/-- An absent client and a client with `None` are looked up alike. -/
structure FamilyProcessorManager (π : Type) where
  catalogLifetime : Int
  processors : String → Option (ProcessorItem π)

/-- What is outside of one pass through `get_processor`: the answer of the record storage,
the clock when the pass begins, and what `datetime.now()` returns in it. -/
structure Pass where
  fetch : String → Except Raised Record
  begun : DateTime
  created : DateTime
  checked : DateTime
  begun_le_created : begun ≤ created
  created_le_checked : created ≤ checked

/-- How a call ends: what it returns or raises, when the last age was checked, and how
often it has built a processor. -/
structure Served (π : Type) where
  item : Except Raised (ProcessorItem π)
  checked : DateTime
  rebuilds : Nat

section

variable (makeUserFamilyProcessor : Value → Value → Except Raised π)

/-- `_get_catalogs_from_de`, without the catalog of units, which is part of the package. -/
def getCatalogsFromDe (p : Pass) (partitionId : String) : Except Raised (Option (Value × Value)) :=
  match p.fetch (partitionId ++ fixedRecordId) with
  | .ok catalogs =>
    let rules := (Dict.get catalogs.data "family_catalog").getD .none
    let mainFamilies :=
      match (Dict.get catalogs.data "main_family_catalog").getD .none with
      | .none => .list []
      | v => v
    .ok (some (rules, .dict [("LogFiles", .dict [("loginfo", mainFamilies)])]))
  | .error e => if e = .unexpectedResponse 404 then .ok none else .error e

/-- `_create_processor`. -/
def createProcessor (p : Pass) (clientId : String) : Except Raised (Option π) := do
  match ← getCatalogsFromDe p clientId with
  | none => return none
  | some (.none, _) => return none
  | some (rules, mainFamilies) => return some (← makeUserFamilyProcessor rules mainFamilies)

namespace FamilyProcessorManager

/-- `get_default_processor`. -/
def getDefaultProcessor (m : FamilyProcessorManager π) : Except Raised π :=
  match m.processors defaultCatalogName with
  | some item => .ok item.processor
  | none => .error .typeError

/-- A processor of the client, or the default one if the client has no catalog. -/
def buildProcessor (m : FamilyProcessorManager π) (clientId : String) (p : Pass) :
    Except Raised π := do
  match ← createProcessor makeUserFamilyProcessor p clientId with
  | some processor => return processor
  | none => m.getDefaultProcessor

/-- The client's item is replaced. -/
def set (m : FamilyProcessorManager π) (clientId : String) (item : Option (ProcessorItem π)) :
    FamilyProcessorManager π :=
  { m with processors := Function.update m.processors clientId item }

/-- The age of an entry has reached the lifetime, as the source computes it. -/
def isOld (m : FamilyProcessorManager π) (item : ProcessorItem π) (p : Pass) : Bool :=
  timedeltaSeconds (p.checked - item.creationDate) ≥ m.catalogLifetime

/-- `get_processor`, one pass for each of the list; `none` if it has not ended by then. -/
def getProcessor (m : FamilyProcessorManager π) (clientId : String) :
    List Pass → Option (Served π × FamilyProcessorManager π)
  | [] => none
  | p :: passes =>
    match m.processors clientId with
    | some item =>
      if m.isOld item p then getProcessor (m.set clientId none) clientId passes
      else some (⟨.ok item, p.checked, 0⟩, m)
    | none =>
      match m.buildProcessor makeUserFamilyProcessor clientId p with
      | .error e => some (⟨.error e, p.checked, 1⟩, m)
      | .ok processor =>
        let item := ⟨processor, p.created⟩
        if m.isOld item p then
          (getProcessor (m.set clientId none) clientId passes).map fun r =>
            ({ r.1 with rebuilds := r.1.rebuilds + 1 }, r.2)
        else some (⟨.ok item, p.checked, 1⟩, m.set clientId (some item))

/-- The manager with its default processor. -/
def init (catalogLifetime : Int) (processor : π) (now : DateTime) : FamilyProcessorManager π where
  catalogLifetime := catalogLifetime
  processors := fun clientId =>
    if clientId = defaultCatalogName then some ⟨processor, now⟩ else none

end FamilyProcessorManager

end

/-! ## Calls -/

/-- A call, with the passes it makes. -/
structure ProcessorCall where
  clientId : String
  passes : List Pass

/-- The manager, and what its calls have returned so far. -/
structure ProcessorCache (π : Type) where
  manager : FamilyProcessorManager π
  served : List (Served π)

namespace ProcessorCache

/-- A call returns a processor, and may build one. -/
def step (makeUserFamilyProcessor : Value → Value → Except Raised π) (t : ProcessorCache π)
    (c : ProcessorCall) : Option (ProcessorCache π) :=
  (t.manager.getProcessor makeUserFamilyProcessor c.clientId c.passes).map fun r =>
    ⟨r.2, r.1 :: t.served⟩

/-- An age below the lifetime, or one that the check takes for older: what is left of it
without the whole days has reached the lifetime too. -/
def AgeShows (lifetime age : Int) : Prop :=
  age < lifetime * timedeltaSecond ∨ lifetime ≤ timedeltaSeconds age

/-- The ages the call checks show: that of the entry it finds, and those of the entries
it makes. -/
def Unwrapped (t : ProcessorCache π) (c : ProcessorCall) : Prop :=
  (∀ p ∈ c.passes.head?, ∀ item ∈ t.manager.processors c.clientId,
    AgeShows t.manager.catalogLifetime (p.checked - item.creationDate)) ∧
  ∀ p ∈ c.passes, AgeShows t.manager.catalogLifetime (p.checked - p.created)

instance (lifetime age : Int) : Decidable (AgeShows lifetime age) :=
  inferInstanceAs (Decidable (_ ∨ _))

instance (t : ProcessorCache π) (c : ProcessorCall) : Decidable (Unwrapped t c) :=
  inferInstanceAs (Decidable (_ ∧ _))

end ProcessorCache

/-- The entry whose processor is returned is younger than the lifetime. -/
def Served.Fresh (lifetime : Int) (s : Served π) : Prop :=
  ∀ item, s.item = .ok item → s.checked - item.creationDate < lifetime * timedeltaSecond

/-- The pass takes less than the lifetime. -/
def Pass.Quick (lifetime : Int) (p : Pass) : Prop :=
  p.checked - p.begun < lifetime * timedeltaSecond

namespace FamilyProcessorManager

variable {make : Value → Value → Except Raised π} {m t : FamilyProcessorManager π} {s : Served π}
  {clientId : String} {passes : List Pass}

/-- An entry that shows its age and is not taken for old is young. -/
theorem young_of_not_isOld {item : ProcessorItem π} {p : Pass} (hold : m.isOld item p = false)
    (hshows : ProcessorCache.AgeShows m.catalogLifetime (p.checked - item.creationDate)) :
    p.checked - item.creationDate < m.catalogLifetime * timedeltaSecond := by
  rcases hshows with hyoung | hpast
  · exact hyoung
  · have hsame : m.isOld item p = true := decide_eq_true hpast
    rw [hold] at hsame
    cases hsame

/-- What was built in a quick pass is not taken for old. -/
theorem not_isOld_of_quick {p : Pass} (h : p.Quick m.catalogLifetime) (processor : π) :
    m.isOld ⟨processor, p.created⟩ p = false := by
  have hage : 0 ≤ p.checked - p.created := Int.sub_nonneg_of_le p.created_le_checked
  have hlt : p.checked - p.created < m.catalogLifetime * timedeltaSecond :=
    lt_of_le_of_lt (Int.sub_le_sub_left p.begun_le_created p.checked) h
  exact decide_eq_false (not_le.mpr (timedeltaSeconds_lt hage hlt))

/-- The ways a pass goes: the entry is served, or dropped, or what is missing is built. -/
theorem getProcessor_cons {p : Pass} {rest : List Pass}
    (h : m.getProcessor make clientId (p :: rest) = some (s, t)) :
    (∃ item, m.processors clientId = some item ∧ m.isOld item p = false ∧
      s = ⟨.ok item, p.checked, 0⟩ ∧ t = m) ∨
    (∃ item, m.processors clientId = some item ∧ m.isOld item p = true ∧
      (m.set clientId none).getProcessor make clientId rest = some (s, t)) ∨
    (m.processors clientId = none ∧ ∃ e, m.buildProcessor make clientId p = .error e ∧
      s = ⟨.error e, p.checked, 1⟩ ∧ t = m) ∨
    (m.processors clientId = none ∧ ∃ processor,
      m.buildProcessor make clientId p = .ok processor ∧
      (m.isOld ⟨processor, p.created⟩ p = false ∧
          s = ⟨.ok ⟨processor, p.created⟩, p.checked, 1⟩ ∧
          t = m.set clientId (some ⟨processor, p.created⟩) ∨
        m.isOld ⟨processor, p.created⟩ p = true ∧
          ∃ s', (m.set clientId none).getProcessor make clientId rest = some (s', t) ∧
            s = { s' with rebuilds := s'.rebuilds + 1 })) := by
  rw [getProcessor] at h
  cases hlookup : m.processors clientId with
  | some item =>
    simp only [hlookup] at h
    -- an item is served or dropped, by its age
    cases hold : m.isOld item p with
    | true =>
      rw [if_pos hold] at h
      exact Or.inr (Or.inl ⟨item, rfl, hold, h⟩)
    | false =>
      simp only [hold, Bool.false_eq_true, if_false, Option.some.injEq, Prod.mk.injEq] at h
      obtain ⟨rfl, rfl⟩ := h
      exact Or.inl ⟨item, rfl, hold, rfl, rfl⟩
  | none =>
    simp only [hlookup] at h
    refine Or.inr (Or.inr ?_)
    -- without an item, one is built; what is too old at once is built again
    cases hbuild : m.buildProcessor make clientId p with
    | error e =>
      simp only [hbuild, Option.some.injEq, Prod.mk.injEq] at h
      obtain ⟨rfl, rfl⟩ := h
      exact Or.inl ⟨rfl, e, rfl, rfl, rfl⟩
    | ok processor =>
      simp only [hbuild] at h
      refine Or.inr ⟨rfl, processor, rfl, ?_⟩
      cases hold : m.isOld ⟨processor, p.created⟩ p with
      | true =>
        rw [if_pos hold] at h
        obtain ⟨r, hr, hs⟩ := Option.map_eq_some_iff.mp h
        obtain ⟨rfl, rfl⟩ := Prod.mk.inj hs
        exact Or.inr ⟨rfl, r.1, hr, rfl⟩
      | false =>
        simp only [hold, Bool.false_eq_true, if_false, Option.some.injEq, Prod.mk.injEq] at h
        obtain ⟨rfl, rfl⟩ := h
        exact Or.inl ⟨rfl, rfl, rfl⟩

/-- A call of the cache, from any entries. -/
theorem getProcessor_fresh
    (hentry : ∀ p ∈ passes.head?, ∀ item ∈ m.processors clientId,
      ProcessorCache.AgeShows m.catalogLifetime (p.checked - item.creationDate))
    (hbuilt : ∀ p ∈ passes, ProcessorCache.AgeShows m.catalogLifetime (p.checked - p.created))
    (h : m.getProcessor make clientId passes = some (s, t)) :
    s.Fresh m.catalogLifetime ∧ t.catalogLifetime = m.catalogLifetime := by
  induction passes generalizing m s with
  | nil => cases h
  | cons p passes ih =>
    obtain ⟨hp, hpasses⟩ := List.forall_mem_cons.mp hbuilt
    -- once the entry is dropped, the next pass finds none
    have hdropped : ∀ q ∈ passes.head?, ∀ item ∈ (m.set clientId none).processors clientId,
        ProcessorCache.AgeShows m.catalogLifetime (q.checked - item.creationDate) := by
      intro q _ item hitem
      simp [FamilyProcessorManager.set] at hitem
    rcases getProcessor_cons h with ⟨item, hitem, hold, rfl, rfl⟩ | ⟨item, -, -, h'⟩ |
      ⟨-, e, -, rfl, rfl⟩ | ⟨-, processor, -, ⟨hold, rfl, rfl⟩ | ⟨-, s', h', rfl⟩⟩
    · refine ⟨?_, rfl⟩
      intro item' hitem'
      cases hitem'
      exact young_of_not_isOld hold (hentry p rfl item hitem)
    · exact ih (m := m.set clientId none) hdropped hpasses h'
    · exact ⟨nofun, rfl⟩
    · refine ⟨?_, rfl⟩
      intro item' hitem'
      cases hitem'
      exact young_of_not_isOld hold hp
    · exact ih (m := m.set clientId none) (s := s') hdropped hpasses h'

variable (make) in
/-- Without an entry, a quick pass ends the call. -/
theorem getProcessor_of_quick {p : Pass} (h : p.Quick m.catalogLifetime)
    (hlookup : m.processors clientId = none) (rest : List Pass) :
    ∃ r, m.getProcessor make clientId (p :: rest) = some r ∧ r.1.rebuilds = 1 := by
  rw [getProcessor, hlookup]
  cases hbuild : m.buildProcessor make clientId p with
  | error e => exact ⟨_, rfl, rfl⟩
  | ok processor =>
    simp only [not_isOld_of_quick h processor]
    exact ⟨_, rfl, rfl⟩

/-- **A call ends** after one rebuild at most. -/
theorem getProcessor_ends {p q : Pass} (hp : p.Quick m.catalogLifetime)
    (hq : q.Quick m.catalogLifetime) (clientId : String) (rest : List Pass) :
    ∃ r, m.getProcessor make clientId (p :: q :: rest) = some r ∧ r.1.rebuilds ≤ 1 := by
  cases hlookup : m.processors clientId with
  | none =>
    obtain ⟨r, hr, hrebuilds⟩ := getProcessor_of_quick make hp hlookup (q :: rest)
    exact ⟨r, hr, hrebuilds.le⟩
  | some item =>
    rw [getProcessor, hlookup]
    cases hold : m.isOld item p with
    | true =>
      have hdropped : (m.set clientId none).processors clientId = none := Function.update_self ..
      have hq' : q.Quick (m.set clientId none).catalogLifetime := hq
      obtain ⟨r, hr, hrebuilds⟩ := getProcessor_of_quick make hq' hdropped rest
      exact ⟨r, by simp only [hold, if_true, hr], hrebuilds.le⟩
    | false =>
      simp only [hold]
      exact ⟨_, rfl, Nat.zero_le 1⟩

end FamilyProcessorManager

namespace ProcessorCache

/-- Nothing has been served. -/
def start (m : FamilyProcessorManager π) : ProcessorCache π := ⟨m, []⟩

/-- What has been returned was fresh, and the lifetime is what it was. -/
structure ServesFresh (lifetime : Int) (t : ProcessorCache π) : Prop where
  same : t.manager.catalogLifetime = lifetime
  fresh : ∀ s ∈ t.served, s.Fresh lifetime

theorem servesFresh_start (m : FamilyProcessorManager π) :
    ServesFresh m.catalogLifetime (start m) where
  same := rfl
  fresh := by
    intro s hs
    cases hs

/-- **One call** whose entry shows its age serves no old processor. -/
theorem servesFresh_step {make : Value → Value → Except Raised π} {lifetime : Int}
    {t u : ProcessorCache π} {c : ProcessorCall} (h : ServesFresh lifetime t) (hok : Unwrapped t c)
    (hstep : step make t c = some u) : ServesFresh lifetime u := by
  obtain ⟨r, hr, rfl⟩ := Option.map_eq_some_iff.mp hstep
  obtain ⟨hfresh, hlifetime⟩ := FamilyProcessorManager.getProcessor_fresh hok.1 hok.2 hr
  rw [h.same] at hfresh hlifetime
  exact { same := hlifetime, fresh := List.forall_mem_cons.mpr ⟨hfresh, h.fresh⟩ }

/-- **No old processor is served**: in every run of calls whose checked ages have not
wrapped around a day, every entry whose processor was returned was younger than the
lifetime; and the next call of any client ends after one rebuild at most, if its passes
take less than the lifetime. -/
theorem served_fresh {make : Value → Value → Except Raised π} {m : FamilyProcessorManager π}
    {t : ProcessorCache π} {calls : List ProcessorCall}
    (hok : Guarded (step make) Unwrapped (start m) calls)
    (hrun : run (step make) (start m) calls = some t) :
    (∀ s ∈ t.served, s.Fresh m.catalogLifetime) ∧
      ∀ (clientId : String) (p q : Pass) (rest : List Pass), p.Quick m.catalogLifetime →
        q.Quick m.catalogLifetime →
        ∃ r, t.manager.getProcessor make clientId (p :: q :: rest) = some r ∧ r.1.rebuilds ≤ 1 := by
  have hserves : ServesFresh m.catalogLifetime t :=
    run_invariant servesFresh_step (servesFresh_start m) hok hrun
  refine ⟨hserves.fresh, ?_⟩
  intro clientId p q rest hp hq
  rw [← hserves.same] at hp hq
  exact FamilyProcessorManager.getProcessor_ends hp hq clientId rest

/-! ## Calls of one client -/

/-- A pass at `time`, for a client without catalog. -/
def passAt (time : DateTime) : Pass where
  fetch := fun _ => .error (.unexpectedResponse 404)
  begun := time
  created := time
  checked := time
  begun_le_created := le_rfl
  created_le_checked := le_rfl

/-- A manager with a lifetime of ten seconds. -/
def sampleManager : FamilyProcessorManager String := .init 10 "default" 0

/-- **An old processor is served**: the lifetime is ten seconds, and the second call comes
a day and five seconds after the first. -/
theorem old_processor_is_served :
    ¬ ∀ (calls : List ProcessorCall) (t : ProcessorCache String),
      run (step fun _ _ => .ok "user") (start sampleManager) calls = some t →
      ∀ s ∈ t.served, s.Fresh sampleManager.catalogLifetime := by
  intro h
  have hrun : run (step fun _ _ => .ok "user") (start sampleManager)
      [⟨"opendes", [passAt 0]⟩, ⟨"opendes", [passAt 86405000000]⟩] = some
      ⟨sampleManager.set "opendes" (some ⟨"default", 0⟩),
        [⟨.ok ⟨"default", 0⟩, 86405000000, 0⟩, ⟨.ok ⟨"default", 0⟩, 0, 1⟩]⟩ := by rfl
  have hfresh := h _ _ hrun _ List.mem_cons_self ⟨"default", 0⟩ rfl
  exact absurd hfresh (by decide)

/-- The second call is served from the cache, the third after a rebuild. -/
theorem served_fresh_rebuilt :
    ∃ t, run (step fun _ _ => .ok "user") (start sampleManager)
        [⟨"opendes", [passAt 0]⟩, ⟨"opendes", [passAt 5000000]⟩,
          ⟨"opendes", [passAt 12000000, passAt 12000000]⟩] = some t ∧
      t.served.map Served.rebuilds = [1, 0, 1] ∧
      ∀ s ∈ t.served, s.Fresh sampleManager.catalogLifetime := by
  have hrun : run (step fun _ _ => .ok "user") (start sampleManager)
      [⟨"opendes", [passAt 0]⟩, ⟨"opendes", [passAt 5000000]⟩,
        ⟨"opendes", [passAt 12000000, passAt 12000000]⟩] = some
      ⟨((sampleManager.set "opendes" (some ⟨"default", 0⟩)).set "opendes" none).set "opendes"
          (some ⟨"default", 12000000⟩),
        [⟨.ok ⟨"default", 12000000⟩, 12000000, 1⟩, ⟨.ok ⟨"default", 0⟩, 5000000, 0⟩,
          ⟨.ok ⟨"default", 0⟩, 0, 1⟩]⟩ := by rfl
  exact ⟨_, hrun, rfl, (served_fresh (guarded_of_checkRun (by decide)) hrun).1⟩

end ProcessorCache

end WellboreDdms
