import WellboreDdms.Families.Processors

/-!
# The default processor

Clients without a catalog get the default processor, which the manager makes when it starts
and keeps in the same dictionary as those of the clients. It is dropped like theirs when a call
for the default client id finds it too old, and the storage has no catalog to build it again.

- `KeepsDefault`: a call that drops the default entry builds one from a catalog.
- `getProcessor_frame`, `getProcessor_keeps`: what one call does to the entries.
- `default_available`: in every run of such calls there is a default processor, and a client
  without a catalog is served.
- `refresh_loses_default`: without the condition the default processor is lost for good.
-/

namespace WellboreDdms

open Python Machine

variable {π : Type}

/-- A processor built in this pass is not too old when its age is checked. -/
def Pass.Settles (lifetime : Int) (p : Pass) : Prop :=
  timedeltaSeconds (p.checked - p.created) < lifetime

/-- A processor was built from a catalog. -/
def builtFromCatalog : Except Raised (Option π) → Bool
  | .ok (some _) => true
  | _ => false

namespace ProcessorCache

variable (make : Value → Value → Except Raised π)

/-- If the call drops the default entry, it finds a catalog for each rebuild. -/
def KeepsDefault (t : ProcessorCache π) (c : ProcessorCall) : Prop :=
  c.clientId = defaultCatalogName →
    ∀ p ∈ c.passes.head?, ∀ item ∈ t.manager.processors defaultCatalogName,
      t.manager.isOld item p = true →
      ∀ q ∈ c.passes.tail, builtFromCatalog (createProcessor make q c.clientId) = true

instance (t : ProcessorCache π) (c : ProcessorCall) : Decidable (KeepsDefault make t c) :=
  inferInstanceAs (Decidable (_ → _))

/-- The client has no catalog, as far as the call finds out. -/
def WithoutCatalog (c : ProcessorCall) : Prop :=
  ∀ p ∈ c.passes, createProcessor make p c.clientId = .ok none

/-- There is a default processor. -/
def HasDefault (t : ProcessorCache π) : Prop :=
  ∃ processor, t.manager.getDefaultProcessor = .ok processor

end ProcessorCache

namespace FamilyProcessorManager

variable {make : Value → Value → Except Raised π} {m t : FamilyProcessorManager π} {s : Served π}
  {clientId : String} {passes : List Pass}

/-- A processor that was just created is not old. -/
theorem not_isOld_of_settles {p : Pass} (h : p.Settles m.catalogLifetime) (processor : π) :
    m.isOld ⟨processor, p.created⟩ p = false :=
  decide_eq_false (not_le.mpr h)

theorem set_self (m : FamilyProcessorManager π) (clientId : String)
    (item : Option (ProcessorItem π)) : (m.set clientId item).processors clientId = item :=
  Function.update_self ..

theorem set_of_ne (m : FamilyProcessorManager π) {clientId other : String}
    (item : Option (ProcessorItem π)) (h : other ≠ clientId) :
    (m.set clientId item).processors other = m.processors other :=
  Function.update_of_ne h ..

/-! ## What one call does -/

/-- A call changes the entry of its own client only. -/
theorem getProcessor_frame (h : m.getProcessor make clientId passes = some (s, t)) :
    t.catalogLifetime = m.catalogLifetime ∧
      ∀ other, other ≠ clientId → t.processors other = m.processors other := by
  induction passes generalizing m s with
  | nil => cases h
  | cons p rest ih =>
    have hdropped : ∀ {s'}, (m.set clientId none).getProcessor make clientId rest = some (s', t) →
        t.catalogLifetime = m.catalogLifetime ∧
          ∀ other, other ≠ clientId → t.processors other = m.processors other := by
      intro s' h'
      obtain ⟨hlifetime, hother⟩ := ih h'
      exact ⟨hlifetime, fun other hne => (hother other hne).trans (m.set_of_ne none hne)⟩
    rcases getProcessor_cons h with ⟨item, -, -, -, rfl⟩ | ⟨item, -, -, h'⟩ |
      ⟨-, e, -, -, rfl⟩ | ⟨-, processor, -, ⟨-, -, rfl⟩ | ⟨-, s', h', -⟩⟩
    · exact ⟨rfl, fun _ _ => rfl⟩
    · exact hdropped h'
    · exact ⟨rfl, fun _ _ => rfl⟩
    · exact ⟨rfl, fun other hne => m.set_of_ne _ hne⟩
    · exact hdropped h'

theorem buildProcessor_of_catalog {p : Pass}
    (h : builtFromCatalog (createProcessor make p clientId) = true) :
    ∃ processor, m.buildProcessor make clientId p = .ok processor := by
  cases hcreate : createProcessor make p clientId with
  | error e =>
    rw [hcreate] at h
    cases h
  | ok built =>
    cases built with
    | none =>
      rw [hcreate] at h
      cases h
    | some processor =>
      refine ⟨processor, ?_⟩
      rw [buildProcessor, hcreate]
      rfl

/-- An entry that is built again from catalogs is there when the call ends. -/
theorem getProcessor_rebuilt (hlookup : m.processors clientId = none)
    (hbuilt : ∀ p ∈ passes, builtFromCatalog (createProcessor make p clientId) = true)
    (h : m.getProcessor make clientId passes = some (s, t)) :
    ∃ item, t.processors clientId = some item := by
  induction passes generalizing m s with
  | nil => cases h
  | cons p rest ih =>
    obtain ⟨hp, hrest⟩ := List.forall_mem_cons.mp hbuilt
    rcases getProcessor_cons h with ⟨item, hitem, -⟩ | ⟨item, hitem, -⟩ |
      ⟨-, e, he, -⟩ | ⟨-, processor, -, ⟨-, -, rfl⟩ | ⟨-, s', h', -⟩⟩
    · rw [hlookup] at hitem
      cases hitem
    · rw [hlookup] at hitem
      cases hitem
    · obtain ⟨processor, hprocessor⟩ := buildProcessor_of_catalog (m := m) hp
      rw [hprocessor] at he
      cases he
    · exact ⟨_, m.set_self clientId _⟩
    · exact ih (m.set_self clientId none) hrest h'

/-- A call keeps the default entry, if it builds what it drops. -/
theorem getProcessor_keeps {item : ProcessorItem π}
    (hitem : m.processors defaultCatalogName = some item)
    (hkeeps : clientId = defaultCatalogName → ∀ p ∈ passes.head?, m.isOld item p = true →
      ∀ q ∈ passes.tail, builtFromCatalog (createProcessor make q clientId) = true)
    (h : m.getProcessor make clientId passes = some (s, t)) :
    ∃ item, t.processors defaultCatalogName = some item := by
  by_cases hclient : defaultCatalogName = clientId
  · subst hclient
    cases passes with
    | nil => cases h
    | cons p rest =>
      rcases getProcessor_cons h with ⟨-, -, -, -, rfl⟩ | ⟨item', hitem', hold, h'⟩ |
        ⟨hnone, -⟩ | ⟨hnone, -⟩
      · exact ⟨item, hitem⟩
      · rw [hitem] at hitem'
        cases hitem'
        exact getProcessor_rebuilt (m.set_self defaultCatalogName none) (hkeeps rfl p rfl hold) h'
      · rw [hitem] at hnone
        cases hnone
      · rw [hitem] at hnone
        cases hnone
  · exact ⟨item, ((getProcessor_frame h).2 _ hclient).trans hitem⟩

/-! ## Clients without a catalog -/

/-- Without a catalog the default processor is taken. -/
theorem buildProcessor_of_none {p : Pass} (h : createProcessor make p clientId = .ok none) :
    m.buildProcessor make clientId p = m.getDefaultProcessor := by
  rw [buildProcessor, h]
  rfl

variable (make) in
/-- **A client that has no entry and no catalog is served** the default processor, at the
latest in a pass that settles. -/
theorem getProcessor_of_absent {item : ProcessorItem π} (hclient : clientId ≠ defaultCatalogName)
    (hitem : m.processors defaultCatalogName = some item) (hlookup : m.processors clientId = none)
    (hnone : ∀ p ∈ passes, createProcessor make p clientId = .ok none)
    (hsettles : ∃ q ∈ passes, q.Settles m.catalogLifetime) :
    ∃ r served, m.getProcessor make clientId passes = some r ∧ r.1.item = .ok served := by
  induction passes generalizing m with
  | nil =>
    obtain ⟨q, hq, -⟩ := hsettles
    cases hq
  | cons p rest ih =>
    obtain ⟨hp, hrest⟩ := List.forall_mem_cons.mp hnone
    have hbuild : m.buildProcessor make clientId p = .ok item.processor := by
      rw [buildProcessor_of_none hp, getDefaultProcessor, hitem]
    simp only [getProcessor, hlookup, hbuild]
    cases hold : m.isOld ⟨item.processor, p.created⟩ p with
    | false =>
      simp only [Bool.false_eq_true, if_false]
      exact ⟨_, _, rfl, rfl⟩
    | true =>
      have hlater : ∃ q ∈ rest, q.Settles m.catalogLifetime := by
        obtain ⟨q, hq, hsettles⟩ := hsettles
        rcases List.mem_cons.mp hq with rfl | hq
        · rw [not_isOld_of_settles hsettles item.processor] at hold
          cases hold
        · exact ⟨q, hq, hsettles⟩
      have hitem' : (m.set clientId none).processors defaultCatalogName = some item :=
        (m.set_of_ne none hclient.symm).trans hitem
      obtain ⟨r, served, hr, hserved⟩ := ih hitem' (m.set_self clientId none) hrest hlater
      simp only [if_true, hr, Option.map_some]
      exact ⟨_, served, rfl, hserved⟩

end FamilyProcessorManager

namespace ProcessorCache

variable {make : Value → Value → Except Raised π} {t u : ProcessorCache π} {c : ProcessorCall}

/-- The default processor is there if its item is. -/
theorem hasDefault_iff :
    t.HasDefault ↔ ∃ item, t.manager.processors defaultCatalogName = some item := by
  unfold HasDefault FamilyProcessorManager.getDefaultProcessor
  cases t.manager.processors defaultCatalogName with
  | some item => exact ⟨fun _ => ⟨item, rfl⟩, fun _ => ⟨_, rfl⟩⟩
  | none => exact ⟨fun ⟨_, h⟩ => (nofun : Except.error _ = Except.ok _ → _) h, nofun⟩

theorem hasDefault_start (catalogLifetime : Int) (processor : π) (now : DateTime) :
    (start (.init catalogLifetime processor now)).HasDefault :=
  ⟨processor, rfl⟩

/-- One call. -/
theorem hasDefault_step {lifetime : Int}
    (h : t.HasDefault ∧ t.manager.catalogLifetime = lifetime) (hok : KeepsDefault make t c)
    (hstep : step make t c = some u) : u.HasDefault ∧ u.manager.catalogLifetime = lifetime := by
  obtain ⟨r, hr, rfl⟩ := Option.map_eq_some_iff.mp hstep
  obtain ⟨item, hitem⟩ := hasDefault_iff.mp h.1
  refine ⟨hasDefault_iff.mpr ?_, (FamilyProcessorManager.getProcessor_frame hr).1.trans h.2⟩
  exact FamilyProcessorManager.getProcessor_keeps hitem
    (fun hclient p hp hold => hok hclient p hp item hitem hold) hr

/-- With a default processor a client without a catalog is served. -/
theorem HasDefault.serves (h : t.HasDefault) (hok : KeepsDefault make t c)
    (hnone : WithoutCatalog make c)
    (hsettles : ∃ q ∈ c.passes.tail, q.Settles t.manager.catalogLifetime) :
    ∃ r item, t.manager.getProcessor make c.clientId c.passes = some r ∧ r.1.item = .ok item := by
  obtain ⟨item, hitem⟩ := hasDefault_iff.mp h
  obtain ⟨clientId, passes⟩ := c
  cases passes with
  | nil =>
    obtain ⟨q, hq, -⟩ := hsettles
    cases hq
  | cons p rest =>
    obtain ⟨q, hq, hq'⟩ := hsettles
    cases hlookup : t.manager.processors clientId with
    -- without an entry, one is built; the default client always has one
    | none =>
      have hclient : clientId ≠ defaultCatalogName := by
        rintro rfl
        rw [hlookup] at hitem
        cases hitem
      exact FamilyProcessorManager.getProcessor_of_absent make hclient hitem hlookup hnone
        ⟨q, List.mem_cons_of_mem p hq, hq'⟩
    | some entry =>
      simp only [FamilyProcessorManager.getProcessor, hlookup]
      cases hold : t.manager.isOld entry p with
      | false =>
        simp only [Bool.false_eq_true, if_false]
        exact ⟨_, _, rfl, rfl⟩
      -- an old entry is dropped, and it is not the default one: that would be built from a catalog
      | true =>
        have hclient : clientId ≠ defaultCatalogName := by
          rintro rfl
          have hbuilt := hok rfl p rfl entry hlookup hold q hq
          rw [hnone q (List.mem_cons_of_mem p hq)] at hbuilt
          cases hbuilt
        have hitem' : (t.manager.set clientId none).processors defaultCatalogName = some item :=
          (t.manager.set_of_ne none hclient.symm).trans hitem
        simp only [if_true]
        exact FamilyProcessorManager.getProcessor_of_absent make hclient hitem'
          (t.manager.set_self clientId none) (fun p' hp' => hnone p' (List.mem_cons_of_mem p hp'))
          ⟨q, hq, hq'⟩

/-- **The default processor is available** in every state that calls lead to which build what
they drop of it; and a call for a client without a catalog returns a processor, if one of its
passes after the first settles. -/
theorem default_available {catalogLifetime : Int} {processor : π} {now : DateTime}
    {calls : List ProcessorCall}
    (hok : Guarded (step make) (KeepsDefault make) (start (.init catalogLifetime processor now))
      calls)
    (hrun : run (step make) (start (.init catalogLifetime processor now)) calls = some t) :
    t.HasDefault ∧
      ∀ c : ProcessorCall, KeepsDefault make t c → WithoutCatalog make c →
        (∃ q ∈ c.passes.tail, q.Settles catalogLifetime) →
        ∃ r item, t.manager.getProcessor make c.clientId c.passes = some r ∧
          r.1.item = .ok item := by
  have hafter : t.HasDefault ∧ t.manager.catalogLifetime = catalogLifetime :=
    run_invariant hasDefault_step ⟨hasDefault_start catalogLifetime processor now, rfl⟩ hok hrun
  obtain ⟨hdefault, hlifetime⟩ := hafter
  refine ⟨hdefault, ?_⟩
  intro c hkeeps hnone hsettles
  rw [← hlifetime] at hsettles
  exact hdefault.serves hkeeps hnone hsettles

/-- **The default processor is lost**: the lifetime is ten seconds, and twelve seconds after
the start it is asked for by its own client id. -/
theorem refresh_loses_default :
    ¬ ∀ (calls : List ProcessorCall) (t : ProcessorCache String),
      run (step fun _ _ => .ok "user") (start sampleManager) calls = some t → t.HasDefault := by
  intro h
  have hrun : run (step fun _ _ => .ok "user") (start sampleManager)
      [⟨defaultCatalogName, [passAt 12000000, passAt 12000000]⟩] = some
      ⟨sampleManager.set defaultCatalogName none, [⟨.error .typeError, 12000000, 1⟩]⟩ := by rfl
  obtain ⟨item, hitem⟩ := hasDefault_iff.mp (h _ _ hrun)
  rw [FamilyProcessorManager.set_self] at hitem
  cases hitem

/-- A client without a catalog is served before and after its entry was built again. -/
theorem default_available_rebuilt :
    ∃ t, run (step fun _ _ => .ok "user") (start (.init 10 "default" 0))
        [⟨"opendes", [passAt 0]⟩, ⟨"opendes", [passAt 12000000, passAt 12000000]⟩] = some t ∧
      t.HasDefault := by
  have hrun : run (step fun _ _ => .ok "user") (start (.init 10 "default" 0))
      [⟨"opendes", [passAt 0]⟩, ⟨"opendes", [passAt 12000000, passAt 12000000]⟩] = some
      ⟨((sampleManager.set "opendes" (some ⟨"default", 0⟩)).set "opendes" none).set "opendes"
          (some ⟨"default", 12000000⟩),
        [⟨.ok ⟨"default", 12000000⟩, 12000000, 1⟩, ⟨.ok ⟨"default", 0⟩, 0, 1⟩]⟩ := by rfl
  exact ⟨_, hrun, (default_available (guarded_of_checkRun (by decide)) hrun).1⟩

end ProcessorCache

end WellboreDdms
