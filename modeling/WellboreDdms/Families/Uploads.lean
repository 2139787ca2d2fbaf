import WellboreDdms.Families.Processors
import WellboreDdms.Machine.Effect
import WellboreDdms.Machine.Timeline

/-!
# Uploaded catalogs

A client uploads its catalog as a record, and the log recognition builds a processor from it,
that it keeps. Calls to `get_processor` are in flight together: while one waits for the record,
a catalog is uploaded, and other calls build processors from what they have read.

- `enterProcessor`, `resumeProcessor`: what a call does before it waits and after. Together
  they are `get_processor` (`getProcessor_of_served`, `getProcessor_of_resumed`).
- `postRecognizeCustom`: the answer of the route, from the processor of the client and the
  default one.
- `Recognition.step`: uploads and calls, interleaved, with the clock.
- `answers_follow_uploads`: in every run each answer is one of a catalog that has been replaced
  only in the last lifetime and the time that building takes, at most.
-/

namespace WellboreDdms

open Python Machine

variable {π ι ρ : Type}

/-! ## A call in two parts -/

/-- What the call meets when the answer of the storage is there. -/
def passOf (answer : Except Raised Record) {begun created checked : DateTime}
    (hcreated : begun ≤ created) (hchecked : created ≤ checked) : Pass :=
  ⟨fun _ => answer, begun, created, checked, hcreated, hchecked⟩

namespace FamilyProcessorManager

variable (m : FamilyProcessorManager π) (clientId : String)

/-- `(datetime.now() - processor_item.creation_date).seconds >= self._catalog_lifetime` -/
def isOldAt (item : ProcessorItem π) (checked : DateTime) : Bool :=
  timedeltaSeconds (checked - item.creationDate) ≥ m.catalogLifetime

/-- A call up to where it waits: it serves the entry, or drops it and asks the storage. -/
def enterProcessor (checked : DateTime) : Option (ProcessorItem π) × FamilyProcessorManager π :=
  match m.processors clientId with
  | some item => if m.isOldAt item checked then (none, m.set clientId none) else (some item, m)
  | none => (none, m)

/-- A call from where it has waited: it builds the entry and serves it, or starts over. -/
def resumeProcessor (makeUserFamilyProcessor : Value → Value → Except Raised π) (p : Pass) :
    Except Raised (Option (ProcessorItem π) × FamilyProcessorManager π) := do
  let processor ← m.buildProcessor makeUserFamilyProcessor clientId p
  let item := ⟨processor, p.created⟩
  if m.isOldAt item p.checked then return (none, m.set clientId none)
  else return (some item, m.set clientId (some item))

variable {m clientId}

/-- The ways the first part goes. -/
theorem enterProcessor_cases {checked : DateTime} {item? : Option (ProcessorItem π)}
    {t : FamilyProcessorManager π} (h : m.enterProcessor clientId checked = (item?, t)) :
    (∃ item, m.processors clientId = some item ∧ m.isOldAt item checked = false ∧
      item? = some item ∧ t = m) ∨
    (item? = none ∧ (t = m ∨ t = m.set clientId none)) := by
  unfold enterProcessor at h
  split at h
  · rename_i item hitem
    cases hold : m.isOldAt item checked with
    | true =>
      rw [hold] at h
      cases h
      exact .inr ⟨rfl, .inr rfl⟩
    | false =>
      rw [hold] at h
      cases h
      exact .inl ⟨item, hitem, hold, rfl, rfl⟩
  · cases h
    exact .inr ⟨rfl, .inl rfl⟩

/-- The ways the second part goes, once the processor is built. -/
theorem resumeProcessor_cases {make : Value → Value → Except Raised π} {p : Pass}
    {item? : Option (ProcessorItem π)} {t : FamilyProcessorManager π}
    (h : m.resumeProcessor clientId make p = .ok (item?, t)) :
    ∃ processor, m.buildProcessor make clientId p = .ok processor ∧
      (m.isOldAt ⟨processor, p.created⟩ p.checked = false ∧
          item? = some ⟨processor, p.created⟩ ∧
          t = m.set clientId (some ⟨processor, p.created⟩) ∨
        item? = none ∧ t = m.set clientId none) := by
  obtain ⟨processor, hbuild, h⟩ := bind_eq_ok.mp h
  refine ⟨processor, hbuild, ?_⟩
  extract_lets item at h
  cases hold : m.isOldAt item p.checked with
  | true =>
    rw [hold] at h
    cases h
    exact .inr ⟨rfl, rfl⟩
  | false =>
    rw [hold] at h
    cases h
    exact .inl ⟨rfl, rfl, rfl⟩

/-- The entry that the first part serves is what `get_processor` returns. -/
theorem getProcessor_of_served {make : Value → Value → Except Raised π} {p : Pass}
    {item : ProcessorItem π} {t : FamilyProcessorManager π}
    (h : m.enterProcessor clientId p.checked = (some item, t)) (rest : List Pass) :
    m.getProcessor make clientId (p :: rest) = some (⟨.ok item, p.checked, 0⟩, t) := by
  rcases enterProcessor_cases h with ⟨item', hitem, hold, heq, rfl⟩ | ⟨heq, -⟩
  · cases heq
    rw [getProcessor, hitem]
    exact if_neg (Bool.eq_false_iff.mp hold)
  · cases heq

/-- What the second part builds and serves is what `get_processor` returns. -/
theorem getProcessor_of_resumed {make : Value → Value → Except Raised π} {p : Pass}
    (hlookup : m.processors clientId = none) {item : ProcessorItem π}
    {t : FamilyProcessorManager π}
    (h : m.resumeProcessor clientId make p = .ok (some item, t)) (rest : List Pass) :
    m.getProcessor make clientId (p :: rest) = some (⟨.ok item, p.checked, 1⟩, t) := by
  obtain ⟨processor, hbuild, ⟨hold, heq, rfl⟩ | ⟨heq, -⟩⟩ := resumeProcessor_cases h
  · cases heq
    rw [getProcessor, hlookup]
    simp only [hbuild]
    exact if_neg (Bool.eq_false_iff.mp hold)
  · cases heq

end FamilyProcessorManager

/-! ## The answer of the route -/

/-- `GuessRequest`. -/
structure GuessRequest where
  label : String
  logUnit : Option String := none
  description : Option String := none

/-- What a processor guesses. The type of the family is one text or several. -/
structure GuessResult where
  error : Option String
  family : Option String
  familyType : Option (String ⊕ List String)
  logUnit : Option String
  baseUnit : Option String

/-- `GuessResponse`. -/
structure GuessResponse where
  family : Option String
  familyType : Option (List String)
  logUnit : Option String
  baseUnit : Option String

/-- The response, of a guess without an error. -/
def GuessResult.response (result : GuessResult) : GuessResponse where
  family := result.family
  familyType := result.familyType.map fun familyType => familyType.elim (fun text => [text]) id
  logUnit := result.logUnit
  baseUnit := result.baseUnit

/-- `post_recognize_custom`, once it has the processor of the client: if that one ends in an
error, the default one guesses, if it is there. -/
def postRecognizeCustom (guess : π → GuessRequest → GuessResult) (processor : π)
    (defaultProcessor : Except Raised π) (body : GuessRequest) : Except Raised GuessResponse := do
  let result := guess processor body
  if result.error = none then return result.response
  else
    let result := guess (← defaultProcessor) body
    match result.error with
    | none | some "" => return result.response
    | some error =>
      if error = "Cannot find family name" then throw (.httpException 404 error)
      else throw (.httpException 400 error)

/-! ## Uploads and calls, interleaved -/

/-- The record `upload_catalog` stores. -/
def uploadCatalog (partitionId : String) (data rest : Dict String Value) : Record where
  id := some (partitionId ++ fixedRecordId)
  kind := partitionId ++ ":wdms:familycatalog:1.0.0"
  data := data
  rest := rest

/-- Where a call to the route is: it waits for the storage, has its answer, has a processor,
or has responded. -/
inductive RecognitionCall (π : Type) where
  | idle
  | waiting (clientId : String) (begun : DateTime)
  | answered (clientId : String) (begun : DateTime) (answer : Except Raised Record)
  | served (clientId : String) (item : ProcessorItem π) (checked : DateTime)
  | responded (clientId : String) (checked : DateTime) (body : GuessRequest)
    (response : Except Raised GuessResponse)

/-- When the call began to wait, once it has its answer. -/
def RecognitionCall.begun : RecognitionCall π → Option DateTime
  | .answered _ begun _ => some begun
  | _ => none

/-- The manager, the clock, the calls, and the catalog of each client as it was stored and
removed over time. -/
structure Recognition (ι π : Type) where
  manager : FamilyProcessorManager π
  now : DateTime
  catalogs : String → List (DateTime × Option Record)
  calls : ι → RecognitionCall π

/-- Uploads and removals of catalogs, and the awaits of a call. -/
inductive RecognitionEvent (ι : Type) where
  | upload (clientId : String) (data rest : Dict String Value) (time : DateTime)
  | remove (clientId : String) (time : DateTime)
  | enter (call : ι) (clientId : String) (checked : DateTime)
  | read (call : ι) (time : DateTime)
  | fail (call : ι) (e : Raised) (time : DateTime)
  | resume (call : ι) (created checked : DateTime)
  | respond (call : ι) (body : GuessRequest) (time : DateTime)

/-- What the storage answers, of the catalog that is current. -/
def storageAnswer : Option Record → Except Raised Record
  | some record => .ok record
  | none => .error (.unexpectedResponse 404)

namespace Recognition

/-- The catalog of a client is replaced. -/
def store (s : Recognition ι π) (clientId : String) (answer : Option Record) (time : DateTime) :
    Recognition ι π :=
  { s with
    now := time
    catalogs := Function.update s.catalogs clientId (s.catalogs clientId ++ [(time, answer)]) }

/-- A call goes on, and leaves the manager. -/
def advance [DecidableEq ι] (s : Recognition ι π) (i : ι) (call : RecognitionCall π)
    (m : FamilyProcessorManager π) (time : DateTime) : Recognition ι π :=
  { s with manager := m, now := time, calls := Function.update s.calls i call }

/-- One event; the clock does not go back. -/
def step [DecidableEq ι] (make : Value → Value → Except Raised π)
    (guess : π → GuessRequest → GuessResult) (s : Recognition ι π) :
    RecognitionEvent ι → Option (Recognition ι π)
  | .upload clientId data rest time =>
    if s.now ≤ time then some (s.store clientId (some (uploadCatalog clientId data rest)) time)
    else none
  | .remove clientId time => if s.now ≤ time then some (s.store clientId none time) else none
  | .enter i clientId checked =>
    if s.now ≤ checked then
      match s.calls i with
      | .idle =>
        match s.manager.enterProcessor clientId checked with
        | (some item, m) => some (s.advance i (.served clientId item checked) m checked)
        | (none, m) => some (s.advance i (.waiting clientId checked) m checked)
      | _ => none
    else none
  | .read i time =>
    if s.now ≤ time then
      match s.calls i with
      | .waiting clientId begun =>
        let answer := (s.catalogs clientId).getLast?.elim none Prod.snd
        some (s.advance i (.answered clientId begun (storageAnswer answer)) s.manager time)
      | _ => none
    else none
  | .fail i e time =>
    if s.now ≤ time ∧ e ≠ .unexpectedResponse 404 then
      match s.calls i with
      | .waiting clientId begun =>
        some (s.advance i (.answered clientId begun (.error e)) s.manager time)
      | _ => none
    else none
  | .resume i created checked =>
    match s.calls i with
    | .answered clientId begun answer =>
      if h : (s.now ≤ created ∧ begun ≤ created) ∧ created ≤ checked then
        match s.manager.resumeProcessor clientId make (passOf answer h.1.2 h.2) with
        | .error _ => some (s.advance i .idle s.manager checked)
        | .ok (some item, m) => some (s.advance i (.served clientId item checked) m checked)
        | .ok (none, m) => some (s.advance i (.waiting clientId checked) m checked)
      else none
    | _ => none
  | .respond i body time =>
    if s.now ≤ time then
      match s.calls i with
      | .served clientId item checked =>
        let response :=
          postRecognizeCustom guess item.processor s.manager.getDefaultProcessor body
        some (s.advance i (.responded clientId checked body response) s.manager time)
      | _ => none
    else none

/-- No client has the id of the default catalog, an entry is built in the time `d`, and the ages
that are checked show. -/
def Timely (d : Int) (s : Recognition ι π) : RecognitionEvent ι → Prop
  | .enter _ clientId checked => clientId ≠ defaultCatalogName ∧
    ∀ item ∈ s.manager.processors clientId,
      ProcessorCache.AgeShows s.manager.catalogLifetime (checked - item.creationDate)
  | .resume i created checked =>
    ProcessorCache.AgeShows s.manager.catalogLifetime (checked - created) ∧
      ∀ begun ∈ (s.calls i).begun, created - begun ≤ d
  | _ => True

instance (d : Int) (s : Recognition ι π) : (event : RecognitionEvent ι) →
    Decidable (Timely d s event)
  | .enter .. => inferInstanceAs (Decidable (_ ∧ _))
  | .resume .. => inferInstanceAs (Decidable (_ ∧ _))
  | .upload .. | .remove .. | .read .. | .fail .. | .respond .. => .isTrue trivial

/-- The manager has just been made, and every catalog has a past. -/
structure Starts (lifetime : Int) (processor : π) (s : Recognition ι π) : Prop where
  manager : ∃ now, s.manager = .init lifetime processor now
  catalogs : ∀ clientId, s.catalogs clientId ≠ []
  sorted : ∀ clientId, (s.catalogs clientId).Pairwise fun p q => p.1 ≤ q.1
  past : ∀ clientId, ∀ p ∈ s.catalogs clientId, p.1 ≤ s.now
  calls : ∀ i, s.calls i = .idle

/-! ## What answers are built from -/

/-- The processor of a client, from what the storage answers. -/
def processorOf (make : Value → Value → Except Raised π) (default : π) (clientId : String)
    (answer : Option Record) : Except Raised π := do
  match ← createProcessor make (passOf (storageAnswer answer) (le_refl 0) (le_refl 0)) clientId with
  | some processor => return processor
  | none => return default

/-- A processor is built of what the storage answers. -/
theorem buildProcessor_eq {make : Value → Value → Except Raised π} {m : FamilyProcessorManager π}
    {default : π} (hdefault : m.getDefaultProcessor = .ok default) (clientId : String)
    (answer : Option Record) {begun created checked : DateTime} (h : begun ≤ created)
    (h' : created ≤ checked) :
    m.buildProcessor make clientId (passOf (storageAnswer answer) h h') =
      processorOf make default clientId answer := by
  rw [FamilyProcessorManager.buildProcessor, processorOf, hdefault]
  rfl

/-- Nothing is built if the storage fails. -/
theorem buildProcessor_of_error {make : Value → Value → Except Raised π}
    {m : FamilyProcessorManager π} {clientId : String} {e : Raised}
    (he : e ≠ .unexpectedResponse 404) {begun created checked : DateTime} (h : begun ≤ created)
    (h' : created ≤ checked) :
    m.buildProcessor make clientId (passOf (.error e) h h') = .error e := by
  have hcatalogs : getCatalogsFromDe (passOf (.error e) h h') clientId = .error e := if_neg he
  rw [FamilyProcessorManager.buildProcessor, createProcessor, hcatalogs]
  rfl

/-- A later state: what was current in a period that had begun is still so. -/
structure Later (s s' : Recognition ι π) : Prop where
  now : s.now ≤ s'.now
  catalogs : ∀ {clientId since until' answer}, since ≤ s.now →
    WasCurrent (s.catalogs clientId) since until' answer →
    WasCurrent (s'.catalogs clientId) since until' answer

variable {make : Value → Value → Except Raised π} {guess : π → GuessRequest → GuessResult}
  {default : π} {lifetime d : Int} {s s' t : Recognition ι π}

/-- A call that goes on leaves the catalogs. -/
theorem later_advance [DecidableEq ι] (i : ι) (call : RecognitionCall π)
    (m : FamilyProcessorManager π)
    {time : DateTime} (htime : s.now ≤ time) : Later s (s.advance i call m time) :=
  ⟨htime, fun _ h => h⟩

/-- A catalog that is stored is the current one from then on. -/
theorem later_store (clientId : String) (answer : Option Record) {time : DateTime}
    (htime : s.now ≤ time) : Later s (s.store clientId answer time) where
  now := htime
  catalogs := by
    intro clientId' since until' answer' hsince hcurrent
    by_cases hclient : clientId' = clientId
    · subst hclient
      show WasCurrent (Function.update s.catalogs _ _ _) since until' answer'
      rw [Function.update_self]
      exact hcurrent.write (hsince.trans htime)
    · show WasCurrent (Function.update s.catalogs _ _ _) since until' answer'
      rw [Function.update_of_ne hclient]
      exact hcurrent

/-- The processor was built from a catalog that was current in the period. -/
def BuiltIn (make : Value → Value → Except Raised π) (default : π) (s : Recognition ι π)
    (clientId : String) (since until' : Int) (processor : π) : Prop :=
  ∃ answer, WasCurrent (s.catalogs clientId) since until' answer ∧
    processorOf make default clientId answer = .ok processor

theorem BuiltIn.later (hlater : Later s s') {clientId : String} {since until' : Int}
    {processor : π} (hsince : since ≤ s.now)
    (h : BuiltIn make default s clientId since until' processor) :
    BuiltIn make default s' clientId since until' processor := by
  obtain ⟨answer, hcurrent, hprocessor⟩ := h
  exact ⟨answer, hlater.catalogs hsince hcurrent, hprocessor⟩

theorem BuiltIn.mono {clientId : String} {since until' since' until'' : Int} {processor : π}
    (h : BuiltIn make default s clientId since until' processor) (hsince : since' ≤ since)
    (huntil : until' ≤ until'') : BuiltIn make default s clientId since' until'' processor := by
  obtain ⟨answer, hcurrent, hprocessor⟩ := h
  exact ⟨answer, hcurrent.mono hsince huntil, hprocessor⟩

/-- An entry was built from a catalog that was current when it was made or at most `d` before. -/
def EntryOk (make : Value → Value → Except Raised π) (default : π) (d : Int)
    (s : Recognition ι π) (clientId : String) (item : ProcessorItem π) : Prop :=
  item.creationDate ≤ s.now ∧
    BuiltIn make default s clientId (item.creationDate - d) item.creationDate item.processor

/-- The longest time for which an answer may be behind. -/
def period (lifetime d : Int) : Int := lifetime * timedeltaSecond + d

/-- What a call has got so far is what the storage answered since it waits, or a processor built
in the period before it was checked. -/
def CallOk (make : Value → Value → Except Raised π) (guess : π → GuessRequest → GuessResult)
    (default : π) (lifetime d : Int) (s : Recognition ι π) : RecognitionCall π → Prop
  | .idle => True
  | .waiting clientId begun => clientId ≠ defaultCatalogName ∧ begun ≤ s.now
  | .answered clientId begun answer => clientId ≠ defaultCatalogName ∧ begun ≤ s.now ∧
    ((∃ a, answer = storageAnswer a ∧ WasCurrent (s.catalogs clientId) begun s.now a) ∨
      ∃ e, answer = .error e ∧ e ≠ .unexpectedResponse 404)
  | .served clientId item checked => checked ≤ s.now ∧
    BuiltIn make default s clientId (checked - period lifetime d) checked item.processor
  | .responded clientId checked body response => checked ≤ s.now ∧ ∃ processor,
    BuiltIn make default s clientId (checked - period lifetime d) checked processor ∧
      response = postRecognizeCustom guess processor (.ok default) body

theorem EntryOk.later (hd : 0 ≤ d) (hlater : Later s s') {clientId : String}
    {item : ProcessorItem π} (h : EntryOk make default d s clientId item) :
    EntryOk make default d s' clientId item := by
  obtain ⟨hcreated, hbuilt⟩ := h
  have hsince : item.creationDate - d ≤ s.now := (Int.sub_le_self _ hd).trans hcreated
  exact ⟨hcreated.trans hlater.now, hbuilt.later hlater hsince⟩

theorem CallOk.later (hperiod : 0 ≤ period lifetime d) (hlater : Later s s')
    {call : RecognitionCall π} (h : CallOk make guess default lifetime d s call) :
    CallOk make guess default lifetime d s' call := by
  have hnow := hlater.now
  cases call with
  | idle => trivial
  | waiting clientId begun => exact ⟨h.1, h.2.trans hnow⟩
  | answered clientId begun answer =>
    obtain ⟨hclient, hbegun, hanswer⟩ := h
    refine ⟨hclient, hbegun.trans hnow, hanswer.imp_left ?_⟩
    rintro ⟨a, ha, hcurrent⟩
    exact ⟨a, ha, (hlater.catalogs hbegun hcurrent).mono le_rfl hnow⟩
  | served clientId item checked =>
    obtain ⟨hchecked, hbuilt⟩ := h
    have hsince : checked - period lifetime d ≤ s.now := (Int.sub_le_self _ hperiod).trans hchecked
    exact ⟨hchecked.trans hnow, hbuilt.later hlater hsince⟩
  | responded clientId checked body response =>
    obtain ⟨hchecked, processor, hbuilt, hresponse⟩ := h
    have hsince : checked - period lifetime d ≤ s.now := (Int.sub_le_self _ hperiod).trans hchecked
    exact ⟨hchecked.trans hnow, processor, hbuilt.later hlater hsince, hresponse⟩

/-! ## The invariant -/

/-- The lifetime and the default processor are what they were, catalogs are listed in the order
of their times, and entries and calls are as they should be. -/
structure Follows (make : Value → Value → Except Raised π) (guess : π → GuessRequest → GuessResult)
    (default : π) (lifetime d : Int) (s : Recognition ι π) : Prop where
  sameLifetime : s.manager.catalogLifetime = lifetime
  sameDefault : s.manager.getDefaultProcessor = .ok default
  catalogs : ∀ clientId, s.catalogs clientId ≠ []
  sorted : ∀ clientId, (s.catalogs clientId).Pairwise fun p q => p.1 ≤ q.1
  past : ∀ clientId, ∀ p ∈ s.catalogs clientId, p.1 ≤ s.now
  entries : ∀ clientId, clientId ≠ defaultCatalogName → ∀ item ∈ s.manager.processors clientId,
    EntryOk make default d s clientId item
  calls : ∀ i, CallOk make guess default lifetime d s (s.calls i)

theorem follows_of_starts (h : Starts lifetime default s) :
    Follows make guess default lifetime d s where
  sameLifetime := by
    obtain ⟨now, hmanager⟩ := h.manager
    rw [hmanager]
    rfl
  sameDefault := by
    obtain ⟨now, hmanager⟩ := h.manager
    rw [hmanager]
    rfl
  catalogs := h.catalogs
  sorted := h.sorted
  past := h.past
  entries := by
    intro clientId hclient item hitem
    obtain ⟨now, hmanager⟩ := h.manager
    have hnone : s.manager.processors clientId = none := by
      rw [hmanager]
      exact if_neg hclient
    rw [hnone] at hitem
    cases hitem
  calls := by
    intro i
    rw [h.calls i]
    trivial

/-- **A stored catalog** is followed. -/
theorem Follows.store (hd : 0 ≤ d) (hperiod : 0 ≤ period lifetime d)
    (h : Follows make guess default lifetime d s) (clientId : String) (answer : Option Record)
    {time : DateTime} (htime : s.now ≤ time) :
    Follows make guess default lifetime d (s.store clientId answer time) := by
  have hlater := later_store clientId answer htime
  have hsame : (s.store clientId answer time).catalogs clientId =
      s.catalogs clientId ++ [(time, answer)] := Function.update_self ..
  have hother : ∀ {clientId'}, clientId' ≠ clientId →
      (s.store clientId answer time).catalogs clientId' = s.catalogs clientId' :=
    fun hne => Function.update_of_ne hne ..
  -- only the catalogs of the client change, by one entry at the end
  refine ⟨h.sameLifetime, h.sameDefault, ?_, ?_, ?_, ?_, ?_⟩
  · intro clientId'
    by_cases hclient : clientId' = clientId
    · subst hclient
      rw [hsame]
      simp
    · rw [hother hclient]
      exact h.catalogs clientId'
  · intro clientId'
    by_cases hclient : clientId' = clientId
    · subst hclient
      rw [hsame, List.pairwise_append]
      refine ⟨h.sorted clientId', List.pairwise_singleton .., fun p hp q hq => ?_⟩
      obtain rfl := List.mem_singleton.mp hq
      exact (h.past clientId' p hp).trans htime
    · rw [hother hclient]
      exact h.sorted clientId'
  · intro clientId' p hp
    show p.1 ≤ time
    by_cases hclient : clientId' = clientId
    · subst hclient
      rw [hsame] at hp
      rcases List.mem_append.mp hp with hp | hp
      · exact (h.past clientId' p hp).trans htime
      · obtain rfl := List.mem_singleton.mp hp
        exact le_rfl
    · rw [hother hclient] at hp
      exact (h.past clientId' p hp).trans htime
  · intro clientId' hclient item hitem
    exact (h.entries clientId' hclient item hitem).later hd hlater
  · intro i
    exact (h.calls i).later hperiod hlater

theorem sub_le_begun {begun created : Int} (h : created - begun ≤ d) : created - d ≤ begun :=
  Int.sub_le_of_sub_le h

/-- What an answered call builds is from what the storage answered. -/
theorem builtIn_of_answered (h : Follows make guess default lifetime d s) {clientId : String}
    {begun created checked : DateTime} {answer : Except Raised Record} {processor : π}
    (hcall : CallOk make guess default lifetime d s (.answered clientId begun answer))
    (hnow : s.now ≤ created) (hbegun : begun ≤ created) (hchecked : created ≤ checked)
    (hbuilds : created - begun ≤ d)
    (hbuild : s.manager.buildProcessor make clientId (passOf answer hbegun hchecked) =
      .ok processor) : BuiltIn make default s clientId (created - d) created processor := by
  obtain ⟨-, -, ⟨a, rfl, hcurrent⟩ | ⟨e, rfl, he⟩⟩ := hcall
  · rw [buildProcessor_eq h.sameDefault] at hbuild
    exact ⟨a, hcurrent.mono (sub_le_begun hbuilds) hnow, hbuild⟩
  · rw [buildProcessor_of_error he] at hbuild
    cases hbuild

/-- An entry in use is younger than its lifetime. -/
theorem sub_period_le {created checked : Int} (h : checked - created < lifetime * timedeltaSecond) :
    checked - period lifetime d ≤ created - d := by
  unfold period
  omega

/-- An entry whose age shows and that is not taken for old is not older than the lifetime. -/
theorem since_of_not_isOldAt {m : FamilyProcessorManager π}
    (hlifetime : m.catalogLifetime = lifetime)
    {item : ProcessorItem π} {checked : DateTime} (hold : m.isOldAt item checked = false)
    (hshows : ProcessorCache.AgeShows m.catalogLifetime (checked - item.creationDate)) :
    checked - period lifetime d ≤ item.creationDate - d := by
  have hyoung : checked - item.creationDate < lifetime * timedeltaSecond := by
    rw [← hlifetime]
    rcases hshows with hyoung | hpast
    · exact hyoung
    · exact absurd hpast (of_decide_eq_false hold)
  exact sub_period_le hyoung

variable [DecidableEq ι]

/-- Only the item of the default processor matters. -/
theorem getDefaultProcessor_congr {m m' : FamilyProcessorManager π}
    (h : m.processors defaultCatalogName = m'.processors defaultCatalogName) :
    m.getDefaultProcessor = m'.getDefaultProcessor := by
  rw [FamilyProcessorManager.getDefaultProcessor, FamilyProcessorManager.getDefaultProcessor, h]

/-- A call goes on: what is new is the state of the call, and the entries that have changed. -/
theorem Follows.advance (hd : 0 ≤ d) (hperiod : 0 ≤ period lifetime d)
    (h : Follows make guess default lifetime d s) {i : ι} {call : RecognitionCall π}
    {m : FamilyProcessorManager π} {time : DateTime} (htime : s.now ≤ time)
    (hlifetime : m.catalogLifetime = s.manager.catalogLifetime)
    (hdefault : m.processors defaultCatalogName = s.manager.processors defaultCatalogName)
    (hentries : ∀ clientId, clientId ≠ defaultCatalogName → ∀ item ∈ m.processors clientId,
      item ∈ s.manager.processors clientId ∨
        EntryOk make default d (s.advance i call m time) clientId item)
    (hcall : CallOk make guess default lifetime d (s.advance i call m time) call) :
    Follows make guess default lifetime d (s.advance i call m time) where
  sameLifetime := hlifetime.trans h.sameLifetime
  sameDefault := (getDefaultProcessor_congr hdefault).trans h.sameDefault
  catalogs := h.catalogs
  sorted := h.sorted
  past := fun clientId p hp => (h.past clientId p hp).trans htime
  entries := by
    intro clientId hclient item hitem
    rcases hentries clientId hclient item hitem with hold | hnew
    · exact (h.entries clientId hclient item hold).later hd (later_advance i call m htime)
    · exact hnew
  calls := by
    intro j
    by_cases hj : j = i
    · subst hj
      show CallOk make guess default lifetime d _ (Function.update s.calls j call j)
      rw [Function.update_self]
      exact hcall
    · show CallOk make guess default lifetime d _ (Function.update s.calls i call j)
      rw [Function.update_of_ne hj]
      exact (h.calls j).later hperiod (later_advance i call m htime)

/-- The entry of the client is dropped, or replaced by a good one. -/
theorem Follows.advance_set (hd : 0 ≤ d) (hperiod : 0 ≤ period lifetime d)
    (h : Follows make guess default lifetime d s) {i : ι} {call : RecognitionCall π}
    {clientId : String} {item? : Option (ProcessorItem π)} {time : DateTime}
    (htime : s.now ≤ time) (hclient : clientId ≠ defaultCatalogName)
    (hitem : ∀ item ∈ item?, EntryOk make default d
      (s.advance i call (s.manager.set clientId item?) time) clientId item)
    (hcall : CallOk make guess default lifetime d
      (s.advance i call (s.manager.set clientId item?) time) call) :
    Follows make guess default lifetime d
      (s.advance i call (s.manager.set clientId item?) time) := by
  refine h.advance hd hperiod htime rfl (Function.update_of_ne (Ne.symm hclient) ..) ?_ hcall
  intro clientId' _ item' hitem'
  by_cases hsame : clientId' = clientId
  · subst hsame
    have hself : (s.manager.set clientId' item?).processors clientId' = item? :=
      Function.update_self ..
    rw [hself] at hitem'
    exact .inr (hitem item' hitem')
  · have hother : (s.manager.set clientId item?).processors clientId' =
        s.manager.processors clientId' := Function.update_of_ne hsame ..
    rw [hother] at hitem'
    exact .inl hitem'

/-- The manager stays as it is. -/
theorem Follows.advance_same (hd : 0 ≤ d) (hperiod : 0 ≤ period lifetime d)
    (h : Follows make guess default lifetime d s) {i : ι} {call : RecognitionCall π}
    {time : DateTime} (htime : s.now ≤ time)
    (hcall : CallOk make guess default lifetime d (s.advance i call s.manager time) call) :
    Follows make guess default lifetime d (s.advance i call s.manager time) :=
  h.advance hd hperiod htime rfl rfl (fun _ _ _ hitem => .inl hitem) hcall

/-- The first part of a call: what it serves was built in the period. -/
theorem follows_enter (hd : 0 ≤ d) (hperiod : 0 ≤ period lifetime d)
    (h : Follows make guess default lifetime d s) {i : ι} {clientId : String} {checked : DateTime}
    (hok : Timely d s (.enter i clientId checked))
    (hstep : s.step make guess (.enter i clientId checked) = some t) :
    Follows make guess default lifetime d t := by
  obtain ⟨hclient, hshows⟩ := hok
  obtain ⟨htime, hstep⟩ := Option.ite_none_right_eq_some.mp hstep
  split at hstep
  · split at hstep
    · rename_i item m henter
      cases hstep
      rcases FamilyProcessorManager.enterProcessor_cases henter with
        ⟨item', hitem, hold, heq, rfl⟩ | ⟨heq, -⟩
      · cases heq
        -- an entry that is not old was built after the time that an upload takes to be seen
        obtain ⟨hcreated, hbuilt⟩ := h.entries clientId hclient item hitem
        have hsince := since_of_not_isOldAt (d := d) h.sameLifetime hold (hshows item hitem)
        have hlater := hbuilt.later
          (later_advance i (.served clientId item checked) s.manager htime)
          ((Int.sub_le_self _ hd).trans hcreated)
        exact h.advance_same hd hperiod htime
          ⟨le_rfl, hlater.mono hsince (hcreated.trans htime)⟩
      · cases heq
    · rename_i m henter
      -- a call that has to build waits for the storage
      cases hstep
      have hcall : CallOk make guess default lifetime d
          (s.advance i (.waiting clientId checked) m checked) (.waiting clientId checked) :=
        ⟨hclient, le_rfl⟩
      rcases FamilyProcessorManager.enterProcessor_cases henter with
        ⟨item', -, -, heq, -⟩ | ⟨-, rfl | rfl⟩
      · cases heq
      · exact h.advance_same hd hperiod htime hcall
      · exact h.advance_set hd hperiod htime hclient nofun hcall
  · cases hstep

/-- The second part: what it has read was current since the call waits, so that the entry it
makes is good. -/
theorem follows_resume (hd : 0 ≤ d) (hperiod : 0 ≤ period lifetime d)
    (h : Follows make guess default lifetime d s) {i : ι} {created checked : DateTime}
    (hok : Timely d s (.resume i created checked))
    (hstep : s.step make guess (.resume i created checked) = some t) :
    Follows make guess default lifetime d t := by
  obtain ⟨hshows, hbuilds⟩ := hok
  unfold step at hstep
  simp only at hstep
  split at hstep
  · rename_i clientId begun answer hi
    have hcall := h.calls i
    rw [hi] at hcall
    -- the build began at most `d` before the processor was created
    have hbegins : created - begun ≤ d := hbuilds begun (by rw [hi]; rfl)
    split at hstep
    · rename_i hclock
      obtain ⟨⟨hnow, hbegun⟩, hchecked⟩ := hclock
      have htime : s.now ≤ checked := hnow.trans hchecked
      -- the build raised, or its processor is young enough, or it is looked up once more
      split at hstep
      · cases hstep
        exact h.advance_same hd hperiod htime trivial
      · rename_i item m hresume
        cases hstep
        obtain ⟨processor, hbuild, ⟨hold, heq, rfl⟩ | ⟨heq, -⟩⟩ :=
          FamilyProcessorManager.resumeProcessor_cases hresume
        · cases heq
          have hbuilt := builtIn_of_answered h hcall hnow hbegun hchecked hbegins hbuild
          -- the catalog was current when the build began
          have hsince : created - d ≤ s.now := (sub_le_begun hbegins).trans hcall.2.1
          have hlater := hbuilt.later (later_advance i
            (.served clientId ⟨processor, created⟩ checked)
            (s.manager.set clientId (some ⟨processor, created⟩)) htime) hsince
          refine h.advance_set hd hperiod htime hcall.1 ?_ ⟨le_rfl, ?_⟩
          · intro item hitem
            -- the entry and the answer are of the same build
            cases hitem
            exact ⟨hchecked, hlater⟩
          · exact hlater.mono (since_of_not_isOldAt h.sameLifetime hold hshows) hchecked
        · cases heq
      · rename_i m hresume
        cases hstep
        obtain ⟨processor, -, ⟨-, heq, -⟩ | ⟨-, rfl⟩⟩ :=
          FamilyProcessorManager.resumeProcessor_cases hresume
        · cases heq
        · exact h.advance_set hd hperiod htime hcall.1 nofun ⟨hcall.1, le_rfl⟩
    · cases hstep
  · cases hstep

/-- **One event** in time follows the uploads. -/
theorem follows_step (hd : 0 ≤ d) (hperiod : 0 ≤ period lifetime d) {event : RecognitionEvent ι}
    (h : Follows make guess default lifetime d s) (hok : Timely d s event)
    (hstep : s.step make guess event = some t) : Follows make guess default lifetime d t := by
  cases event with
  | upload clientId data rest time =>
    obtain ⟨htime, hstep⟩ := Option.ite_none_right_eq_some.mp hstep
    cases hstep
    exact h.store hd hperiod clientId _ htime
  | remove clientId time =>
    obtain ⟨htime, hstep⟩ := Option.ite_none_right_eq_some.mp hstep
    cases hstep
    exact h.store hd hperiod clientId none htime
  | enter i clientId checked => exact follows_enter hd hperiod h hok hstep
  | read i time =>
    obtain ⟨htime, hstep⟩ := Option.ite_none_right_eq_some.mp hstep
    split at hstep
    · rename_i clientId begun hi
      have hcall := h.calls i
      rw [hi] at hcall
      obtain ⟨hclient, hbegun⟩ := hcall
      cases hstep
      obtain ⟨before, last, hcatalogs⟩ :=
        (List.eq_nil_or_concat' (s.catalogs clientId)).resolve_left (h.catalogs clientId)
      -- what is read is current, and the call has been waiting for it
      have hlast : last.1 ≤ s.now := by
        refine h.past clientId last ?_
        rw [hcatalogs]
        exact List.mem_concat_self
      refine h.advance_same hd hperiod htime ⟨hclient, hbegun.trans htime, .inl ⟨_, rfl, ?_⟩⟩
      show WasCurrent (s.catalogs clientId) begun time _
      rw [hcatalogs, List.getLast?_concat]
      exact (wasCurrent_last (hlast.trans htime)).mono (hbegun.trans htime) le_rfl
    · cases hstep
  | fail i e time =>
    obtain ⟨⟨htime, he⟩, hstep⟩ := Option.ite_none_right_eq_some.mp hstep
    split at hstep
    · rename_i clientId begun hi
      have hcall := h.calls i
      rw [hi] at hcall
      cases hstep
      exact h.advance_same hd hperiod htime
        ⟨hcall.1, hcall.2.trans htime, .inr ⟨e, rfl, he⟩⟩
    · cases hstep
  | resume i created checked => exact follows_resume hd hperiod h hok hstep
  | respond i body time =>
    obtain ⟨htime, hstep⟩ := Option.ite_none_right_eq_some.mp hstep
    split at hstep
    · rename_i clientId item checked hi
      have hcall := h.calls i
      rw [hi] at hcall
      cases hstep
      obtain ⟨hchecked, hbuilt⟩ := hcall
      have hlater := hbuilt.later (later_advance i (.responded clientId checked body
        (postRecognizeCustom guess item.processor s.manager.getDefaultProcessor body)) s.manager
        htime) ((Int.sub_le_self _ hperiod).trans hchecked)
      refine h.advance_same hd hperiod htime
        ⟨hchecked.trans htime, item.processor, hlater, ?_⟩
      rw [h.sameDefault]
    · cases hstep

/-- **Answers follow uploads**: in every run of uploads and of calls whose ages show, a call that
was served at a time has answered from the catalog of its client, or the default one if there is
none, and this catalog was replaced at most a lifetime and the time of building before. -/
theorem answers_follow_uploads (hlifetime : 0 ≤ lifetime) (hd : 0 ≤ d)
    (hstart : Starts lifetime default s) {events : List (RecognitionEvent ι)}
    (hok : Guarded (step make guess) (Timely d) s events)
    (hrun : run (step make guess) s events = some t) {i : ι} {clientId : String}
    {checked : DateTime} {body : GuessRequest} {response : Except Raised GuessResponse}
    (hcall : t.calls i = .responded clientId checked body response) :
    ∃ before time answer after processor,
      t.catalogs clientId = before ++ (time, answer) :: after ∧ time ≤ checked ∧
      (∀ p ∈ after, checked - period lifetime d ≤ p.1) ∧
      processorOf make default clientId answer = .ok processor ∧
      response = postRecognizeCustom guess processor (.ok default) body := by
  have hperiod : 0 ≤ period lifetime d := by
    unfold period timedeltaSecond
    omega
  have hfollows : Follows make guess default lifetime d t :=
    run_invariant (follows_step hd hperiod) (follows_of_starts hstart) hok hrun
  have hresponded := hfollows.calls i
  rw [hcall] at hresponded
  obtain ⟨-, processor, ⟨answer, hcurrent, hprocessor⟩, hresponse⟩ := hresponded
  obtain ⟨before, time, after, hcatalogs, htime, hafter⟩ :=
    hcurrent.not_superseded (hfollows.sorted clientId)
  exact ⟨before, time, answer, after, processor, hcatalogs, htime, hafter, hprocessor, hresponse⟩

/-! ## A catalog that comes into use -/

/-- A client without catalog, a manager that keeps processors for 300 seconds. -/
def sampleRecognition : Recognition Nat String where
  manager := .init 300 "default" 0
  now := 0
  catalogs := fun _ => [(0, none)]
  calls := fun _ => .idle

/-- A recognition that answers its processor. -/
def sampleGuess (processor : String) (_ : GuessRequest) : GuessResult where
  error := none
  family := some processor
  familyType := none
  logUnit := none
  baseUnit := none

/-- A catalog is uploaded while the first call is under way. The second one still gets the
default processor, the third one, 400 seconds later, that of the catalog. -/
def sampleUploads : List (RecognitionEvent Nat) :=
  let second (n : Int) : DateTime := n * timedeltaSecond
  [.enter 0 "opendes" (second 1), .read 0 (second 2),
    .upload "opendes" [("family_catalog", .list [])] [] (second 3),
    .resume 0 (second 4) (second 4), .respond 0 ⟨"GRD", none, none⟩ (second 5),
    .enter 1 "opendes" (second 100), .respond 1 ⟨"GRD", none, none⟩ (second 101),
    .enter 2 "opendes" (second 401), .read 2 (second 402), .resume 2 (second 403) (second 403),
    .respond 2 ⟨"GRD", none, none⟩ (second 404)]

/-- An upload is seen after the lifetime has passed. -/
theorem answers_follow_uploads_replaced :
    ∃ t, run (step (fun _ _ => .ok "user") sampleGuess) sampleRecognition sampleUploads = some t ∧
      t.calls 1 = .responded "opendes" 100000000 ⟨"GRD", none, none⟩
        (.ok ⟨some "default", none, none, none⟩) ∧
      t.calls 2 = .responded "opendes" 403000000 ⟨"GRD", none, none⟩
        (.ok ⟨some "user", none, none, none⟩) ∧
      ∃ before time answer after processor,
        t.catalogs "opendes" = before ++ (time, answer) :: after ∧ time ≤ 403000000 ∧
        (∀ p ∈ after, 403000000 - period 300 10000000 ≤ p.1) ∧
        processorOf (fun _ _ => .ok "user") "default" "opendes" answer = .ok processor ∧
        (.ok ⟨some "user", none, none, none⟩ : Except Raised GuessResponse) =
          postRecognizeCustom sampleGuess processor (.ok "default") ⟨"GRD", none, none⟩ := by
  have hstart : Starts 300 "default" sampleRecognition :=
    { manager := ⟨0, rfl⟩
      catalogs := fun _ => List.cons_ne_nil _ _
      sorted := fun _ => List.pairwise_singleton ..
      past := fun _ p hp => by
        obtain rfl := List.mem_singleton.mp hp
        exact le_rfl
      calls := fun _ => rfl }
  have hrun := Option.some_get
    (x := run (step (fun _ _ => .ok "user") sampleGuess) sampleRecognition sampleUploads) (by rfl)
  exact ⟨_, hrun.symm, rfl, rfl,
    answers_follow_uploads (d := 10000000) (by decide) (by decide) hstart
    (guarded_of_checkRun (by decide)) hrun.symm (i := 2) rfl⟩

end Recognition

end WellboreDdms
