import WellboreDdms.Bulk.Services

/-!
# The bulk URI rule

The bulk URI of a record is internal to the service: a client who posts a record must
leave it as it is in the latest version. `raise_if_invalid_bulk_uri` checks that.

- `raiseIfInvalidBulkUri`: the check, case by case, with its four refusals.
- `KeepsBulkUri`: the rule, on the decoded URIs of the record and of the version it
  would replace.
- `raiseIfInvalidBulkUri_spec`: the check lets no record pass that breaks the rule.
-/

namespace WellboreDdms

open Python Machine

/-- `bulk_uri.encode() if bulk_uri.is_valid() else None`, for the URI of the record. -/
def encodedBulkUri (record : Record) : Except Raised (Option String) := do
  let bulkUri ← OsduBulkIdAccess.getBulkUri record
  if bulkUri.isValid then
    return some (← bulkUri.encode)
  else return none

/-- The 400 of a record. -/
def invalidBulkUri (indexRecord : Nat) (reason : String) : Raised :=
  .httpException 400 ("Record[" ++ toString indexRecord ++ "] error : " ++ reason)

section

variable (o : Outside)

/-- The previous version, `none` where the storage answers 404. -/
def fetchPreviousVersion (recordId : String) : Effect Server Raised (Option Record) := fun s =>
  match fetchRecord o recordId none s with
  | (.ok record, t) => (.ok (some record), t)
  | (.error e, t) => if e = .unexpectedResponse 404 then (.ok none, t) else (.error e, t)

/-- `_raise_if_invalid_bulk_uri_task`. -/
def raiseIfInvalidBulkUriTask (indexRecord : Nat) (record : Record) :
    Effect Server Raised Unit := do
  let bulkUri ← Effect.lift (encodedBulkUri record)
  match record.ownId with
  | none =>
    if bulkUri.isNone then pure ()
    else Effect.raise (invalidBulkUri indexRecord "no Bulk URI can be specified without record id")
  | some recordId =>
    match ← fetchPreviousVersion o recordId with
    | none =>
      if bulkUri.isNone then pure ()
      else Effect.raise (invalidBulkUri indexRecord
        "no Bulk URI can be specified, given record_id has no previous version")
    | some previousVersion =>
      let previousBulkUri ← Effect.lift (encodedBulkUri previousVersion)
      if previousBulkUri.isNone ∧ bulkUri.isSome then
        Effect.raise (invalidBulkUri indexRecord
          "no Bulk URI can be specified, given record_id has no bulkURI in its previous version")
      else if bulkUri ≠ previousBulkUri then
        Effect.raise (invalidBulkUri indexRecord
          "Bulk URI isn't matching with the previous version one")
      else pure ()

/-- `raise_if_invalid_bulk_uri`, the tasks of the records from the `i`-th on. None of
them writes, so their order only decides which refusal is answered. -/
def raiseIfInvalidBulkUri : Nat → List Record → Effect Server Raised Unit
  | _, [] => pure ()
  | i, record :: records => do
    raiseIfInvalidBulkUriTask o i record
    raiseIfInvalidBulkUri (i + 1) records

end

/-! ## The rule -/

/-- The URI of a record, if it has a valid one. -/
def validBulkUri (record : Record) : Except Raised (Option BulkURI) :=
  (OsduBulkIdAccess.getBulkUri record).map fun uri => if uri.isValid then some uri else none

/-- The URI in the latest version of a record, none if there is no such record. -/
def RecordStore.latestBulkUri (s : RecordStore) (recordId : String) :
    Except Raised (Option BulkURI) :=
  match s.find recordId none with
  | some record => validBulkUri record
  | none => .ok none

/-- The URI in the version that `record` would replace. -/
def RecordStore.previousBulkUri (s : RecordStore) (record : Record) :
    Except Raised (Option BulkURI) :=
  match record.ownId with
  | some recordId => s.latestBulkUri recordId
  | none => .ok none

/-- The latest URI of a record that is found. -/
theorem RecordStore.latestBulkUri_of_find {s : RecordStore} {recordId : String} {record : Record}
    (h : s.find recordId none = some record) : s.latestBulkUri recordId = validBulkUri record := by
  rw [latestBulkUri, h]

/-- There is none of a record that is not found. -/
theorem RecordStore.latestBulkUri_of_not_found {s : RecordStore} {recordId : String}
    (h : s.find recordId none = none) : s.latestBulkUri recordId = .ok none := by
  rw [latestBulkUri, h]

theorem RecordStore.previousBulkUri_of_ownId {s : RecordStore} {record : Record} {recordId : String}
    (h : record.ownId = some recordId) : s.previousBulkUri record = s.latestBulkUri recordId := by
  rw [previousBulkUri, h]

theorem RecordStore.previousBulkUri_of_new {s : RecordStore} {record : Record}
    (h : record.ownId = none) : s.previousBulkUri record = .ok none := by
  rw [previousBulkUri, h]

/-- `record` has the URI of the version it would replace, and it can be read. -/
def KeepsBulkUri (s : RecordStore) (record : Record) : Prop :=
  validBulkUri record = s.previousBulkUri record ∧ (validBulkUri record).isOk = true

instance (s : RecordStore) (record : Record) : Decidable (KeepsBulkUri s record) :=
  inferInstanceAs (Decidable (validBulkUri record = s.previousBulkUri record ∧
    (validBulkUri record).isOk = true))

theorem validBulkUri_eq_some {record : Record} {uri : BulkURI}
    (h : validBulkUri record = .ok (some uri)) :
    OsduBulkIdAccess.getBulkUri record = .ok uri ∧ uri.isValid = true := by
  unfold validBulkUri at h
  cases hget : OsduBulkIdAccess.getBulkUri record with
  | error e =>
    rw [hget] at h
    cases h
  | ok u =>
    rw [hget] at h
    by_cases hvalid : u.isValid = true
    · rw [Except.map, if_pos hvalid] at h
      cases h
      exact ⟨rfl, hvalid⟩
    · rw [Except.map, if_neg hvalid] at h
      cases h

/-- The text that is compared is that of the valid URI. -/
theorem encodedBulkUri_eq_ok {record : Record} {text : Option String}
    (h : encodedBulkUri record = .ok text) :
    text = none ∧ validBulkUri record = .ok none ∨
      ∃ uri t, text = some t ∧ validBulkUri record = .ok (some uri) ∧ uri.encode = .ok t := by
  obtain ⟨uri, hget, h⟩ := bind_eq_ok.mp h
  by_cases hvalid : uri.isValid = true
  · right
    rw [if_pos hvalid] at h
    obtain ⟨t, hencode, h⟩ := bind_eq_ok.mp h
    cases h
    refine ⟨uri, t, rfl, ?_, hencode⟩
    rw [validBulkUri, hget, Except.map, if_pos hvalid]
  · left
    rw [if_neg hvalid] at h
    cases h
    refine ⟨rfl, ?_⟩
    rw [validBulkUri, hget, Except.map, if_neg hvalid]

/-- The URI of a record was decoded from a value in it. -/
theorem exists_decode {record : Record} {uri : BulkURI}
    (h : OsduBulkIdAccess.getBulkUri record = .ok uri) : ∃ v, BulkURI.decode v = .ok uri := by
  obtain ⟨v, -, hv⟩ := bind_eq_ok.mp h
  exact ⟨v, hv⟩

/-- Records whose URIs print the same have the same URI. -/
theorem validBulkUri_congr {record other : Record} {text : Option String}
    (h : encodedBulkUri record = .ok text) (h' : encodedBulkUri other = .ok text) :
    validBulkUri record = validBulkUri other ∧ (validBulkUri record).isOk = true := by
  rcases encodedBulkUri_eq_ok h with ⟨rfl, hvalid⟩ | ⟨uri, t, rfl, hvalid, hencode⟩
  · rcases encodedBulkUri_eq_ok h' with ⟨-, hvalid'⟩ | ⟨uri', t', ht, -, -⟩
    · rw [hvalid, hvalid']
      exact ⟨rfl, rfl⟩
    · cases ht
  · rcases encodedBulkUri_eq_ok h' with ⟨ht, -⟩ | ⟨uri', t', ht, hvalid', hencode'⟩
    · cases ht
    · cases ht
      obtain ⟨hget, hv⟩ := validBulkUri_eq_some hvalid
      obtain ⟨hget', hv'⟩ := validBulkUri_eq_some hvalid'
      obtain ⟨v, hdecode⟩ := exists_decode hget
      obtain ⟨v', hdecode'⟩ := exists_decode hget'
      obtain rfl := BulkURI.encode_inj hdecode hdecode' hv hv' (hencode.trans hencode'.symm)
      rw [hvalid, hvalid']
      exact ⟨rfl, rfl⟩

/-- No URI is printed of a record that has no valid one. -/
theorem validBulkUri_of_isNone {record : Record} {text : Option String}
    (h : encodedBulkUri record = .ok text) (hnone : text.isNone = true) :
    validBulkUri record = .ok none := by
  rcases encodedBulkUri_eq_ok h with ⟨-, hvalid⟩ | ⟨uri, t, rfl, -, -⟩
  · exact hvalid
  · cases hnone

/-- The previous version is the latest one in the store. -/
theorem fetchPreviousVersion_spec (o : Outside) (recordId : String) (s : Server) :
    Effect.Post (fetchPreviousVersion o recordId) s fun out t =>
      t = s ∧ ∀ previous, out = .ok previous → s.records.find recordId none = previous := by
  rw [Effect.Post, fetchPreviousVersion, fetchRecord_eq]
  cases hfetch : o.fetch with
  | error e =>
    have he : e ≠ .unexpectedResponse 404 := fun he => o.served (he ▸ hfetch)
    simp [he]
  | ok u =>
    cases hfind : s.records.find recordId none with
    | none => simp
    | some record => simp

/-- **The check enforces the rule**, on one record. -/
theorem raiseIfInvalidBulkUriTask_spec (o : Outside) (indexRecord : Nat) (record : Record)
    (s : Server) :
    Effect.Post (raiseIfInvalidBulkUriTask o indexRecord record) s fun out t =>
      t = s ∧ (out = .ok () → KeepsBulkUri s.records record) := by
  refine Effect.post_lift_bind (fun e _ => ⟨rfl, nofun⟩) fun bulkUri hbulkUri => ?_
  cases hown : record.ownId with
  | none =>
    -- a new record must not have a URI
    by_cases hnone : bulkUri.isNone = true
    · simp only [hnone, if_true]
      refine Effect.post_pure ⟨rfl, fun _ => ?_⟩
      rw [KeepsBulkUri, RecordStore.previousBulkUri_of_new hown,
        validBulkUri_of_isNone hbulkUri hnone]
      exact ⟨rfl, rfl⟩
    · simp only [hnone]
      exact Effect.post_raise ⟨rfl, nofun⟩
  | some recordId =>
    refine Effect.post_bind (fetchPreviousVersion_spec o recordId s) ?_ ?_
    · rintro e t ⟨rfl, -⟩
      exact ⟨rfl, nofun⟩
    · rintro previous t ⟨rfl, hfind⟩
      have hfind := hfind previous rfl
      cases previous with
      | none =>
        -- nor must one whose id the storage does not know yet
        by_cases hnone : bulkUri.isNone = true
        · simp only [hnone, if_true]
          refine Effect.post_pure ⟨rfl, fun _ => ?_⟩
          rw [KeepsBulkUri, RecordStore.previousBulkUri_of_ownId hown,
            RecordStore.latestBulkUri_of_not_found hfind, validBulkUri_of_isNone hbulkUri hnone]
          exact ⟨rfl, rfl⟩
        · simp only [hnone]
          exact Effect.post_raise ⟨rfl, nofun⟩
      | some previousVersion =>
        -- any other record must have the URI of its latest version
        refine Effect.post_lift_bind (fun e _ => ⟨rfl, nofun⟩) fun previousBulkUri hprevious => ?_
        split
        · exact Effect.post_raise ⟨rfl, nofun⟩
        · split
          · exact Effect.post_raise ⟨rfl, nofun⟩
          · rename_i hsame
            refine Effect.post_pure ⟨rfl, fun _ => ?_⟩
            have hequal : bulkUri = previousBulkUri := not_not.mp hsame
            rw [KeepsBulkUri, RecordStore.previousBulkUri_of_ownId hown,
              RecordStore.latestBulkUri_of_find hfind]
            exact validBulkUri_congr hbulkUri (hequal ▸ hprevious)

/-- **The check of all records** keeps their URIs. -/
theorem raiseIfInvalidBulkUri_spec (o : Outside) (i : Nat) (records : List Record) (s : Server) :
    Effect.Post (raiseIfInvalidBulkUri o i records) s fun out t =>
      t = s ∧ (out = .ok () → ∀ record ∈ records, KeepsBulkUri s.records record) := by
  induction records generalizing i with
  | nil => exact ⟨rfl, nofun⟩
  | cons record records ih =>
    refine Effect.post_bind (raiseIfInvalidBulkUriTask_spec o i record s) ?_ ?_
    · rintro e t ⟨rfl, -⟩
      exact ⟨rfl, nofun⟩
    · rintro u t ⟨rfl, hkeeps⟩
      refine (ih (i + 1)).mono ?_
      rintro out v ⟨rfl, hall⟩
      refine ⟨rfl, fun hout => ?_⟩
      exact List.forall_mem_cons.mpr ⟨hkeeps rfl, hall hout⟩

/-! ## What a write under the rule leaves -/

/-- A record that keeps its bulk URI is stored with the latest one. -/
theorem KeepsBulkUri.latest {s : RecordStore} {newId : String} {r : Record}
    (h : KeepsBulkUri s r) (hnew : s.latestBulkUri newId = .ok none) :
    validBulkUri r = s.latestBulkUri (r.storedId newId) := by
  rw [h.1, Record.storedId]
  cases hown : r.ownId with
  | some k => exact RecordStore.previousBulkUri_of_ownId hown
  | none =>
    rw [RecordStore.previousBulkUri_of_new hown]
    exact hnew.symm

/-- Its write changes no latest URI. -/
theorem KeepsBulkUri.latest_add {s : RecordStore} {newId : String} {r : Record}
    (h : KeepsBulkUri s r) (hnew : s.latestBulkUri newId = .ok none) (version : Int) (k : String) :
    (s.add newId version r).latestBulkUri k = s.latestBulkUri k := by
  by_cases hk : k = r.storedId newId
  · subst hk
    rw [RecordStore.latestBulkUri_of_find (RecordStore.find_add_self s newId version r)]
    exact h.latest hnew
  · rw [RecordStore.latestBulkUri, RecordStore.latestBulkUri,
      RecordStore.find_add_of_ne s newId version r hk]

theorem KeepsBulkUri.congr {s t : RecordStore} {r : Record} (h : KeepsBulkUri s r)
    (hlatest : ∀ k, t.latestBulkUri k = s.latestBulkUri k) : KeepsBulkUri t r := by
  refine ⟨h.1.trans ?_, h.2⟩
  cases hown : r.ownId with
  | some k =>
    rw [RecordStore.previousBulkUri_of_ownId hown, RecordStore.previousBulkUri_of_ownId hown,
      hlatest]
  | none => rw [RecordStore.previousBulkUri_of_new hown, RecordStore.previousBulkUri_of_new hown]

/-- The records of one request, one after the other. -/
theorem latest_addAll {assign : Nat → Assigned} {records : List Record} {s : RecordStore} {i : Nat}
    (hkeeps : ∀ record ∈ records, KeepsBulkUri s record)
    (hnew : ∀ j < i + records.length, s.latestBulkUri (assign j).newId = .ok none) (k : String) :
    (s.addAll assign i records).latestBulkUri k = s.latestBulkUri k := by
  induction records generalizing s i with
  | nil => rfl
  | cons record records ih =>
    obtain ⟨hrecord, hrest⟩ := List.forall_mem_cons.mp hkeeps
    have hlatest := hrecord.latest_add (hnew i (by simp)) (assign i).version
    have hrest' :
      ∀ r ∈ records, KeepsBulkUri (s.add (assign i).newId (assign i).version record) r :=
      fun r hr => (hrest r hr).congr hlatest
    refine (ih hrest' fun j hj => ?_).trans (hlatest k)
    rw [List.length_cons] at hnew
    exact (hlatest _).trans (hnew j (by omega))

/-- The storage gives `n` new records ids that it does not use. -/
def RecordStore.areNew (s : RecordStore) (assign : Nat → Assigned) (n : Nat) : Bool :=
  (List.range n).all fun i =>
    (assign i).newId ≠ "" && (s.versions (assign i).newId).isEmpty

theorem RecordStore.of_areNew {s : RecordStore} {assign : Nat → Assigned} {n j : Nat}
    (h : s.areNew assign n = true) (hj : j < n) :
    (assign j).newId ≠ "" ∧ s.latestBulkUri (assign j).newId = .ok none := by
  have hall := List.all_eq_true.mp h j (List.mem_range.mpr hj)
  simp only [Bool.and_eq_true, decide_eq_true_eq, List.isEmpty_iff] at hall
  refine ⟨hall.1, latestBulkUri_of_not_found ?_⟩
  rw [find, hall.2]
  split <;> rfl

end WellboreDdms
