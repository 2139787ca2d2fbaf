import WellboreDdms.Bulk.Rule

/-!
# The decision on a record

`raise_if_invalid_bulk_uri` is documented by a table of use cases: four in which the record is
created or updated, and five that are answered with a bad request.

- `Accepted`: the four.
- `UriRead`: what reading the bulk URI of a record yields; a malformed one is a `ValueError`.
- `decision_iff`: the table is followed exactly for the records whose URIs are not malformed.
-/

namespace WellboreDdms

open Python Machine OsduBulkIdAccess

/-- The version that the record is compared with, if it has an id and there is one. -/
def RecordStore.previousVersion (s : RecordStore) (record : Record) : Option Record :=
  record.ownId.bind fun recordId => s.find recordId none

/-- The use cases in which the record is created or updated. -/
inductive Accepted (record : Record) : Option Record → Prop
  | create {previous : Option Record} (hid : record.ownId = none)
    (huri : bulkUriText record = none) : Accepted record previous
  | createWithId (huri : bulkUriText record = none) : Accepted record none
  | update {previous : Record} (huri : bulkUriText record = none)
    (hprevious : bulkUriText previous = none) : Accepted record (some previous)
  | updateMatching {previous : Record} {s t : String} {uri : BulkURI} (hid : record.ownId ≠ none)
    (huri : bulkUriText record = some s) (hprevious : bulkUriText previous = some t)
    (hs : BulkURI.decode (.str s) = .ok uri) (ht : BulkURI.decode (.str t) = .ok uri) :
    Accepted record (some previous)

/-- The record has no URI, or one that can be decoded. -/
def bulkUriReadable (record : Record) : Bool :=
  (bulkUriText record).all fun s => (BulkURI.decode (.str s)).isOk

/-- What the check reads in a record: the text it compares, or an exception. -/
inductive UriRead (record : Record) : Except Raised (Option String) → Prop
  | absent (huri : bulkUriText record = none) : UriRead record (.ok none)
  | decoded {s text : String} {uri : BulkURI} (huri : bulkUriText record = some s)
    (hdecode : BulkURI.decode (.str s) = .ok uri) (hvalid : uri.isValid = true)
    (hencode : uri.encode = .ok text) : UriRead record (.ok (some text))
  | malformed {s message : String} (huri : bulkUriText record = some s)
    (hdecode : BulkURI.decode (.str s) = .error (.valueError message)) :
    UriRead record (.error (.valueError message))

/-- A text that is not empty decodes to a valid URI, or not at all. -/
theorem decode_text_cases {s : String} (hs : s ≠ "") :
    (∃ uri t, BulkURI.decode (.str s) = .ok uri ∧ uri.isValid = true ∧ uri.encode = .ok t) ∨
      ∃ message, BulkURI.decode (.str s) = .error (.valueError message) := by
  have htruthy : (Value.str s).truthy = true := decide_eq_true hs
  cases hdecode : BulkURI.decode (.str s) with
  | ok uri =>
    left
    rcases BulkURI.exists_of_decode hdecode with ⟨hfalsy, -⟩ | ⟨u, version, hv, rfl⟩
    · rw [htruthy] at hfalsy
      cases hfalsy
    · obtain ⟨t, hencode, -⟩ := BulkURI.decode_encode u hv
      exact ⟨_, t, rfl, BulkURI.isValid_ofUuid u hv, hencode⟩
  | error e =>
    obtain ⟨message, rfl⟩ := BulkURI.decode_eq_error hdecode
    exact .inr ⟨message, rfl⟩

/-- **Reading a URI** finds none, decodes it, or raises a `ValueError`. -/
theorem uriRead_encodedBulkUri {record : Record} (h : Shaped record) :
    UriRead record (encodedBulkUri record) := by
  have hget := getBulkUri_of_shaped h
  unfold encodedBulkUri
  cases huri : bulkUriText record with
  | none =>
    rw [huri] at hget
    rw [hget]
    exact .absent huri
  | some s =>
    rw [huri] at hget
    dsimp only at hget
    rw [hget]
    rcases decode_text_cases (bulkUriText_ne_empty huri) with
      ⟨uri, t, hdecode, hvalid, hencode⟩ | ⟨message, hdecode⟩
    · rw [hdecode]
      show UriRead record (if uri.isValid = true then _ else _)
      rw [if_pos hvalid, hencode]
      exact .decoded huri hdecode hvalid hencode
    · rw [hdecode]
      exact .malformed huri hdecode

section

variable {record previous : Record} {x y : Option String}

theorem UriRead.readable (h : UriRead record (.ok x)) : bulkUriReadable record = true := by
  cases h with
  | absent huri => rw [bulkUriReadable, huri]; rfl
  | decoded huri hdecode _ _ => rw [bulkUriReadable, huri, Option.all_some, hdecode]; rfl

theorem UriRead.isNone_iff (h : UriRead record (.ok x)) : bulkUriText record = none ↔ x = none := by
  cases h with
  | absent huri => exact iff_of_true huri rfl
  | decoded huri _ _ _ =>
    rw [huri]
    exact iff_of_false nofun nofun

theorem UriRead.not_readable {e : Raised} (h : UriRead record (.error e)) :
    bulkUriReadable record = false := by
  cases h with
  | malformed huri hdecode => rw [bulkUriReadable, huri, Option.all_some, hdecode]; rfl

/-- What the check compares is the text of the same URI. -/
theorem UriRead.eq_iff (h : UriRead record (.ok x)) (h' : UriRead previous (.ok y)) :
    x = y ↔ (bulkUriText record = none ∧ bulkUriText previous = none) ∨
      ∃ s t uri, bulkUriText record = some s ∧ bulkUriText previous = some t ∧
        BulkURI.decode (.str s) = .ok uri ∧ BulkURI.decode (.str t) = .ok uri := by
  cases h with
  | absent huri =>
    rw [eq_comm, ← h'.isNone_iff, huri]
    constructor
    · exact fun hnone => .inl ⟨rfl, hnone⟩
    · rintro (⟨-, hnone⟩ | ⟨s, t, uri, hs, -⟩)
      · exact hnone
      · cases hs
  | decoded huri hdecode hvalid hencode =>
    cases h' with
    | absent huri' =>
      rw [huri, huri']
      refine iff_of_false nofun ?_
      rintro (⟨hs, -⟩ | ⟨s, t, uri, -, ht, -⟩)
      · cases hs
      · cases ht
    -- equal URIs have equal texts, and the decoded one is read from each of them
    | decoded huri' hdecode' hvalid' hencode' =>
      rw [huri, huri', Option.some.injEq]
      constructor
      · rintro rfl
        have hsame := BulkURI.encode_inj hdecode hdecode' hvalid hvalid'
          (hencode.trans hencode'.symm)
        exact .inr ⟨_, _, _, rfl, rfl, hdecode, hsame ▸ hdecode'⟩
      · rintro (⟨⟨⟩, -⟩ | ⟨s, t, uri, ⟨⟩, ⟨⟩, hs, ht⟩)
        obtain rfl := Except.ok.inj (hdecode.symm.trans hs)
        obtain rfl := Except.ok.inj (hdecode'.symm.trans ht)
        exact Except.ok.inj (hencode.symm.trans hencode')

theorem accepted_new_iff (hid : record.ownId = none) (h : UriRead record (.ok x))
    (previous : Option Record) : Accepted record previous ↔ x = none := by
  rw [← h.isNone_iff]
  constructor
  · intro haccepted
    cases haccepted with
    | create _ huri => exact huri
    | createWithId huri => exact huri
    | update huri _ => exact huri
    | updateMatching hid' => exact absurd hid hid'
  · exact .create hid

theorem accepted_first_iff (h : UriRead record (.ok x)) : Accepted record none ↔ x = none := by
  rw [← h.isNone_iff]
  constructor
  · intro haccepted
    cases haccepted with
    | create _ huri => exact huri
    | createWithId huri => exact huri
  · exact .createWithId

/-- A later version is accepted with the URI of the one before it. -/
theorem accepted_update_iff (hid : record.ownId ≠ none) (h : UriRead record (.ok x))
    (h' : UriRead previous (.ok y)) : Accepted record (some previous) ↔ x = y := by
  rw [h.eq_iff h']
  constructor
  · intro haccepted
    cases haccepted with
    | create hid' _ => exact absurd hid' hid
    | update huri hprevious => exact .inl ⟨huri, hprevious⟩
    | updateMatching _ huri hprevious hs ht => exact .inr ⟨_, _, _, huri, hprevious, hs, ht⟩
  · rintro (⟨huri, hprevious⟩ | ⟨s, t, uri, huri, hprevious, hs, ht⟩)
    · exact .update huri hprevious
    · exact .updateMatching hid huri hprevious hs ht

/-! ## The decision -/

/-- The check returns in the four cases, and answers the others with a bad request. -/
def Decides (record : Record) (previous : Option Record) (out : Except Raised Unit) : Prop :=
  (out = .ok () ↔ Accepted record previous) ∧
    (¬ Accepted record previous → ∃ detail, out = .error (.httpException 400 detail))

theorem decides_ok {previous : Option Record} (h : Accepted record previous) :
    Decides record previous (.ok ()) :=
  ⟨iff_of_true rfl h, fun hnot => absurd h hnot⟩

/-- Any other record is answered with a 400. -/
theorem decides_bad {previous : Option Record} (h : ¬ Accepted record previous) (i : Nat)
    (reason : String) : Decides record previous (.error (invalidBulkUri i reason)) :=
  ⟨iff_of_false nofun h, fun _ => ⟨_, rfl⟩⟩

/-- A `ValueError` is none of these answers. -/
theorem not_decides_valueError {previous : Option Record} (h : ¬ Accepted record previous)
    (message : String) : ¬ Decides record previous (.error (.valueError message)) := by
  rintro ⟨-, hbad⟩
  obtain ⟨detail, hdetail⟩ := hbad h
  cases hdetail

theorem decides_without_uri {previous : Option Record} (h : Accepted record previous ↔ x = none)
    (i : Nat) (reason : String) (s : Server) :
    Effect.Post (if x.isNone then pure () else Effect.raise (invalidBulkUri i reason)) s
      fun out _ => Decides record previous out := by
  split
  · rename_i hx
    exact decides_ok (h.mpr (Option.isNone_iff_eq_none.mp hx))
  · rename_i hx
    refine decides_bad (fun haccepted => hx ?_) i reason
    exact Option.isNone_iff_eq_none.mpr (h.mp haccepted)

theorem decides_same_uri (h : Accepted record (some previous) ↔ x = y) (i : Nat) (s : Server) :
    Effect.Post (if y.isNone ∧ x.isSome then
        Effect.raise (invalidBulkUri i
          "no Bulk URI can be specified, given record_id has no bulkURI in its previous version")
      else if x ≠ y then
        Effect.raise (invalidBulkUri i "Bulk URI isn't matching with the previous version one")
      else pure ()) s
      fun out _ => Decides record (some previous) out := by
  split
  · rename_i hnone
    refine decides_bad (fun haccepted => ?_) i _
    obtain ⟨hy, hx⟩ := hnone
    rw [h.mp haccepted, Option.isSome_iff_ne_none] at hx
    exact hx (Option.isNone_iff_eq_none.mp hy)
  · split
    · rename_i hne
      exact decides_bad (fun haccepted => hne (h.mp haccepted)) i _
    · rename_i hsame
      exact decides_ok (h.mpr (not_not.mp hsame))

theorem not_accepted_of_malformed {previous : Option Record} {e : Raised}
    (h : UriRead record (.error e)) : ¬ Accepted record previous := by
  cases h with
  | malformed huri hdecode =>
    intro haccepted
    cases haccepted with
    | create _ huri' => cases huri.symm.trans huri'
    | createWithId huri' => cases huri.symm.trans huri'
    | update huri' _ => cases huri.symm.trans huri'
    | updateMatching _ huri' _ hs _ =>
      cases huri.symm.trans huri'
      cases hdecode.symm.trans hs

/-- No record is accepted after one with a malformed URI. -/
theorem not_accepted_of_previous_malformed {e : Raised} (hid : record.ownId ≠ none)
    (h : UriRead previous (.error e)) : ¬ Accepted record (some previous) := by
  cases h with
  | malformed huri hdecode =>
    intro haccepted
    cases haccepted with
    | create hid' _ => exact hid hid'
    | update _ huri' => cases huri.symm.trans huri'
    | updateMatching _ _ huri' _ ht =>
      cases huri.symm.trans huri'
      cases hdecode.symm.trans ht

end

/-- The previous version is the latest one in the store. -/
theorem fetchPreviousVersion_eq {o : Outside} (hfetch : o.fetch = .ok ()) (recordId : String)
    (s : Server) :
    fetchPreviousVersion o recordId s = (.ok (s.records.find recordId none), s) := by
  rw [fetchPreviousVersion, fetchRecord_eq, hfetch]
  cases s.records.find recordId none with
  | none => rfl
  | some record => rfl

/-- **The table is followed** exactly if neither the URI of the record nor that of its previous
version is malformed. -/
theorem decision_iff {o : Outside} (hfetch : o.fetch = .ok ()) (i : Nat) {record : Record}
    {s : Server} (hrecord : Shaped record)
    (hprevious : ∀ previous, s.records.previousVersion record = some previous → Shaped previous) :
    Decides record (s.records.previousVersion record) (raiseIfInvalidBulkUriTask o i record s).1 ↔
      bulkUriReadable record = true ∧
        ∀ previous, s.records.previousVersion record = some previous →
          bulkUriReadable previous = true := by
  show Effect.Post (raiseIfInvalidBulkUriTask o i record) s fun out _ =>
    (Decides record (s.records.previousVersion record) out ↔ _)
  have hread := uriRead_encodedBulkUri hrecord
  refine Effect.post_lift_bind (fun e he => ?_) fun x hx => ?_
  · -- the URI of the record is malformed
    rw [he] at hread
    have hnot : ¬ Accepted record (s.records.previousVersion record) :=
      not_accepted_of_malformed hread
    refine iff_of_false ?_ fun h => ?_
    · cases hread with
      | malformed _ _ => exact not_decides_valueError hnot _
    · rw [hread.not_readable] at h
      cases h.1
  · rw [hx] at hread
    cases hid : record.ownId with
    | none =>
      -- without an id there is no previous version
      have hnone : s.records.previousVersion record = none := by
        rw [RecordStore.previousVersion, hid]
        rfl
      rw [hnone]
      refine iff_of_true ?_ ⟨hread.readable, nofun⟩
      exact decides_without_uri (accepted_new_iff hid hread none) i _ s
    | some recordId =>
      have hfind : s.records.previousVersion record = s.records.find recordId none := by
        rw [RecordStore.previousVersion, hid]
        rfl
      rw [hfind] at hprevious ⊢
      have hid : record.ownId ≠ none := by rw [hid]; exact nofun
      have hprevious_eq := fetchPreviousVersion_eq hfetch recordId s
      refine Effect.post_bind (P := fun out t => out = .ok (s.records.find recordId none))
        (congrArg Prod.fst hprevious_eq) nofun ?_
      rintro previous? t hprevious?
      cases hprevious?
      cases hversion : s.records.find recordId none with
      | none =>
        refine iff_of_true ?_ ⟨hread.readable, nofun⟩
        exact decides_without_uri (accepted_first_iff hread) i _ t
      | some previous =>
        have hread' := uriRead_encodedBulkUri (hprevious previous hversion)
        refine Effect.post_lift_bind (fun e he => ?_) fun y hy => ?_
        · -- the URI of the previous version is malformed
          rw [he] at hread'
          have hnot := not_accepted_of_previous_malformed hid hread'
          refine iff_of_false ?_ fun h => ?_
          · cases hread' with
            | malformed _ _ => exact not_decides_valueError hnot _
          · have hreadable := h.2 previous rfl
            rw [hread'.not_readable] at hreadable
            cases hreadable
        · rw [hy] at hread'
          refine iff_of_true (decides_same_uri (accepted_update_iff hid hread hread') i t) ?_
          refine ⟨hread.readable, ?_⟩
          rintro previous' ⟨⟩
          exact hread'.readable

/-! ## A matching and a malformed URI -/

/-- The storage answers. -/
def storageAnswers : Outside where
  fetch := .ok ()
  body := .ok ()
  worker := .error (.other "ConnectError")
  write := .error (.unexpectedResponse 500)
  served := Outside.served_ok

/-- A well log with a bulk URI. -/
def logWithUri (id : Option String) (uri : String) : Record where
  id := id
  kind := "osdu:wks:work-product-component--WellLog:1.3.0"
  data := [("ExtensionProperties", .dict [("wdms", .dict [("bulkURI", .str uri)])])]

theorem shaped_logWithUri (id : Option String) (uri : String) : Shaped (logWithUri id uri) where
  extensionProperties := by
    rintro w ⟨⟩
    exact ⟨_, rfl⟩
  wdms := by
    rintro w ⟨⟩
    exact ⟨_, rfl⟩
  bulkUri := by
    intro w hw
    obtain ⟨hget, -⟩ := truthyValue_eq_some hw
    cases hget
    exact ⟨_, rfl⟩

theorem shaped_stored {record : Record} (h : Shaped record) (newId : String) (version : Int) :
    Shaped (record.stored newId version) :=
  ⟨h.extensionProperties, h.wdms, h.bulkUri⟩

/-- The storage has the URI in another spelling. -/
def storedLog : Record :=
  logWithUri (some "opendes:log:1") "urn:wdms-1:uuid:31FBDA07-c414-4466-96d4-73a2236bba81"

/-- A server with one well log. -/
def logServer : Server where
  records := RecordStore.empty.add "" 1 storedLog

/-- The well log as it is sent back. -/
def matchingLog : Record :=
  logWithUri (some "opendes:log:1") "urn:wdms-1:uuid:31fbda07-c414-4466-96d4-73a2236bba81"

/-- It is accepted. -/
theorem matching_log_decided :
    Decides matchingLog (logServer.records.previousVersion matchingLog)
      (raiseIfInvalidBulkUriTask storageAnswers 0 matchingLog logServer).1 := by
  have hversion : logServer.records.previousVersion matchingLog = some (storedLog.stored "" 1) :=
    RecordStore.find_add_self RecordStore.empty "" 1 storedLog
  have hshaped : Shaped (storedLog.stored "" 1) := shaped_stored (shaped_logWithUri _ _) "" 1
  have hreadable : bulkUriReadable matchingLog = true ∧
      bulkUriReadable (storedLog.stored "" 1) = true := ⟨by decide, by decide⟩
  have hmatching : Shaped matchingLog := shaped_logWithUri _ _
  refine (decision_iff rfl 0 hmatching ?_).mpr ⟨hreadable.1, ?_⟩
  · rw [hversion]
    intro previous hprevious
    rw [← Option.some.inj hprevious]
    exact hshaped
  · rw [hversion]
    intro previous hprevious
    rw [← Option.some.inj hprevious]
    exact hreadable.2

/-- **A malformed URI** of a new record is no bad request, but a `ValueError`. -/
theorem malformed_uri_not_decided :
    ¬ Decides (logWithUri none "urn:wdms-uib1223ca00") none
      (raiseIfInvalidBulkUriTask storageAnswers 0 (logWithUri none "urn:wdms-uib1223ca00")
        logServer).1 := by
  have hread : UriRead (logWithUri none "urn:wdms-uib1223ca00")
      (.error (.valueError "badly formed hexadecimal UUID string")) :=
    .malformed rfl (by decide)
  exact not_decides_valueError (not_accepted_of_malformed hread) _

end WellboreDdms
