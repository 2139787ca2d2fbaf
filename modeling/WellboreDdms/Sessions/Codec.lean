import WellboreDdms.Python.Pydantic
import WellboreDdms.Sessions.Storage

/-!
# The session codec

The session blob holds JSON text. Every state update decodes it, dumps the model
to a dictionary, sets the state there, validates the dictionary into a new model
and encodes that.

- `Session.dumpWith`, `Session.validate`: the model as a dictionary and back, with
  the coercion of `meta` (`SessionMeta.coerce_meta_values_to_str`).
- `SessionInternal.encode`, `SessionInternal.decode`: the blob text and back.
- `validate_dump`, `decode_encode`: both round trips lose nothing.
-/

namespace WellboreDdms

open Python

variable {τ : Type}

/-- `SessionInternal`: the stored session, with the etag it was read or written with. -/
structure SessionInternal extends StoredSession where
  etag : Option String

/-- The `meta` field of a dump. -/
def dumpMeta : Option (Dict String String) → Value
  | none => .none
  | some items => .dict (items.map fun p => (p.1, .str p.2))

/-- The `meta` field: absent, `None`, or a dictionary whose values are coerced by
`str`. -/
def validateMeta (py : Pydantic τ) : Option Value → Option (Option (Dict String String))
  | none => some none
  | some .none => some none
  | some (.dict items) => some (some (items.map fun p => (p.1, py.str p.2)))
  | some _ => none

/-- The `etag` field: absent, `None` or a string. -/
def validateEtag (py : Pydantic τ) : Option Value → Option (Option String)
  | none => some none
  | some v => Pydantic.optional py.string v

namespace Session

/-- The dictionary of the fields, the inherited `meta` first; UUIDs and instants are
kept in Python mode and printed in JSON mode. -/
def dumpWith (uuid : UUID → Value) (datetime : DateTime → Value) (s : Session) : Value :=
  .dict
    [("meta", dumpMeta s.sessionMeta),
      ("id", uuid s.id),
      ("recordId", .str s.recordId),
      ("fromVersion", .int s.fromVersion),
      ("mode", .str s.mode.value),
      ("expiry", datetime s.expiry),
      ("createdTime", datetime s.createdTime),
      ("updatedTime", datetime s.updatedTime),
      ("state", .str s.state.value)]

/-- `Session.model_validate` of a dictionary; `none` is the exception. -/
def validate (py : Pydantic τ) : Value → Option Session
  | .dict items => do
    let sessionMeta ← validateMeta py (Dict.get items "meta")
    let id ← (Dict.get items "id").bind py.uuid
    let recordId ← (Dict.get items "recordId").bind py.string
    let fromVersion ← (Dict.get items "fromVersion").bind py.integer
    let mode ← (Dict.get items "mode").bind (Pydantic.enum SessionUpdateMode.ofValue)
    let expiry ← (Dict.get items "expiry").bind py.datetime
    let createdTime ← (Dict.get items "createdTime").bind py.datetime
    let updatedTime ← (Dict.get items "updatedTime").bind py.datetime
    let state ← (Dict.get items "state").bind (Pydantic.enum SessionState.ofValue)
    return { id, recordId, fromVersion, mode, expiry, createdTime, updatedTime, state, sessionMeta }
  | _ => none

end Session

namespace SessionInternal

/-- `model_dump()`. -/
def dump (s : SessionInternal) : Value :=
  .dict
    [("session", s.session.dumpWith .uuid .datetime),
      ("etag", match s.etag with | none => .none | some e => .str e),
      ("internal", s.internal)]

/-- `SessionInternal(**d)`, or the validation of decoded JSON. -/
def validate (py : Pydantic τ) : Value → Option SessionInternal
  | .dict items => do
    let session ← (Dict.get items "session").bind (Session.validate py)
    let etag ← validateEtag py (Dict.get items "etag")
    return { session, etag, internal := (Dict.get items "internal").getD .none }
  | _ => none

/-- `model_dump_json(exclude={'etag'})`, as a value. -/
def dumpJson (py : Pydantic τ) (s : StoredSession) : Value :=
  .dict
    [("session", s.session.dumpWith (fun u => .str u.text) (fun t => .str (py.isoformat t))),
      ("internal", s.internal)]

/-- The text of the blob. -/
def encode (py : Pydantic τ) (s : StoredSession) : τ := py.dumps (dumpJson py s)

/-- `SessionInternal.model_validate_json`. -/
def decode (py : Pydantic τ) (text : τ) : Option SessionInternal :=
  (py.loads text).bind (validate py)

end SessionInternal

/-! ## Round trips -/

theorem validateMeta_dumpMeta (py : Pydantic τ) (m : Option (Dict String String)) :
    validateMeta py (some (dumpMeta m)) = some m := by
  cases m with
  | none => rfl
  | some items =>
    have hitems : items.map (fun p => (p.1, py.str (.str p.2))) = items := List.map_id items
    simp only [dumpMeta, validateMeta, List.map_map]
    exact congrArg (fun d => some (some d)) hitems

/-- Whatever form UUIDs and instants are dumped in, the validators read them back. -/
theorem Session.validate_dumpWith (py : Pydantic τ) {uuid : UUID → Value}
    {datetime : DateTime → Value} (hu : ∀ u, py.uuid (uuid u) = some u)
    (ht : ∀ t, py.datetime (datetime t) = some t) (s : Session) :
    Session.validate py (s.dumpWith uuid datetime) = some s := by
  simp [Session.validate, dumpWith, Dict.get, hu, ht, validateMeta_dumpMeta, Pydantic.enum]

theorem SessionInternal.validate_dump (py : Pydantic τ) (s : SessionInternal) :
    validate py s.dump = some s := by
  have hsession := s.session.validate_dumpWith py py.uuid_uuid py.datetime_datetime
  obtain ⟨⟨session, internal⟩, etag⟩ := s
  cases etag <;>
    simp [validate, dump, Dict.get, hsession, validateEtag, Pydantic.optional]

/-- What a stored session must be to survive in JSON: `meta` has no key twice, and
`internal` is JSON. -/
structure StoredSession.Storable (s : StoredSession) : Prop where
  keys : ∀ m ∈ s.session.sessionMeta, (m.map Prod.fst).Nodup
  internal : s.internal.IsJson

/-- A meta of distinct keys is a JSON object. -/
theorem isJson_dumpMeta {m : Option (Dict String String)}
    (h : ∀ items ∈ m, (items.map Prod.fst).Nodup) : (dumpMeta m).IsJson := by
  cases m with
  | none => exact .none
  | some items =>
    refine .dict ?_ ?_
    · rw [List.map_map]
      exact h items rfl
    · intro p hp
      obtain ⟨q, -, rfl⟩ := List.mem_map.mp hp
      exact .str _

theorem isJson_dumpJson (py : Pydantic τ) {s : StoredSession} (h : s.Storable) :
    (SessionInternal.dumpJson py s).IsJson := by
  have hmeta := isJson_dumpMeta h.keys
  have hsession : (s.session.dumpWith (fun u => .str u.text)
      (fun t => .str (py.isoformat t))).IsJson := by
    refine .dict (by simp) ?_
    intro p hp
    simp only [List.mem_cons, List.not_mem_nil, or_false] at hp
    rcases hp with rfl | rfl | rfl | rfl | rfl | rfl | rfl | rfl | rfl
    · exact hmeta
    · exact .str _
    · exact .str _
    · exact .int _
    all_goals exact .str _
  refine .dict (by simp) ?_
  intro p hp
  simp only [List.mem_cons, List.not_mem_nil, or_false] at hp
  rcases hp with rfl | rfl
  · exact hsession
  · exact h.internal

/-- **The blob text is read back**, without an etag. -/
theorem SessionInternal.decode_encode (py : Pydantic τ) {s : StoredSession} (h : s.Storable) :
    decode py (encode py s) = some { s with etag := none } := by
  have hsession := s.session.validate_dumpWith py py.uuid_text py.datetime_isoformat
  rw [decode, encode, py.loads_dumps (isJson_dumpJson py h)]
  simp [validate, dumpJson, Dict.get, hsession, validateEtag]

/-- Keys that were read from JSON are distinct. -/
theorem nodup_of_validateMeta {py : Pydantic τ} {v : Option Value}
    {m : Option (Dict String String)} (hv : ∀ w ∈ v, w.IsJson) (h : validateMeta py v = some m) :
    ∀ items ∈ m, (items.map Prod.fst).Nodup := by
  intro items hitems
  match v with
  | none =>
    cases h
    cases hitems
  | some .none =>
    cases h
    cases hitems
  | some (.dict d) =>
    cases h
    cases hitems
    have hd := (hv _ rfl).nodup
    rwa [List.map_map]

/-- The meta of a session that was read has distinct keys. -/
theorem Session.nodup_of_validate {py : Pydantic τ} {v : Value} {s : Session} (hv : v.IsJson)
    (h : Session.validate py v = some s) : ∀ m ∈ s.sessionMeta, (m.map Prod.fst).Nodup := by
  cases v with
  | dict items =>
    obtain ⟨sessionMeta, hmeta, h⟩ := Option.bind_eq_some_iff.mp h
    simp only [bind, Option.bind_eq_some_iff, pure, Option.some.injEq] at h
    obtain ⟨_, -, _, -, _, -, _, -, _, -, _, -, _, -, _, -, rfl⟩ := h
    exact nodup_of_validateMeta (fun w hw => hv.get hw) hmeta
  | _ => cases h

/-- Whatever is decoded can be stored again. -/
theorem SessionInternal.storable_of_decode {py : Pydantic τ} {text : τ} {s : SessionInternal}
    (h : decode py text = some s) : s.toStoredSession.Storable := by
  obtain ⟨v, hv, h⟩ := Option.bind_eq_some_iff.mp h
  have hjson := py.isJson_of_loads hv
  cases v with
  | dict items =>
    simp only [validate, bind, Option.bind_eq_some_iff, pure, Option.some.injEq] at h
    obtain ⟨session, hsession, etag, -, rfl⟩ := h
    refine { keys := ?_, internal := ?_ }
    · obtain ⟨d, hd, hsession⟩ := hsession
      exact Session.nodup_of_validate (hjson.get hd) hsession
    · show ((Dict.get items "internal").getD .none).IsJson
      cases hi : Dict.get items "internal" with
      | none => exact .none
      | some v => exact hjson.get hi
  | _ => cases h

end WellboreDdms
