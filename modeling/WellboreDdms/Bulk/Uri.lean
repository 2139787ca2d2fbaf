import WellboreDdms.Records.Record

/-!
# Bulk URIs

`BulkURI` names a bulk: its identifier and the storage engine that wrote it. A
record holds the URI as text.

- `BulkURI`: only the constructor of the source can build one (`make`), so the
  identifier of a valid one is accepted by `uuid.UUID`.
- `decode`, `encode`: from and to the text.
- `decode_encode`: what `encode` prints of a URI with a canonical identifier,
  `decode` reads; so equal texts are equal URIs (`encode_inj`).
- `roundTrips_iff`: which other spellings of an identifier come back.
-/

namespace WellboreDdms

open Python

/-- The storages of bulk data. -/
inductive BulkStorageVersion where
  | v0
  | v1
  | invalid
  deriving DecidableEq, Repr

namespace BulkStorageVersion

/-- Their versions. -/
def version : BulkStorageVersion → String
  | .v0 => "0"
  | .v1 => "1"
  | .invalid => ""

/-- The part of the URI that marks the storage. -/
def uriPrefix : BulkStorageVersion → Option String
  | .v1 => some "wdms-1"
  | .v0 | .invalid => none

end BulkStorageVersion

/-- What `BulkURI.__init__` can build. -/
@[ext] structure BulkURI where
  bulkId : String
  storageVersion : BulkStorageVersion
  wellFormed : storageVersion = .invalid ∧ bulkId = "" ∨
    storageVersion ≠ .invalid ∧ (UUID.parse bulkId).isSome = true
  deriving DecidableEq

/-- The `ValueError` of `uuid.UUID`. -/
def badUuid : Raised := .valueError "badly formed hexadecimal UUID string"

namespace BulkURI

/-- A URI of no storage. -/
def invalid : BulkURI := ⟨"", .invalid, Or.inl ⟨rfl, rfl⟩⟩

/-- `BulkURI(bulk_id, version)`. -/
def make (bulkId : Value) (version : BulkStorageVersion) : Except Raised BulkURI :=
  if bulkId.truthy = false then .ok invalid
  else if hv : version = .invalid then .ok invalid
  else
    match bulkId with
    | .str s =>
      if hs : (UUID.parse s).isSome = true then .ok ⟨s, version, Or.inr ⟨hv, hs⟩⟩
      else .error badUuid
    | _ => .error .typeError

/-- A URI of the old storage. -/
def fromBulkStorageV0 (bulkId : Value) : Except Raised BulkURI := make bulkId .v0

/-- A URI of the storage in use. -/
def fromBulkStorageV1 (bulkId : Value) : Except Raised BulkURI := make bulkId .v1

/-- What `_decode_uri` parses as the identifier, and the storage it is marked with,
if any. -/
def uriParts (uri : String) : String × Option String :=
  let parts := split uri
  let n := parts.length
  if n < 4 then (uri, none)
  else (parts.headD "" ++ ":" ++ parts.getD (n - 2) "" ++ ":" ++ parts.getD (n - 1) "",
    some (join ((parts.take (n - 2)).drop 1)))

/-- `_decode_uri`. -/
def decodeUri (uri : String) : Except Raised (String × Option String) :=
  match UUID.parse (uriParts uri).1 with
  | some u => .ok (u.text, (uriParts uri).2)
  | none => .error badUuid

/-- `decode`, of whatever value the record holds. -/
def decode (uri : Value) : Except Raised BulkURI :=
  if uri.truthy = false then .ok invalid
  else
    match uri with
    | .str s => do
      let (bulkId, marker) ← decodeUri s
      match marker with
      | none => make (.str bulkId) .v0
      | some p =>
        if p = "" then make (.str bulkId) .v0
        else if some p = BulkStorageVersion.v1.uriPrefix then make (.str bulkId) .v1
        else throw (.valueError ("Unsupported prefix in bulk URI: " ++ p))
    | _ => .error .typeError

/-- The text of a URI. -/
def encode (b : BulkURI) : Except Raised String :=
  match b.storageVersion.uriPrefix with
  | some p => .ok ("urn:" ++ p ++ ":uuid:" ++ b.bulkId)
  | none =>
    match UUID.parse b.bulkId with
    | some u => .ok ("urn:uuid:" ++ u.text)
    | none => .error badUuid

/-- The text among a record's datasets. -/
def encodeForDdmsDatasets (b : BulkURI) : String :=
  match b.storageVersion.uriPrefix with
  | some p => "urn://" ++ p ++ "/uuid:" ++ b.bulkId
  | none => "urn://uuid:" ++ b.bulkId

/-- A URI with an id and a version is valid. -/
def isValid (b : BulkURI) : Bool := b.bulkId ≠ "" ∧ b.storageVersion.version ≠ ""

/-! ## Canonical identifiers -/

/-- The URI of a canonical identifier. -/
def ofUuid (u : UUID) (version : BulkStorageVersion) (h : version ≠ .invalid) : BulkURI :=
  ⟨u.text, version, Or.inr ⟨h, by rw [UUID.parse_text]; rfl⟩⟩

theorem text_ne_empty (u : UUID) : u.text ≠ "" := by
  intro h
  have hchars := congrArg String.toList h
  rw [UUID.toList_text] at hchars
  exact u.chars_ne_nil hchars

theorem make_text (u : UUID) {version : BulkStorageVersion} (h : version ≠ .invalid) :
    make (.str u.text) version = .ok (ofUuid u version h) := by
  simp [make, Value.truthy, text_ne_empty, h, ofUuid]

theorem isValid_ofUuid (u : UUID) {version : BulkStorageVersion} (h : version ≠ .invalid) :
    (ofUuid u version h).isValid = true := by
  have hversion : version.version ≠ "" := by
    cases version with
    | v0 => decide
    | v1 => decide
    | invalid => exact absurd rfl h
  simp [isValid, ofUuid, text_ne_empty, hversion]

theorem not_isValid_invalid : invalid.isValid = false := rfl

/-! ## Round trip -/

theorem split_urn (s : String) : split ("urn:uuid:" ++ s) = "urn" :: "uuid" :: split s := by
  have hurn : "urn:uuid:".toList = "urn".toList ++ ':' :: ("uuid".toList ++ [':']) := by decide
  have htext : ("urn:uuid:" ++ s).toList =
      "urn".toList ++ ':' :: ("uuid".toList ++ ':' :: s.toList) := by
    rw [String.toList_append, hurn]
    simp only [List.append_assoc, List.cons_append, List.nil_append]
  rw [split_of_colon htext (by decide), split_of_colon String.toList_ofList (by decide),
    String.ofList_toList, String.ofList_toList, String.ofList_toList]

theorem split_urn_v1 (s : String) :
    split ("urn:wdms-1:uuid:" ++ s) = "urn" :: "wdms-1" :: "uuid" :: split s := by
  have hurn : "urn:wdms-1:uuid:".toList =
      "urn".toList ++ ':' :: ("wdms-1".toList ++ ':' :: ("uuid".toList ++ [':'])) := by decide
  have htext : ("urn:wdms-1:uuid:" ++ s).toList =
      "urn".toList ++ ':' :: ("wdms-1".toList ++ ':' :: ("uuid".toList ++ ':' :: s.toList)) := by
    rw [String.toList_append, hurn]
    simp only [List.append_assoc, List.cons_append, List.nil_append]
  rw [split_of_colon htext (by decide), split_of_colon String.toList_ofList (by decide),
    split_of_colon String.toList_ofList (by decide), String.ofList_toList, String.ofList_toList,
    String.ofList_toList, String.ofList_toList]

theorem split_text (u : UUID) : split u.text = [u.text] := split_of_not_mem u.colon_not_mem_chars

theorem decodeUri_urn (u : UUID) : decodeUri ("urn:uuid:" ++ u.text) = .ok (u.text, none) := by
  have hparts : uriParts ("urn:uuid:" ++ u.text) = ("urn:uuid:" ++ u.text, none) := by
    simp only [uriParts, split_urn, split_text]
    rfl
  rw [decodeUri, hparts, UUID.parse_urn]

/-- The text of a V1 URI whose identifier has no colon. -/
theorem decodeUri_urn_v1 {s : String} (h : ':' ∉ s.toList) {u : UUID} (hs : UUID.parse s = some u) :
    decodeUri ("urn:wdms-1:uuid:" ++ s) = .ok (u.text, some "wdms-1") := by
  have hmarker : join ["wdms-1"] = "wdms-1" := by decide
  have hsplit : split s = [s] := by
    have hs := split_of_not_mem h
    rwa [String.ofList_toList] at hs
  have hparts : uriParts ("urn:wdms-1:uuid:" ++ s) = ("urn:uuid:" ++ s, some "wdms-1") := by
    simp only [uriParts, split_urn_v1, hsplit]
    simp [hmarker]
  rw [decodeUri, hparts, UUID.parse_urn_of_not_mem h, hs]

/-- **`decode` reads what `encode` prints**, for canonical identifiers. -/
theorem decode_encode (u : UUID) {version : BulkStorageVersion} (h : version ≠ .invalid) :
    ∃ t, encode (ofUuid u version h) = .ok t ∧ decode (.str t) = .ok (ofUuid u version h) := by
  cases version with
  | invalid => exact absurd rfl h
  | v0 =>
    refine ⟨"urn:uuid:" ++ u.text, ?_, ?_⟩
    · simp [encode, ofUuid, BulkStorageVersion.uriPrefix]
    · simp [decode, Value.truthy, decodeUri_urn, make_text, bind, Except.bind]
  | v1 =>
    refine ⟨"urn:wdms-1:uuid:" ++ u.text, ?_, ?_⟩
    · have hmark : "urn:" ++ "wdms-1" ++ ":uuid:" ++ u.text = "urn:wdms-1:uuid:" ++ u.text :=
        congrArg (fun s => s ++ u.text) (by decide)
      exact congrArg Except.ok hmark
    · have hcolon : ':' ∉ u.text.toList := by
        rw [UUID.toList_text]
        exact u.colon_not_mem_chars
      simp [decode, Value.truthy, decodeUri_urn_v1 hcolon u.parse_text, make_text, bind,
        Except.bind,
        BulkStorageVersion.uriPrefix]

theorem exists_of_decodeUri {uri t : String} {m : Option String} (h : decodeUri uri = .ok (t, m)) :
    ∃ u : UUID, t = u.text := by
  unfold decodeUri at h
  cases hp : UUID.parse (uriParts uri).1 with
  | none =>
    rw [hp] at h
    cases h
  | some u =>
    rw [hp] at h
    exact ⟨u, (congrArg Prod.fst (Except.ok.inj h)).symm⟩

/-- The identifier of a decoded URI is canonical. -/
theorem exists_of_decode {v : Value} {b : BulkURI} (h : decode v = .ok b) :
    v.truthy = false ∧ b = invalid ∨ ∃ u version hv, b = ofUuid u version hv := by
  have hv0 : BulkStorageVersion.v0 ≠ .invalid := by decide
  have hv1 : BulkStorageVersion.v1 ≠ .invalid := by decide
  unfold decode at h
  split at h
  · rename_i hfalsy
    cases h
    exact Or.inl ⟨hfalsy, rfl⟩
  · split at h
    · rename_i s _
      right
      cases hd : decodeUri s with
      | error e => simp [hd, bind, Except.bind] at h
      | ok p =>
        obtain ⟨t, m⟩ := p
        obtain ⟨u, rfl⟩ := exists_of_decodeUri hd
        simp only [hd, bind, Except.bind, make_text u hv0, make_text u hv1] at h
        split at h
        · exact ⟨u, .v0, hv0, (Except.ok.inj h).symm⟩
        · split at h
          · exact ⟨u, .v0, hv0, (Except.ok.inj h).symm⟩
          · split at h
            · exact ⟨u, .v1, hv1, (Except.ok.inj h).symm⟩
            · cases h
    · cases h

/-- A text that is no URI is a `ValueError`. -/
theorem decode_eq_error {s : String} {e : Raised} (h : decode (.str s) = .error e) :
    ∃ message, e = .valueError message := by
  have hv0 : BulkStorageVersion.v0 ≠ .invalid := by decide
  have hv1 : BulkStorageVersion.v1 ≠ .invalid := by decide
  unfold decode at h
  split at h
  · cases h
  · cases hd : decodeUri s with
    | error e' =>
      simp only [hd, bind, Except.bind] at h
      unfold decodeUri at hd
      split at hd
      · cases hd
      · cases hd
        cases h
        exact ⟨_, rfl⟩
    | ok p =>
      obtain ⟨t, m⟩ := p
      obtain ⟨u, rfl⟩ := exists_of_decodeUri hd
      simp only [hd, bind, Except.bind, make_text u hv0, make_text u hv1] at h
      split at h
      · cases h
      · split at h
        · cases h
        · split at h
          · cases h
          · cases h
            exact ⟨_, rfl⟩

/-- Decoded URIs that print the same are the same. -/
theorem encode_inj {v w : Value} {a b : BulkURI} (ha : decode v = .ok a) (hb : decode w = .ok b)
    (hva : a.isValid = true) (hvb : b.isValid = true) (h : a.encode = b.encode) : a = b := by
  rcases exists_of_decode ha with ⟨-, rfl⟩ | ⟨u, v, hv, rfl⟩
  · rw [not_isValid_invalid] at hva
    cases hva
  rcases exists_of_decode hb with ⟨-, rfl⟩ | ⟨u', v', hv', rfl⟩
  · rw [not_isValid_invalid] at hvb
    cases hvb
  obtain ⟨t, hencode, hdecode⟩ := decode_encode u hv
  obtain ⟨t', hencode', hdecode'⟩ := decode_encode u' hv'
  have ht : t = t' := by
    rw [hencode, hencode'] at h
    exact Except.ok.inj h
  rw [ht, hdecode'] at hdecode
  exact (Except.ok.inj hdecode).symm

/-! ## Every spelling of an identifier -/

/-- `decode(encode(b))` is a URI of the same storage and of the same UUID. -/
def RoundTrips (b : BulkURI) : Prop :=
  ∃ t c u, encode b = .ok t ∧ decode (.str t) = .ok c ∧ c.storageVersion = b.storageVersion ∧
    UUID.parse b.bulkId = some u ∧ UUID.parse c.bulkId = some u

/-- The constructor keeps the spelling it is given, if there is one. -/
theorem make_eq_ok {s : String} {version : BulkStorageVersion} {b : BulkURI}
    (hversion : version ≠ .invalid) (h : make (.str s) version = .ok b) :
    s = "" ∧ b = invalid ∨
      s ≠ "" ∧ b.bulkId = s ∧ b.storageVersion = version ∧ ∃ u, UUID.parse s = some u := by
  by_cases hs : s = ""
  · subst hs
    cases h
    exact Or.inl ⟨rfl, rfl⟩
  have htruthy : ¬ (Value.str s).truthy = false := by simp [Value.truthy, hs]
  rw [make, if_neg htruthy, dif_neg hversion] at h
  by_cases hparse : (UUID.parse s).isSome = true
  · simp only [dif_pos hparse, Except.ok.injEq] at h
    subst h
    exact Or.inr ⟨hs, rfl, rfl, Option.isSome_iff_exists.mp hparse⟩
  · simp only [dif_neg hparse] at h
    cases h

/-- The invalid URI has no text. -/
theorem not_roundTrips_invalid : ¬ RoundTrips invalid := by
  rintro ⟨t, c, u, -, -, -, hparse, -⟩
  have hempty : UUID.parse invalid.bulkId = none := by decide
  rw [hempty] at hparse
  cases hparse

/-- **A URI of the old storage** round-trips. -/
theorem roundTrips_v0 {b : BulkURI} (hversion : b.storageVersion = .v0) {u : UUID}
    (hparse : UUID.parse b.bulkId = some u) : RoundTrips b := by
  have hv0 : BulkStorageVersion.v0 ≠ .invalid := by decide
  obtain ⟨t, hencode, hdecode⟩ := decode_encode u hv0
  refine ⟨t, _, u, ?_, hdecode, hversion.symm, hparse, UUID.parse_text u⟩
  rw [← hencode, encode, encode, hversion]
  simp [ofUuid, BulkStorageVersion.uriPrefix, hparse]

/-- What a V1 URI is printed as. -/
theorem encode_v1 {b : BulkURI} (hversion : b.storageVersion = .v1) :
    encode b = .ok ("urn:wdms-1:uuid:" ++ b.bulkId) := by
  have hmark : "urn:" ++ "wdms-1" ++ ":uuid:" ++ b.bulkId = "urn:wdms-1:uuid:" ++ b.bulkId :=
    congrArg (fun s => s ++ b.bulkId) (by decide)
  rw [encode, hversion]
  exact congrArg Except.ok hmark

/-- **A URI of the storage in use** round-trips. -/
theorem roundTrips_v1 {b : BulkURI} (hversion : b.storageVersion = .v1) {u : UUID}
    (hparse : UUID.parse b.bulkId = some u) (hcolon : ':' ∉ b.bulkId.toList) : RoundTrips b := by
  have hv1 : BulkStorageVersion.v1 ≠ .invalid := by decide
  refine ⟨_, ofUuid u .v1 hv1, u, encode_v1 hversion, ?_, hversion.symm, hparse, UUID.parse_text u⟩
  simp [decode, Value.truthy, decodeUri_urn_v1 hcolon hparse, make_text, bind, Except.bind,
    BulkStorageVersion.uriPrefix]

/-- **A colon too many**: in the text of a V1 URI whose identifier has a colon, more than
the prefix stands before the last two parts. -/
theorem decode_v1_of_colon {s : String} (hcolon : ':' ∈ s.toList) :
    ∃ e, decode (.str ("urn:wdms-1:uuid:" ++ s)) = .error e := by
  obtain ⟨a, b, parts, hsplit⟩ := exists_split_of_mem hcolon
  -- the identifier is cut too, and all of its parts but two go to the prefix
  obtain ⟨rest, hmarker⟩ : ∃ rest, (uriParts ("urn:wdms-1:uuid:" ++ s)).2 =
      some (join ("wdms-1" :: "uuid" :: rest)) := by
    refine ⟨(a :: b :: parts).take parts.length, ?_⟩
    simp only [uriParts, split_urn_v1, hsplit]
    have hlength : ¬ ("urn" :: "wdms-1" :: "uuid" :: a :: b :: parts).length < 4 := by
      simp only [List.length_cons]
      omega
    rw [if_neg hlength]
    show some (join ("wdms-1" :: "uuid" :: (a :: b :: parts).take parts.length)) = _
    rfl
  have hmem := colon_mem_join "wdms-1" "uuid" rest
  have hempty : join ("wdms-1" :: "uuid" :: rest) ≠ "" := by
    intro heq
    rw [heq] at hmem
    exact absurd hmem (by decide)
  -- the prefix of V1 has no colon
  have hprefix : BulkStorageVersion.v1.uriPrefix ≠ some (join ("wdms-1" :: "uuid" :: rest)) := by
    intro heq
    rw [← Option.some.inj heq] at hmem
    exact absurd hmem (by decide)
  cases hd : decodeUri ("urn:wdms-1:uuid:" ++ s) with
  | error e =>
    refine ⟨e, ?_⟩
    rw [decode, if_neg (by simp [Value.truthy]), hd]
    rfl
  | ok p =>
    obtain ⟨bulkId, marker⟩ := p
    have hp : marker = some (join ("wdms-1" :: "uuid" :: rest)) := by
      unfold decodeUri at hd
      split at hd
      · rw [← hmarker]
        exact (congrArg Prod.snd (Except.ok.inj hd)).symm
      · cases hd
    refine ⟨.valueError ("Unsupported prefix in bulk URI: " ++ join ("wdms-1" :: "uuid" :: rest)),
      ?_⟩
    rw [decode, if_neg (by simp [Value.truthy]), hd, hp]
    -- the prefix is neither empty nor that of V1
    show (if join ("wdms-1" :: "uuid" :: rest) = "" then _
      else if some (join ("wdms-1" :: "uuid" :: rest)) = BulkStorageVersion.v1.uriPrefix then _
      else _) = _
    rw [if_neg hempty, if_neg hprefix.symm]
    rfl

/-- What `decode` has read, it reads again from the text of it. -/
theorem encode_decode_encode {s : String} {b : BulkURI} (hs : s ≠ "")
    (h : decode (.str s) = .ok b) :
    ∃ t c, encode b = .ok t ∧ decode (.str t) = .ok c ∧ encode c = .ok t := by
  rcases exists_of_decode h with ⟨hfalsy, -⟩ | ⟨u, version, hversion, rfl⟩
  · simp [Value.truthy, hs] at hfalsy
  · obtain ⟨t, hencode, hdecode⟩ := decode_encode u hversion
    exact ⟨t, _, hencode, hdecode, hencode⟩

/-- **The round trip of bulk URIs**: what the constructor accepts, `decode` reads from the
text of it if and only if there is an identifier and the storage is V0 or the identifier
is spelled without colons; and what `decode` has read it reads again from its own text. -/
theorem roundTrips_iff {bulkId : String} {version : BulkStorageVersion} {b : BulkURI}
    (hversion : version ≠ .invalid) (h : make (.str bulkId) version = .ok b) :
    (RoundTrips b ↔ bulkId ≠ "" ∧ (version = .v0 ∨ ':' ∉ bulkId.toList)) ∧
    ∀ (s : String) (b : BulkURI), s ≠ "" → decode (.str s) = .ok b →
      ∃ t c, encode b = .ok t ∧ decode (.str t) = .ok c ∧ encode c = .ok t := by
  refine ⟨?_, fun s b hs h => encode_decode_encode hs h⟩
  rcases make_eq_ok hversion h with ⟨rfl, rfl⟩ | ⟨hne, rfl, hstorage, u, hparse⟩
  · simp [not_roundTrips_invalid]
  · -- the storage decides how the identifier is printed
    cases version with
    | invalid => exact absurd rfl hversion
    | v0 => simp [hne, roundTrips_v0 hstorage hparse]
    | v1 =>
      by_cases hcolon : ':' ∈ b.bulkId.toList
      · have hfails : ¬ RoundTrips b := by
          rintro ⟨t, c, v, hencode, hdecode, -⟩
          rw [encode_v1 hstorage] at hencode
          obtain ⟨e, he⟩ := decode_v1_of_colon hcolon
          rw [← Except.ok.inj hencode, he] at hdecode
          cases hdecode
        simp [hcolon, hfails]
      · simp [hne, hcolon, roundTrips_v1 hstorage hparse hcolon]

/-- **A URN as the identifier is accepted and lost**: `uuid.UUID` takes it, and its V1 URI
cannot be decoded. -/
theorem urn_does_not_roundTrip :
    ¬ ∀ (bulkId : String) (version : BulkStorageVersion) (b : BulkURI), version ≠ .invalid →
      make (.str bulkId) version = .ok b → RoundTrips b := by
  intro h
  have hv1 : BulkStorageVersion.v1 ≠ .invalid := by decide
  have hparse :
    (UUID.parse "urn:uuid:00000000-0000-0000-0000-000000000005").isSome = true := by decide
  obtain ⟨t, c, u, hencode, hdecode, -⟩ :=
    h "urn:uuid:00000000-0000-0000-0000-000000000005" .v1
      ⟨_, .v1, Or.inr ⟨hv1, hparse⟩⟩ hv1 (by rfl)
  obtain ⟨e, he⟩ :=
    decode_v1_of_colon (s := "urn:uuid:00000000-0000-0000-0000-000000000005") (by decide)
  rw [encode_v1 rfl] at hencode
  rw [← Except.ok.inj hencode, he] at hdecode
  cases hdecode

/-- An identifier in braces, in capitals and without hyphens. -/
theorem roundTrips_braces :
    ∃ b, make (.str "\x7b0000000000000000000000000000ABCD\x7d") .v1 = .ok b ∧ RoundTrips b := by
  have hv1 : BulkStorageVersion.v1 ≠ .invalid := by decide
  have hparse : (UUID.parse "\x7b0000000000000000000000000000ABCD\x7d").isSome = true := by decide
  have hmake : make (.str "\x7b0000000000000000000000000000ABCD\x7d") .v1 =
      .ok ⟨_, .v1, Or.inr ⟨hv1, hparse⟩⟩ := by rfl
  exact ⟨_, hmake, (roundTrips_iff hv1 hmake).1.mpr ⟨by decide, Or.inr (by decide)⟩⟩

end BulkURI

end WellboreDdms
