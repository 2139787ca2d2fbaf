import WellboreDdms.Bulk.Uri

/-!
# The texts that are bulk URIs

By its documentation a bulk URI is `urn:wdms-1:uuid:` or `urn:uuid:` with an identifier.
`decode` cuts a text at its colons and leaves the markers to `uuid.UUID`, which removes them
where it finds them.

- `decode_eq_ok_iff`: the texts that are read, with up to three colons.
- `MeetsFormat`: a text is read as the format says, or refused.
- `meetsFormat_iff`: when that is so. An identifier without markers is read too, and one
  with colons of its own is refused.
-/

namespace WellboreDdms

namespace BulkURI

open Python

/-- What the format makes of a text. -/
structure MeetsFormat (s : String) : Prop where
  empty : s = "" → decode (.str s) = .ok invalid
  v1 : ∀ t u, s = "urn:wdms-1:uuid:" ++ t → UUID.parse t = some u →
    decode (.str s) = .ok (ofUuid u .v1 nofun)
  v0 : ∀ t u, s = "urn:uuid:" ++ t → UUID.parse t = some u →
    decode (.str s) = .ok (ofUuid u .v0 nofun)
  others : s ≠ "" →
    (∀ t, s = "urn:wdms-1:uuid:" ++ t ∨ s = "urn:uuid:" ++ t → UUID.parse t = none) →
    ∃ message, decode (.str s) = .error (.valueError message)

/-- Where `uuid.UUID` accepts a text, the markers stand in their places and the identifier
has no colon. -/
structure WellMarked (s : String) : Prop where
  unmarked : (split s).length < 4 → (UUID.parse s).isSome = true → ∃ t, s = "urn:uuid:" ++ t
  marked : ∀ p m q r, split s = [p, m, q, r] → m = "" ∨ m = "wdms-1" →
    (UUID.parse (p ++ ":" ++ q ++ ":" ++ r)).isSome = true → s = "urn:wdms-1:uuid:" ++ r
  plain : ∀ t, s = "urn:wdms-1:uuid:" ++ t ∨ s = "urn:uuid:" ++ t →
    (UUID.parse t).isSome = true → ':' ∉ t.toList

/-! ## What is read -/

theorem join_singleton (m : String) : join [m] = m := by
  simp [join]

/-- One part is all of the text. -/
theorem split_eq_singleton {t r : String} (h : split t = [r]) : t = r ∧ ':' ∉ t.toList := by
  by_cases hcolon : ':' ∈ t.toList
  · obtain ⟨a, b, parts, hsplit⟩ := exists_split_of_mem hcolon
    rw [h] at hsplit
    cases hsplit
  · have ht := split_of_not_mem hcolon
    rw [String.ofList_toList, h] at ht
    exact ⟨(List.cons.inj ht).1.symm, hcolon⟩

theorem split_eq_of_not_mem {t : String} (h : ':' ∉ t.toList) : split t = [t] := by
  have ht := split_of_not_mem h
  rwa [String.ofList_toList] at ht

/-- The storage a marker stands for. -/
def versionOf : Option String → Option BulkStorageVersion
  | none => some .v0
  | some m => if m = "" then some .v0 else if m = "wdms-1" then some .v1 else none

theorem versionOf_ne_invalid {marker : Option String} {version : BulkStorageVersion}
    (h : versionOf marker = some version) : version ≠ .invalid := by
  unfold versionOf at h
  split at h
  · cases h
    decide
  · split at h
    · cases h
      decide
    · obtain ⟨-, h⟩ := Option.ite_none_right_eq_some.mp h
      cases h
      decide

/-- `decode` after the identifier was read. -/
theorem decode_of_parse {s : String} (hs : s ≠ "") {u : UUID}
    (hparse : UUID.parse (uriParts s).1 = some u) :
    (∃ version, versionOf (uriParts s).2 = some version ∧
      decode (.str s) = make (.str u.text) version) ∨
    versionOf (uriParts s).2 = none ∧ ∃ e, decode (.str s) = .error e := by
  have htruthy : ¬ (Value.str s).truthy = false := by simp [Value.truthy, hs]
  have hread : decodeUri s = .ok (u.text, (uriParts s).2) := by rw [decodeUri, hparse]
  rw [decode, if_neg htruthy, hread]
  cases (uriParts s).2 with
  | none => exact Or.inl ⟨.v0, by simp [versionOf], by simp [bind, Except.bind]⟩
  | some m =>
    by_cases hempty : m = ""
    · exact Or.inl ⟨.v0, by simp [versionOf, hempty], by simp [bind, Except.bind, hempty]⟩
    · by_cases hwdms : m = "wdms-1"
      · refine Or.inl ⟨.v1, by simp [versionOf, hwdms], ?_⟩
        simp [bind, Except.bind, hwdms, BulkStorageVersion.uriPrefix]
      · have hother : ¬ some m = BulkStorageVersion.v1.uriPrefix :=
          fun heq => hwdms (Option.some.inj heq)
        refine Or.inr ⟨by rw [versionOf, if_neg hempty, if_neg hwdms],
          .valueError ("Unsupported prefix in bulk URI: " ++ m), ?_⟩
        simp only [bind, Except.bind, if_neg hempty, if_neg hother]
        rfl

/-- A text is read if its identifier is accepted and its marker is that of a storage. -/
theorem decode_eq_ok_parts {s : String} (hs : s ≠ "") {b : BulkURI} :
    decode (.str s) = .ok b ↔ ∃ u version, ∃ h : version ≠ .invalid,
      UUID.parse (uriParts s).1 = some u ∧ versionOf (uriParts s).2 = some version ∧
        b = ofUuid u version h := by
  constructor
  · intro h
    cases hparse : UUID.parse (uriParts s).1 with
    | none =>
      have htruthy : ¬ (Value.str s).truthy = false := by simp [Value.truthy, hs]
      rw [decode, if_neg htruthy, decodeUri, hparse] at h
      cases h
    | some u =>
      rcases decode_of_parse hs hparse with ⟨version, hversion, heq⟩ | ⟨-, e, heq⟩
      · have hvalid := versionOf_ne_invalid hversion
        rw [heq, make_text u hvalid] at h
        exact ⟨u, version, hvalid, rfl, hversion, (Except.ok.inj h).symm⟩
      · rw [heq] at h
        cases h
  · rintro ⟨u, version, hvalid, hparse, hversion, rfl⟩
    rcases decode_of_parse hs hparse with ⟨version', hversion', heq⟩ | ⟨hnone, -⟩
    · rw [hversion] at hversion'
      cases hversion'
      rw [heq, make_text u hvalid]
    · rw [hversion] at hnone
      cases hnone

/-- Three colons or fewer: with more of them a colon is left in the marker. -/
theorem versionOf_uriParts {s : String} {version : BulkStorageVersion}
    (h : versionOf (uriParts s).2 = some version) :
    (split s).length < 4 ∧ version = .v0 ∧ (uriParts s).1 = s ∨
      ∃ p m q r, split s = [p, m, q, r] ∧ (uriParts s).1 = p ++ ":" ++ q ++ ":" ++ r ∧
        (m = "" ∧ version = .v0 ∨ m = "wdms-1" ∧ version = .v1) := by
  by_cases hfew : (split s).length < 4
  · simp only [uriParts, if_pos hfew] at h ⊢
    cases h
    exact Or.inl ⟨hfew, rfl, trivial⟩
  · right
    -- at least four pieces
    obtain ⟨p, m, q, r, rest, hsplit⟩ : ∃ p m q r rest, split s = p :: m :: q :: r :: rest := by
      rcases hs : split s with - | ⟨p, - | ⟨m, - | ⟨q, - | ⟨r, rest⟩⟩⟩⟩
      · exact absurd (by rw [hs]; decide) hfew
      · exact absurd (by rw [hs]; exact Nat.lt_of_sub_eq_succ rfl) hfew
      · exact absurd (by rw [hs]; exact Nat.lt_of_sub_eq_succ rfl) hfew
      · exact absurd (by rw [hs]; exact Nat.lt_of_sub_eq_succ rfl) hfew
      · exact ⟨p, m, q, r, rest, rfl⟩
    cases rest with
    | nil =>
      -- of four pieces, the second one is the marker
      refine ⟨p, m, q, r, hsplit, by simp [uriParts, hsplit], ?_⟩
      have hmarker : (uriParts s).2 = some m := by simp [uriParts, hsplit, join_singleton]
      rw [hmarker, versionOf] at h
      split at h
      · cases h
        exact Or.inl ⟨‹_›, rfl⟩
      · obtain ⟨hwdms, h⟩ := Option.ite_none_right_eq_some.mp h
        cases h
        exact Or.inr ⟨hwdms, rfl⟩
    | cons x rest =>
      -- of more pieces, the marker has a colon of its own and is refused
      have hmarker : (uriParts s).2 =
          some (join (m :: q :: (r :: x :: rest).take rest.length)) := by
        have hmany : ¬ (p :: m :: q :: r :: x :: rest).length < 4 := by
          simp only [List.length_cons]
          omega
        simp only [uriParts, hsplit, if_neg hmany]
        rfl
      have hcolon := colon_mem_join m q ((r :: x :: rest).take rest.length)
      rw [hmarker, versionOf] at h
      split at h
      · rename_i heq
        rw [heq] at hcolon
        exact absurd hcolon (by decide)
      · obtain ⟨heq, -⟩ := Option.ite_none_right_eq_some.mp h
        rw [heq] at hcolon
        exact absurd hcolon (by decide)

/-- **What is read**: a text with at most two colons that `uuid.UUID` accepts, as V0; and
one with three colons, if it is accepted without the second of its four parts and that part
is empty or the marker of V1. -/
theorem decode_eq_ok_iff {s : String} (hs : s ≠ "") {b : BulkURI} :
    decode (.str s) = .ok b ↔
      (∃ u, (split s).length < 4 ∧ UUID.parse s = some u ∧ b = ofUuid u .v0 nofun) ∨
      ∃ p m q r u, split s = [p, m, q, r] ∧ UUID.parse (p ++ ":" ++ q ++ ":" ++ r) = some u ∧
        (m = "" ∧ b = ofUuid u .v0 nofun ∨ m = "wdms-1" ∧ b = ofUuid u .v1 nofun) := by
  rw [decode_eq_ok_parts hs]
  constructor
  · rintro ⟨u, version, hvalid, hparse, hversion, rfl⟩
    rcases versionOf_uriParts hversion with
      ⟨hfew, rfl, heq⟩ | ⟨p, m, q, r, hsplit, heq, ⟨hm, rfl⟩ | ⟨hm, rfl⟩⟩
    · rw [heq] at hparse
      exact Or.inl ⟨u, hfew, hparse, rfl⟩
    · rw [heq] at hparse
      exact Or.inr ⟨p, m, q, r, u, hsplit, hparse, Or.inl ⟨hm, rfl⟩⟩
    · rw [heq] at hparse
      exact Or.inr ⟨p, m, q, r, u, hsplit, hparse, Or.inr ⟨hm, rfl⟩⟩
  · rintro (⟨u, hfew, hparse, rfl⟩ | ⟨p, m, q, r, u, hsplit, hparse, ⟨rfl, rfl⟩ | ⟨rfl, rfl⟩⟩)
    · have hparts : uriParts s = (s, none) := by simp only [uriParts, if_pos hfew]
      exact ⟨u, .v0, nofun, by rw [hparts]; exact hparse, by rw [hparts]; rfl, rfl⟩
    · have hparts : uriParts s = (p ++ ":" ++ q ++ ":" ++ r, some "") := by
        simp [uriParts, hsplit, join_singleton]
      exact ⟨u, .v0, nofun, by rw [hparts]; exact hparse, by rw [hparts]; rfl, rfl⟩
    · have hparts : uriParts s = (p ++ ":" ++ q ++ ":" ++ r, some "wdms-1") := by
        simp [uriParts, hsplit, join_singleton]
      exact ⟨u, .v1, nofun, by rw [hparts]; exact hparse, by rw [hparts]; rfl, rfl⟩

/-- What is not read is a `ValueError`. -/
theorem exists_valueError {s : String} (h : ∀ b, decode (.str s) ≠ .ok b) :
    ∃ message, decode (.str s) = .error (.valueError message) := by
  cases hd : decode (.str s) with
  | ok b => exact absurd hd (h b)
  | error e =>
    obtain ⟨message, rfl⟩ := decode_eq_error hd
    exact ⟨message, rfl⟩

/-- An identifier alone, without any marker. -/
theorem decode_text (u : UUID) : decode (.str u.text) = .ok (ofUuid u .v0 nofun) := by
  refine (decode_eq_ok_iff (text_ne_empty u)).mpr (Or.inl ⟨u, ?_, u.parse_text, rfl⟩)
  have hsplit : split u.text = [u.text] := split_text u
  rw [hsplit]
  simp

/-! ## The two documented forms -/

section

variable {s t : String}

theorem split_v1 (hs : s = "urn:wdms-1:uuid:" ++ t) :
    split s = "urn" :: "wdms-1" :: "uuid" :: split t := by
  rw [hs, split_urn_v1]

theorem split_v0 (hs : s = "urn:uuid:" ++ t) : split s = "urn" :: "uuid" :: split t := by
  rw [hs, split_urn]

theorem urn_ne_empty (hs : s = "urn:wdms-1:uuid:" ++ t ∨ s = "urn:uuid:" ++ t) : s ≠ "" := by
  rintro rfl
  have hempty : split "" = [""] := by decide
  rcases hs with hs | hs
  · have hsplit := split_v1 hs
    rw [hempty] at hsplit
    cases (List.cons.inj hsplit).2
  · have hsplit := split_v0 hs
    rw [hempty] at hsplit
    cases (List.cons.inj hsplit).2

/-- The marker of V1 before an identifier. -/
theorem parse_v1 {r : String} (hr : ':' ∉ r.toList) :
    UUID.parse ("urn" ++ ":" ++ "uuid" ++ ":" ++ r) = UUID.parse r := by
  have hmark : "urn" ++ ":" ++ "uuid" ++ ":" ++ r = "urn:uuid:" ++ r :=
    congrArg (fun p => p ++ r) (by decide)
  rw [hmark, UUID.parse_urn_of_not_mem hr]

/-- With a colon in the identifier neither form is read. -/
theorem decode_of_colon (hs : s = "urn:wdms-1:uuid:" ++ t ∨ s = "urn:uuid:" ++ t)
    (hcolon : ':' ∈ t.toList) (b : BulkURI) : decode (.str s) ≠ .ok b := by
  intro h
  obtain ⟨x, y, parts, hsplit⟩ := exists_split_of_mem hcolon
  rcases hs with rfl | rfl
  · obtain ⟨e, he⟩ := decode_v1_of_colon hcolon
    rw [h] at he
    cases he
  · rcases (decode_eq_ok_iff (urn_ne_empty (Or.inr rfl))).mp h with
      ⟨u, hfew, -⟩ | ⟨p, m, q, r, u, hparts, -, hm⟩
    · rw [split_urn, hsplit] at hfew
      simp only [List.length_cons] at hfew
      omega
    · -- the second part is 'uuid', which stands for no storage
      rw [split_urn] at hparts
      obtain rfl := (List.cons.inj (List.cons.inj hparts).2).1
      rcases hm with ⟨hm, -⟩ | ⟨hm, -⟩
      · exact absurd hm (by decide)
      · exact absurd hm (by decide)

/-! ## When the format is met -/

/-- Of a text that is read, the format says how. -/
theorem MeetsFormat.documented (h : MeetsFormat s) (hs : s ≠ "") {b : BulkURI}
    (hread : decode (.str s) = .ok b) :
    ∃ t, s = "urn:wdms-1:uuid:" ++ t ∨ s = "urn:uuid:" ++ t := by
  by_contra hnone
  obtain ⟨message, hraise⟩ := h.others hs fun t ht => absurd ⟨t, ht⟩ hnone
  rw [hread] at hraise
  cases hraise

/-- A text that meets the format is well marked. -/
theorem MeetsFormat.wellMarked (h : MeetsFormat s) : WellMarked s where
  unmarked := by
    intro hfew hparse
    obtain ⟨u, hu⟩ := Option.isSome_iff_exists.mp hparse
    -- the empty text is no UUID
    have hs : s ≠ "" := by
      rintro rfl
      exact absurd hparse (by decide)
    have hread := (decode_eq_ok_iff hs).mpr (Or.inl ⟨u, hfew, hu, rfl⟩)
    obtain ⟨t, ht | ht⟩ := h.documented hs hread
    -- `urn:wdms-1:uuid:` has three colons already
    · rw [split_v1 ht] at hfew
      simp only [List.length_cons] at hfew
      have hpos : (split t).length = 0 := by omega
      exact absurd (List.map_eq_nil_iff.mp (List.length_eq_zero_iff.mp hpos))
        (List.splitOn_ne_nil ':' _)
    · exact ⟨t, ht⟩
  marked := by
    intro p m q r hsplit hm hparse
    obtain ⟨u, hu⟩ := Option.isSome_iff_exists.mp hparse
    have hs : s ≠ "" := by
      rintro rfl
      have hempty : split "" = [""] := by decide
      rw [hempty] at hsplit
      cases hsplit
    have hread : ∃ b, decode (.str s) = .ok b := by
      rcases hm with hm | hm
      · exact ⟨_, (decode_eq_ok_iff hs).mpr (Or.inr ⟨p, m, q, r, u, hsplit, hu, Or.inl ⟨hm, rfl⟩⟩)⟩
      · exact ⟨_, (decode_eq_ok_iff hs).mpr (Or.inr ⟨p, m, q, r, u, hsplit, hu, Or.inr ⟨hm, rfl⟩⟩)⟩
    obtain ⟨b, hb⟩ := hread
    obtain ⟨t, ht | ht⟩ := h.documented hs hb
    · have hparts := split_v1 ht
      rw [hsplit] at hparts
      have hlast : split t = [r] := by
        simp only [List.cons.injEq] at hparts
        exact hparts.2.2.2.symm
      rw [ht, (split_eq_singleton hlast).1]
    -- the second piece of a URI without marker is `uuid`
    · have hparts := split_v0 ht
      rw [hsplit] at hparts
      obtain rfl : m = "uuid" := (List.cons.inj (List.cons.inj hparts).2).1
      exact absurd hm (by decide)
  plain := by
    intro t ht hparse hcolon
    obtain ⟨u, hu⟩ := Option.isSome_iff_exists.mp hparse
    -- with a colon in its id, what is read is none of the documented texts
    rcases ht with ht | ht
    · exact decode_of_colon (Or.inl ht) hcolon _ (h.v1 t u ht hu)
    · exact decode_of_colon (Or.inr ht) hcolon _ (h.v0 t u ht hu)

/-- And a well-marked text meets the format. -/
theorem WellMarked.meetsFormat (h : WellMarked s) : MeetsFormat s where
  empty := by
    rintro rfl
    rfl
  v1 := by
    intro t u hs hu
    have hcolon := h.plain t (Or.inl hs) (by rw [hu]; rfl)
    have hsplit := split_v1 hs
    -- without colons in its id, the URI has exactly its four pieces
    rw [split_eq_of_not_mem hcolon] at hsplit
    refine (decode_eq_ok_iff (urn_ne_empty (Or.inl hs))).mpr
      (Or.inr ⟨"urn", "wdms-1", "uuid", t, u, hsplit, ?_, Or.inr ⟨rfl, rfl⟩⟩)
    rw [parse_v1 hcolon, hu]
  v0 := by
    intro t u hs hu
    have hcolon := h.plain t (Or.inr hs) (by rw [hu]; rfl)
    have hsplit := split_v0 hs
    rw [split_eq_of_not_mem hcolon] at hsplit
    refine (decode_eq_ok_iff (urn_ne_empty (Or.inr hs))).mpr (Or.inl ⟨u, ?_, ?_, rfl⟩)
    · rw [hsplit]
      simp
    · rw [hs, UUID.parse_urn_of_not_mem hcolon, hu]
  others := by
    intro hs hnone
    -- anything else that is read has one of the two documented forms
    refine exists_valueError fun b hb => ?_
    rcases (decode_eq_ok_iff hs).mp hb with ⟨u, hfew, hu, -⟩ | ⟨p, m, q, r, u, hsplit, hu, hm⟩
    · obtain ⟨t, rfl⟩ := h.unmarked hfew (by rw [hu]; rfl)
      have hcolon : ':' ∉ t.toList := by
        intro hmem
        obtain ⟨x, y, parts, hparts⟩ := exists_split_of_mem hmem
        rw [split_urn, hparts] at hfew
        simp only [List.length_cons] at hfew
        omega
      rw [UUID.parse_urn_of_not_mem hcolon, hnone t (Or.inr rfl)] at hu
      cases hu
    · obtain rfl := h.marked p m q r hsplit (hm.imp And.left And.left) (by rw [hu]; rfl)
      rw [split_urn_v1] at hsplit
      simp only [List.cons.injEq] at hsplit
      obtain ⟨rfl, rfl, rfl, hlast⟩ := hsplit
      rw [parse_v1 (split_eq_singleton hlast).2, hnone r (Or.inl rfl)] at hu
      cases hu

end

/-- **When `decode` accepts its format alone**: where `uuid.UUID` accepts a text, or its
parts around the marker, the markers are those of the format, and its identifiers have no
colon. -/
theorem meetsFormat_iff (s : String) : MeetsFormat s ↔ WellMarked s :=
  ⟨MeetsFormat.wellMarked, WellMarked.meetsFormat⟩

/-- **An identifier without markers is read as V0.** -/
theorem bare_identifier_is_read : ¬ ∀ s, MeetsFormat s := by
  intro h
  have hread := decode_text ⟨0, by decide⟩
  obtain ⟨t, ht⟩ := (h _).documented (text_ne_empty _) hread
  have hsplit : split (UUID.text ⟨0, by decide⟩) = [UUID.text ⟨0, by decide⟩] := split_text _
  rcases ht with ht | ht
  · rw [split_v1 ht] at hsplit
    cases (List.cons.inj hsplit).2
  · rw [split_v0 ht] at hsplit
    cases (List.cons.inj hsplit).2

end BulkURI

end WellboreDdms
