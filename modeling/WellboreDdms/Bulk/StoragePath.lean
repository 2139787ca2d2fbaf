import WellboreDdms.Python.Path
import WellboreDdms.Python.Text

/-!
# Paths of records

All data of a record lies in a folder named by the hash of its id, below a base directory that
may be given with a protocol.

- `recordPath`, `fullPath`, `recordRelativePath`: the folder, a path in it, and the way back.
- `fullPath_eq`: what `fullPath` writes: the folder, the hash and the relative path.
- `SamePlace`: what is left of the base, once a protocol is removed, is the base.
- `recordRelativePath_fullPath_iff`: when the way back leads to the relative path;
  `samePlace_of_no_backslash`: so it does for every base directory without backslashes.
-/

namespace WellboreDdms

namespace StoragePath

open Python Python.Path

/-- `hashlib.sha1(..).hexdigest()`: forty hexadecimal digits. -/
structure Sha1 where
  hexdigest : String → Text
  length : ∀ s, (hexdigest s).length = 40
  digits : ∀ s, ∀ c ∈ hexdigest s, c ∈ "0123456789abcdef".toList

/-- `path.replace('\\', '/')` -/
def forwardSlashes (path : Text) : Text := path.map fun c => if c = '\\' then '/' else c

/-- `join`, with slashes only. -/
def join (path other : Text) : Text := forwardSlashes (joinPath path other)

/-- What follows the protocol. -/
def separator : Text := "://".toList

/-- The base directory, after its protocol if there is one. -/
def buildBasePath (baseDirectory : Text) (protocol : Option Text) : Text :=
  match protocol.filter fun p => p ≠ [] with
  | some protocol => protocol ++ (separator ++ baseDirectory)
  | none => baseDirectory

/-- The path after the first `://`, and the protocol before it. -/
def removeProtocol (path : Text) : Text × Text :=
  if separator <:+: path then
    let sepIdx := ((splitTextFrom separator 0 path).headD []).length
    (path.drop (sepIdx + 3), path.take sepIdx)
  else (path, [])

section

variable (sha1 : Sha1)

/-- The SHA-1 of the record's id. -/
def hashRecordId (recordId : String) : Text := sha1.hexdigest recordId

/-- The folder of a record. -/
def recordPath (baseDirectory : Text) (recordId : String) (protocol : Option Text) : Text :=
  let encodedId := hashRecordId sha1 recordId
  let basePath := buildBasePath baseDirectory protocol
  if basePath = [] then encodedId else join basePath encodedId

/-- `none` is the `ValueError`. -/
def recordRelativePath (cwd : CurrentDirectory) (baseDirectory : Text) (recordId : String)
    (path : Text) : Option Text :=
  relpath cwd (removeProtocol path).1 (recordPath sha1 baseDirectory recordId none)

/-- The path of a file of a record. -/
def fullPath (baseDirectory : Text) (recordId : String) (relativePath : Text)
    (protocol : Option Text) : Text :=
  join (recordPath sha1 baseDirectory recordId protocol) relativePath

end

/-- A relative path of plain names, without backslashes. -/
structure Normalised (path : Text) : Prop where
  plain : ∀ name ∈ path.splitOn '/', Plain name
  backslash : '\\' ∉ path

/-- The text before the encoded id. -/
def folder (baseDirectory : Text) (protocol : Option Text) : Text :=
  let basePath := buildBasePath baseDirectory protocol
  if basePath = [] ∨ basePath.getLast? = some '/' then forwardSlashes basePath
  else forwardSlashes basePath ++ ['/']

/-- Without what is taken for a protocol, the folder is where the base directory is. -/
def SamePlace (cwd : CurrentDirectory) (baseDirectory : Text) (protocol : Option Text) : Prop :=
  locate cwd (removeProtocol (folder baseDirectory protocol)).1 =
    locate cwd (folder baseDirectory none)

instance (cwd : CurrentDirectory) (baseDirectory : Text) (protocol : Option Text) :
    Decidable (SamePlace cwd baseDirectory protocol) :=
  inferInstanceAs (Decidable (_ = _))

/-! ## Backslashes -/

@[simp] theorem forwardSlashes_append (a b : Text) :
    forwardSlashes (a ++ b) = forwardSlashes a ++ forwardSlashes b :=
  List.map_append

theorem forwardSlashes_of_not_mem {path : Text} (h : '\\' ∉ path) : forwardSlashes path = path := by
  refine (List.map_congr_left fun c hc => ?_).trans (List.map_id path)
  have hne : c ≠ '\\' := fun heq => h (heq ▸ hc)
  exact if_neg hne

theorem backslash_not_mem (path : Text) : '\\' ∉ forwardSlashes path := by
  intro hmem
  obtain ⟨c, -, hc⟩ := List.mem_map.mp hmem
  by_cases heq : c = '\\'
  · rw [if_pos heq] at hc
    exact absurd hc (by decide)
  · rw [if_neg heq] at hc
    exact heq hc

/-- A path that ended with a slash still does. -/
theorem isFolder_folder (baseDirectory : Text) (protocol : Option Text) :
    IsFolder (folder baseDirectory protocol) := by
  simp only [folder]
  split
  · rename_i hlast
    rcases hlast with hnil | hlast
    · exact Or.inl (by rw [hnil]; rfl)
    · obtain ⟨front, hfront⟩ := List.getLast?_eq_some_iff.mp hlast
      exact Or.inr ⟨forwardSlashes front, by rw [hfront, forwardSlashes_append]; rfl⟩
  · exact Or.inr ⟨_, rfl⟩

theorem backslash_not_mem_folder (baseDirectory : Text) (protocol : Option Text) :
    '\\' ∉ folder baseDirectory protocol := by
  simp only [folder]
  split
  · exact backslash_not_mem _
  · intro hmem
    rcases List.mem_append.mp hmem with hmem | hmem
    · exact backslash_not_mem _ hmem
    · exact absurd hmem (by decide)

/-! ## What is written -/

section

variable {sha1 : Sha1} {recordId : String}

/-- The hash is a name, and has no backslash. -/
theorem plain_hashRecordId (sha1 : Sha1) (recordId : String) : Plain (hashRecordId sha1 recordId) ∧
    '\\' ∉ hashRecordId sha1 recordId := by
  have hdigits := sha1.digits recordId
  have hne : ∀ text : Text, text.length ≠ 40 → hashRecordId sha1 recordId ≠ text := by
    rintro text hlength rfl
    exact hlength (sha1.length recordId)
  refine ⟨⟨hne _ (by decide), hne _ (by decide), hne _ (by decide), ?_⟩, ?_⟩
  · exact fun hmem => absurd (hdigits _ hmem) (by decide)
  · exact fun hmem => absurd (hdigits _ hmem) (by decide)

theorem head_hashRecordId : (hashRecordId sha1 recordId).head? ≠ some '/' := by
  have hhead := head_intercalate_ne (plain_hashRecordId sha1 recordId).1 []
  rwa [List.intercalate_singleton] at hhead

/-- The path of a record is its folder and its hash. -/
theorem recordPath_eq (baseDirectory : Text) (protocol : Option Text) :
    recordPath sha1 baseDirectory recordId protocol =
      folder baseDirectory protocol ++ hashRecordId sha1 recordId := by
  have hhash := forwardSlashes_of_not_mem
    (plain_hashRecordId sha1 recordId).2
  unfold recordPath folder
  by_cases hnil : buildBasePath baseDirectory protocol = []
  · simp [hnil, forwardSlashes]
  · by_cases hlast : (buildBasePath baseDirectory protocol).getLast? = some '/'
    · simp [hnil, hlast, join, joinPath, head_hashRecordId, hhash]
    · have hslash : ∀ rest, forwardSlashes ('/' :: rest) = '/' :: forwardSlashes rest :=
        fun _ => rfl
      simp [hnil, hlast, join, joinPath, head_hashRecordId, hhash, hslash]

/-- **What `fullPath` writes**: the folder, the encoded id and the relative path. -/
theorem fullPath_eq {rel : Text} (hrel : Normalised rel) (baseDirectory : Text)
    (protocol : Option Text) :
    fullPath sha1 baseDirectory recordId rel protocol =
      folder baseDirectory protocol ++
        ['/'].intercalate (hashRecordId sha1 recordId :: rel.splitOn '/') := by
  obtain ⟨hplain, hhash⟩ := plain_hashRecordId sha1 recordId
  obtain ⟨first, rest, hsplit⟩ := List.exists_cons_of_ne_nil (List.splitOn_ne_nil '/' rel)
  have hhead : rel.head? ≠ some '/' := by
    have hfirst := head_intercalate_ne (hrel.plain first (by rw [hsplit]; exact List.mem_cons_self))
      rest
    rwa [← hsplit, List.intercalate_splitOn] at hfirst
  -- the record path ends with a digit
  obtain ⟨front, last, hlast⟩ : ∃ front last, hashRecordId sha1 recordId = front ++ [last] := by
    rcases List.eq_nil_or_concat (hashRecordId sha1 recordId) with hnil | ⟨front, last, h⟩
    · exact absurd hnil hplain.ne_nil
    · exact ⟨front, last, by rw [h, List.concat_eq_append]⟩
  have hne : last ≠ '/' := by
    rintro rfl
    exact hplain.slash (by rw [hlast]; exact List.mem_append_right front List.mem_cons_self)
  have hend : ¬ (folder baseDirectory protocol ++ hashRecordId sha1 recordId = [] ∨
      (folder baseDirectory protocol ++ hashRecordId sha1 recordId).getLast? = some '/') := by
    rw [hlast]
    simp [hne]
  have hfolder := forwardSlashes_of_not_mem (backslash_not_mem_folder baseDirectory protocol)
  have hslash : ∀ rest, forwardSlashes ('/' :: rest) = '/' :: forwardSlashes rest := fun _ => rfl
  rw [fullPath, recordPath_eq, join, joinPath, if_neg hhead, if_neg hend, forwardSlashes_append,
    forwardSlashes_append, hslash, hfolder, forwardSlashes_of_not_mem hhash,
    forwardSlashes_of_not_mem hrel.backslash, hsplit, List.intercalate_cons_cons, ← hsplit,
    List.intercalate_splitOn]
  simp

end

/-! ## What is removed -/

theorem separator_ne_nil : separator ≠ [] := by decide

theorem removeProtocol_of_absent {path : Text} (h : ¬ separator <:+: path) :
    (removeProtocol path).1 = path := by
  rw [removeProtocol, if_neg h]

/-- The protocol ends at the first `://`. -/
theorem removeProtocol_first {a : Text} (h : ¬ separator <:+: a ++ separator.dropLast) (b : Text) :
    (removeProtocol (a ++ (separator ++ b))).1 = b := by
  have hinfix : separator <:+: a ++ (separator ++ b) := List.infix_append' a separator b
  have hlength : separator.length = 3 := by decide
  rw [removeProtocol, if_pos hinfix]
  simp only [splitTextFrom_first separator_ne_nil h, List.headD_cons]
  rw [← List.append_assoc, ← hlength, ← List.length_append, List.drop_left]

/-- Where a relative path begins no separator is made. -/
theorem separator_infix_append {path rest : Text} (hhead : rest.head? ≠ some '/')
    (h : separator <:+: path ++ rest) :
    separator <:+: path ∨ separator <:+: rest := by
  rcases List.infix_append_iff_ne_nil.mp h with h | h | ⟨l₁, l₂, hl₁, hl₂, heq, hpath, hrest⟩
  · exact Or.inl h
  · exact Or.inr h
  · -- what is left for the relative path begins with a slash
    exfalso
    have hsep : separator = [':', '/', '/'] := by decide
    rw [hsep] at heq
    obtain ⟨c, l₁', rfl⟩ := List.exists_cons_of_ne_nil hl₁
    have hslash : l₂.head? = some '/' := by
      rcases l₁' with - | ⟨d, - | ⟨e, l⟩⟩
      · simp only [List.singleton_append, List.cons.injEq] at heq
        rw [← heq.2]
        rfl
      · simp only [List.cons_append, List.nil_append, List.cons.injEq] at heq
        rw [← heq.2.2]
        rfl
      · simp only [List.cons_append, List.cons.injEq] at heq
        exact absurd (List.append_eq_nil_iff.mp heq.2.2.2.symm).2 hl₂
    obtain ⟨tail, rfl⟩ := List.head?_eq_some_iff.mp hslash
    obtain ⟨after, rfl⟩ := hrest
    exact hhead rfl

/-- What is removed ends before the relative path. -/
theorem removeProtocol_append {path rest : Text} (hhead : rest.head? ≠ some '/')
    (habsent : ¬ separator <:+: rest) :
    (removeProtocol (path ++ rest)).1 = (removeProtocol path).1 ++ rest := by
  by_cases hinfix : separator <:+: path
  · obtain ⟨a, b, rfl, hfirst⟩ := exists_first_of_infix separator_ne_nil hinfix
    have hassoc : a ++ (separator ++ b) ++ rest = a ++ (separator ++ (b ++ rest)) := by simp
    rw [hassoc, removeProtocol_first hfirst, removeProtocol_first hfirst]
  · have hnone : ¬ separator <:+: path ++ rest := fun h =>
      (separator_infix_append hhead h).elim hinfix habsent
    rw [removeProtocol_of_absent hnone, removeProtocol_of_absent hinfix]

/-- A folder is one without its protocol, too. -/
theorem isFolder_removeProtocol {path : Text} (h : IsFolder path) :
    IsFolder (removeProtocol path).1 := by
  by_cases hinfix : separator <:+: path
  · obtain ⟨a, b, rfl, hfirst⟩ := exists_first_of_infix separator_ne_nil hinfix
    rw [removeProtocol_first hfirst]
    rcases List.eq_nil_or_concat b with rfl | ⟨front, last, rfl⟩
    · exact Or.inl rfl
    · rcases h with h | ⟨front', h⟩
      · exact absurd (List.append_eq_nil_iff.mp (List.append_eq_nil_iff.mp h).2).1 separator_ne_nil
      · refine Or.inr ⟨front, ?_⟩
        have hlast := congrArg List.getLast? h
        simp only [List.concat_eq_append, List.getLast?_append, List.getLast?_singleton,
          Option.some_or] at hlast
        rw [List.concat_eq_append, Option.some.inj hlast]
  · rwa [removeProtocol_of_absent hinfix]

/-- Two slashes that follow each other enclose no name. -/
theorem separator_not_infix_intercalate {names : List Text} (h : ∀ name ∈ names, Plain name)
    (hne : names ≠ []) : ¬ separator <:+: ['/'].intercalate names := by
  rintro ⟨a, b, heq⟩
  have hsep : a ++ separator ++ b = (a ++ [':']) ++ '/' :: ('/' :: b) := by
    have hchars : separator = [':', '/', '/'] := by decide
    rw [hchars]
    simp
  have hsplit := List.splitOn_intercalate '/' (fun n hn => (h n hn).slash) hne
  have hcons : ('/' :: b).splitOn '/' = [] :: b.splitOn '/' := List.splitOn_append_cons_self [] b
  rw [← heq, hsep, List.splitOn_append_cons_self, hcons] at hsplit
  refine (h [] ?_).ne_nil rfl
  rw [← hsplit]
  exact List.mem_append_right _ List.mem_cons_self

/-! ## The way back -/

section

variable {sha1 : Sha1} {cwd : CurrentDirectory} {recordId : String}

/-- **The way back** leads to the relative path if and only if removing the protocol leaves the
place of the base directory. -/
theorem recordRelativePath_fullPath_iff {rel : Text} (hrel : Normalised rel)
    (baseDirectory : Text) (protocol : Option Text) :
    recordRelativePath sha1 cwd baseDirectory recordId
        (fullPath sha1 baseDirectory recordId rel protocol) = some rel ↔
      SamePlace cwd baseDirectory protocol := by
  have hhash := (plain_hashRecordId sha1 recordId).1
  have hnames : ∀ name ∈ hashRecordId sha1 recordId :: rel.splitOn '/', Plain name :=
    List.forall_mem_cons.mpr ⟨hhash, hrel.plain⟩
  have hhead := head_intercalate_ne hhash (rel.splitOn '/')
  have habsent := separator_not_infix_intercalate hnames (List.cons_ne_nil _ _)
  have hfolder := isFolder_folder baseDirectory protocol
  have hsingle : recordPath sha1 baseDirectory recordId none =
      folder baseDirectory none ++ ['/'].intercalate [hashRecordId sha1 recordId] := by
    rw [recordPath_eq, List.intercalate_singleton]
  have hpath : (removeProtocol (folder baseDirectory protocol)).1 ++
      ['/'].intercalate (hashRecordId sha1 recordId :: rel.splitOn '/') ≠ [] := by
    intro hnil
    rw [(List.append_eq_nil_iff.mp hnil).2] at habsent
    have hempty := (List.append_eq_nil_iff.mp hnil).2
    rw [List.intercalate_cons_of_ne_nil (List.splitOn_ne_nil '/' rel)] at hempty
    exact hhash.ne_nil (List.append_eq_nil_iff.mp (List.append_eq_nil_iff.mp hempty).1).1
  have hgoal := relpath_eq_iff cwd (recordPath sha1 baseDirectory recordId none)
    hpath hrel.plain (List.splitOn_ne_nil '/' rel)
  rw [List.intercalate_splitOn] at hgoal
  -- with the protocol removed, both paths are located from the current directory
  rw [recordRelativePath, fullPath_eq hrel, removeProtocol_append hhead habsent, hgoal,
    locate_append (isFolder_removeProtocol hfolder) hnames (List.cons_ne_nil _ _), hsingle,
    locate_append (isFolder_folder _ _) (List.forall_mem_singleton.mpr hhash)
      (List.cons_ne_nil _ _), SamePlace, List.append_assoc, List.singleton_append]
  exact List.append_left_inj _

end

/-! ## Bases without backslashes -/

/-- A separator does not begin in its own middle. -/
theorem not_infix_dropLast {path : Text} (h : ¬ separator <:+: path) :
    ¬ separator <:+: path ++ separator.dropLast := by
  have hsep : separator = [':', '/', '/'] := by decide
  intro hinfix
  rcases List.infix_append_iff_ne_nil.mp hinfix with
    hinfix | hinfix | ⟨l₁, l₂, hl₁, hl₂, heq, -, hrest⟩
  · exact h hinfix
  · exact absurd hinfix (by decide)
  · obtain ⟨c, l₁', rfl⟩ := List.exists_cons_of_ne_nil hl₁
    obtain ⟨d, l₂', rfl⟩ := List.exists_cons_of_ne_nil hl₂
    obtain ⟨after, hafter⟩ := hrest
    have hdrop : separator.dropLast = [':', '/'] := by decide
    rw [hdrop, List.cons_append, List.cons.injEq] at hafter
    rw [hsep, List.cons_append, List.cons.injEq] at heq
    -- the rest would begin with a colon, and the separator has one colon only
    have hcolon : ':' ∈ ['/', '/'] := by
      rw [heq.2, hafter.1]
      exact List.mem_append_right l₁' List.mem_cons_self
    exact absurd hcolon (by decide)

/-- Without a protocol the folder is that of the base directory. -/
theorem samePlace_of_absent (cwd : CurrentDirectory) {baseDirectory : Text}
    (h : ¬ separator <:+: folder baseDirectory none) : SamePlace cwd baseDirectory none := by
  rw [SamePlace, removeProtocol_of_absent h]

theorem folder_some {protocol : Text} (hne : protocol ≠ []) (baseDirectory : Text) :
    folder baseDirectory (some protocol) =
      forwardSlashes protocol ++ (separator ++ folder baseDirectory none) := by
  have hsep : forwardSlashes separator = separator := by decide
  have hprotocol : buildBasePath baseDirectory (some protocol) =
      protocol ++ (separator ++ baseDirectory) := by
    simp [buildBasePath, Option.filter, hne]
  have hnone : buildBasePath baseDirectory none = baseDirectory := rfl
  simp only [folder, hprotocol, hnone]
  by_cases hnil : baseDirectory = []
  · subst hnil
    have hlast : (protocol ++ (separator ++ [])).getLast? = some '/' := by
      rw [List.append_nil, List.getLast?_append]
      rfl
    have hempty : forwardSlashes [] = [] := rfl
    rw [if_pos (Or.inr hlast), if_pos (Or.inl rfl)]
    simp [hsep, hempty]
  · have hlast : (protocol ++ (separator ++ baseDirectory)).getLast? = baseDirectory.getLast? := by
      obtain ⟨last, hlast⟩ := Option.ne_none_iff_exists'.mp (mt List.getLast?_eq_none_iff.mp hnil)
      simp [List.getLast?_append, hlast]
    have hfull : protocol ++ (separator ++ baseDirectory) ≠ [] :=
      fun heq => hne (List.append_eq_nil_iff.mp heq).1
    rw [hlast]
    simp only [hfull, hnil, false_or]
    split
    · simp [hsep]
    · simp [hsep]

/-- A protocol ends where it should, if no `://` is made of its backslashes. -/
theorem samePlace_of_protocol {cwd : CurrentDirectory} {baseDirectory protocol : Text}
    (hne : protocol ≠ []) (h : ¬ separator <:+: forwardSlashes protocol) :
    SamePlace cwd baseDirectory (some protocol) := by
  rw [SamePlace, folder_some hne, removeProtocol_first (not_infix_dropLast h)]

/-- The slash that closes a folder makes no separator. -/
theorem separator_not_infix_folder {baseDirectory : Text} (h : ¬ separator <:+: baseDirectory)
    (hbackslash : '\\' ∉ baseDirectory) : ¬ separator <:+: folder baseDirectory none := by
  have hnone : buildBasePath baseDirectory none = baseDirectory := rfl
  simp only [folder, hnone, forwardSlashes_of_not_mem hbackslash]
  split
  · exact h
  · rename_i hlast
    intro hinfix
    rcases List.infix_append_iff_ne_nil.mp hinfix with
      hinfix | hinfix | ⟨l₁, l₂, -, hl₂, heq, hpath, hrest⟩
    · exact h hinfix
    · exact absurd hinfix (by decide)
    · -- the base directory would end with ':/'
      have hslash : l₂ = ['/'] := by
        rcases List.prefix_cons_iff.mp hrest with rfl | ⟨t, rfl, ht⟩
        · exact absurd rfl hl₂
        · rw [List.prefix_nil.mp ht]
      have hsep : separator = [':', '/'] ++ ['/'] := by decide
      rw [hsep, hslash] at heq
      obtain ⟨front, hfront⟩ := hpath
      rw [← List.append_cancel_right heq] at hfront
      refine hlast (Or.inr ?_)
      rw [← hfront, List.getLast?_append]
      rfl

/-- **Without backslashes** every base directory and protocol is stripped as it was added. -/
theorem samePlace_of_no_backslash {baseDirectory : Text} {protocol : Option Text}
    (hbase : ¬ separator <:+: baseDirectory) (hprotocol : ∀ p ∈ protocol, ¬ separator <:+: p)
    (hbackslash : '\\' ∉ baseDirectory) (hbackslash' : ∀ p ∈ protocol, '\\' ∉ p)
    (cwd : CurrentDirectory) : SamePlace cwd baseDirectory protocol := by
  have hnone := samePlace_of_absent cwd (separator_not_infix_folder hbase hbackslash)
  cases protocol with
  | none => exact hnone
  | some p =>
    by_cases hne : p = []
    · subst hne
      exact hnone
    · refine samePlace_of_protocol hne ?_
      rw [forwardSlashes_of_not_mem (hbackslash' p rfl)]
      exact hprotocol p rfl

/-! ## Two bases -/

/-- The current directory `/srv`. -/
def sampleDirectory : CurrentDirectory := ⟨"/srv".toList, by decide⟩

/-- A hash of forty letters. -/
def sampleSha1 : Sha1 where
  hexdigest := fun _ => List.replicate 40 'a'
  length := fun _ => by decide
  digits := fun _ c hc => by
    rw [List.eq_of_mem_replicate hc]
    decide

theorem normalised_data : Normalised "bulk/data".toList where
  plain := by
    have hsplit : "bulk/data".toList.splitOn '/' = ["bulk".toList, "data".toList] := by decide
    rw [hsplit]
    refine List.forall_mem_cons.mpr ⟨⟨?_, ?_, ?_, ?_⟩, ?_⟩
    · decide
    · decide
    · decide
    · decide
    · refine List.forall_mem_singleton.mpr ⟨?_, ?_, ?_, ?_⟩ <;> decide
  backslash := by decide

/-- **The root of a drive**: the backslash at its end becomes a slash, and one more follows. -/
theorem drive_root_is_stripped :
    ¬ ∀ (baseDirectory rel : Text) (protocol : Option Text), ¬ separator <:+: baseDirectory →
      (∀ p ∈ protocol, ¬ separator <:+: p) → Normalised rel →
      recordRelativePath sampleSha1 sampleDirectory baseDirectory "opendes:log:1"
        (fullPath sampleSha1 baseDirectory "opendes:log:1" rel protocol) = some rel := by
  intro h
  have hway := h "C:\\".toList "bulk/data".toList none (by decide) nofun normalised_data
  exact absurd hway (by decide)

/-- A path under a protocol is relative to its record. -/
theorem recordRelativePath_fullPath_s3 :
    recordRelativePath sampleSha1 sampleDirectory "data/../bulk".toList "opendes:log:1"
      (fullPath sampleSha1 "data/../bulk".toList "opendes:log:1" "bulk/data".toList
        (some "s3".toList)) = some "bulk/data".toList :=
  (recordRelativePath_fullPath_iff normalised_data _ _).mpr
    (samePlace_of_protocol (by decide) (by decide))

end StoragePath

end WellboreDdms
