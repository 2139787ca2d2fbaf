import Mathlib.Data.Set.Insert
import WellboreDdms.Machine.Effect
import WellboreDdms.Python.Dict
import WellboreDdms.Python.Path
import WellboreDdms.Python.Text
import WellboreDdms.Records.Record

/-!
# Files of bulk data

A dataframe is exported to a file, or to bytes, and given to the body of an `async with` block
as a blob. The file is removed after the block.

- `createAndWriteBlob`: the context manager; `createAndStoreDataframe`: its only caller.
- `LeavesNoTrace`: the files of a directory are the ones before, and the exception of the body
  comes out as it is.
- `createAndWriteBlob_leavesNoTrace_iff`: when it does so, in terms of what the exporter and the
  body do. The removal stands after the `yield`, and nothing else removes.
- `createAndStoreDataframe_files_iff`: the file of a dataframe stays if it is not stored.
-/

namespace WellboreDdms

open Python Machine

/-- The files there are, with their bytes. -/
abbrev Files := String → Option (List UInt8)

namespace Files

/-- The files of a directory, which is given by the paths in it. -/
def names (dir : Set String) (files : Files) : Set String := {p | p ∈ dir ∧ (files p).isSome}

/-- A file is written. -/
def write (files : Files) (path : String) (bytes : List UInt8) : Files := fun p =>
  if p = path then some bytes else files p

/-- A file is removed. -/
def erase (files : Files) (path : String) : Files := fun p => if p = path then none else files p

/-- `open(path, 'rb')`, with what is read from it. -/
def openRead (path : String) : Effect Files Raised (List UInt8) := fun files =>
  match files path with
  | some bytes => (.ok bytes, files)
  | none => (.error (.other "FileNotFoundError"), files)

/-- `os.remove` -/
def remove (path : String) : Effect Files Raised Unit := fun files =>
  match files path with
  | some _ => (.ok (), files.erase path)
  | none => (.error (.other "FileNotFoundError"), files)

theorem names_write {dir : Set String} {path : String} (h : path ∈ dir) (files : Files)
    (bytes : List UInt8) : (files.write path bytes).names dir = insert path (files.names dir) := by
  ext p
  by_cases heq : p = path
  · subst heq
    simp [names, write, h]
  · simp [names, write, heq]

theorem names_erase (dir : Set String) (files : Files) (path : String) :
    (files.erase path).names dir = files.names dir \ {path} := by
  ext p
  by_cases heq : p = path
  · subst heq
    simp [names, erase]
  · simp [names, erase, heq]

end Files

/-! ## Exporters -/

/-- A type of content and its file extension. -/
structure MimeType where
  type : String
  extension : String

/-- What an exporter returns in the first place: a path, bytes, or something else with its
representation. -/
inductive Source where
  | path (file : String)
  | bytes (data : List UInt8)
  | other (repr : String)

/-- What is stored beside the blob. -/
abbrev Metadata := Dict String String

/-- A writer: a coroutine function or a plain one. It has its effects on the files, and they stay
when it raises. -/
structure WriterFn (δ : Type) where
  isCoroutineFunction : Bool
  call : String → δ → Effect Files Raised (Source × Option Metadata)

/-- How a frame becomes a file. -/
structure BlobFileExporter (δ : Type) where
  mimeType : MimeType
  writerFn : WriterFn δ

/-- An executor runs a call elsewhere; it may raise of its own. -/
structure Executor where
  run : Effect Files Raised (Source × Option Metadata) →
    Effect Files Raised (Source × Option Metadata)

/-- What is uploaded. -/
structure BlobBulk where
  id : String
  data : List UInt8
  contentType : Option String
  metadata : Metadata

/-- The arguments of `create_and_write_blob`. -/
structure Export (δ : Type) where
  table : δ
  fileExporter : Option (BlobFileExporter δ)
  outDir : Option String := none
  blobId : Option String := none
  executor : Option Executor
  customExportToFileFn : Option (WriterFn δ) := none

/-- A failed assertion. -/
def assertionError : Raised := .other "AssertionError"

/-- `a or b`, for texts. -/
def textOr (a : Option String) (b : String) : String :=
  match a with
  | some a => if a = "" then b else a
  | none => b

/-- `os.path.join` -/
def joinText (a b : String) : String := String.ofList (Path.joinPath a.toList b.toList)

section

variable {δ ω : Type} (tempDir uuid4 : String)

/-- The writer, run by the executor. -/
def runExportToFileInExecutor (filename : String) (dataframe : δ) (executor : Executor)
    (exporterFn : WriterFn δ) : Effect Files Raised (Source × Option Metadata) :=
  executor.run (exporterFn.call filename dataframe)

namespace Export

variable (a : Export δ)

/-- The id of the blob, or one drawn for it. -/
def id : String := textOr a.blobId uuid4

/-- The file that is written to. -/
def outPath (fileExporter : BlobFileExporter δ) : String :=
  joinText (textOr a.outDir tempDir) (a.id uuid4 ++ fileExporter.mimeType.extension)

/-- The code up to `file_meta_pair`. An exporter of its own does not spare the mime type. -/
def fileMetaPair : Effect Files Raised (Source × Option Metadata) :=
  if a.fileExporter.isNone ∧ a.customExportToFileFn.isNone then Effect.raise assertionError
  else
    match a.fileExporter with
    | none => Effect.raise .typeError
    | some fileExporter =>
      let outPath := a.outPath tempDir uuid4 fileExporter
      let exportToFileFunction := a.customExportToFileFn.getD fileExporter.writerFn
      match a.executor with
      | none => exportToFileFunction.call outPath a.table
      | some executor =>
        if exportToFileFunction.isCoroutineFunction then Effect.raise assertionError
        else runExportToFileInExecutor outPath a.table executor exportToFileFunction

end Export

/-- The first value whose key reads `contenttype`, without hyphens. -/
def contentType (metadata : Metadata) : Option String :=
  (metadata.find? fun item =>
    lower (String.ofList (removeAll ['-'] item.1.toList)) = "contenttype").map Prod.snd

/-- The blob of what was exported. -/
def Export.blob (a : Export δ) (metadata : Option Metadata) (data : List UInt8) : BlobBulk :=
  let metadata := metadata.getD []
  { id := a.id uuid4, data := data, contentType := contentType metadata, metadata := metadata }

/-- The code from `file_meta_pair` to the `yield`, and after it. -/
def Export.yieldBlob (a : Export δ) (source : Source) (metadata : Option Metadata) :
    Effect (Files × ω) Raised (Effect.Yielded (Files × ω) Raised BlobBulk) :=
  match source with
  | .path file => do
    let data ← Effect.onFst (Files.openRead file)
    -- clean up
    pure { value := a.blob uuid4 metadata data, resume := Effect.onFst (Files.remove file) }
  | .bytes data => pure { value := a.blob uuid4 metadata data, resume := pure () }
  | .other repr =>
    Effect.raise
      (.runtimeError ("unexpected type " ++ repr ++ " returned by bulk exporter function"))

/-- `create_and_write_blob`, up to its yield. -/
def createAndWriteBlob (a : Export δ) :
    Effect (Files × ω) Raised (Effect.Yielded (Files × ω) Raised BlobBulk) := do
  let (source, metadata) ← Effect.onFst (a.fileMetaPair tempDir uuid4)
  a.yieldBlob uuid4 source metadata

/-- The writer of `BlobFileExporters.PARQUET`, over the one of pyarrow. -/
def exportToParquet (writeTable : String → δ → Effect Files Raised Unit) : WriterFn δ where
  isCoroutineFunction := false
  call := fun path dataframe => do
    writeTable path dataframe
    pure (.path path, some [("content_type", "application/x-parquet")])

/-- The exporter of parquet files. -/
def parquet (writeTable : String → δ → Effect Files Raised Unit) : BlobFileExporter δ where
  mimeType := { type := "application/x-parquet", extension := ".parquet" }
  writerFn := exportToParquet writeTable

end

/-! ## What a block leaves -/

section

variable {δ ω α : Type} (tempDir uuid4 : String) (dir : Set String)

/-- The block, whose body does not touch the files. -/
def withBlob (a : Export δ) (body : BlobBulk → Effect ω Raised α) : Effect (Files × ω) Raised α :=
  Effect.asyncWith (createAndWriteBlob tempDir uuid4 a) fun blob => Effect.onSnd (body blob)

/-- The files of the directory are the ones before, and an exception of the body comes out as
it is. -/
structure LeavesNoTrace (a : Export δ) (body : BlobBulk → Effect ω Raised α) (files : Files)
    (rest : ω) : Prop where
  names : (withBlob tempDir uuid4 a body (files, rest)).2.1.names dir = files.names dir
  propagates : ∀ yielded s e t,
    createAndWriteBlob tempDir uuid4 a (files, rest) = (.ok yielded, s) →
    body yielded.value s.2 = (.error e, t) →
    (withBlob tempDir uuid4 a body (files, rest)).1 = .error e

/-- What the exporter leaves is as before; but a file it names is removed if the body returns. -/
def CleanedUp (a : Export δ) (body : BlobBulk → Effect ω Raised α) (files : Files) (rest : ω) :
    Prop :=
  match a.fileMetaPair tempDir uuid4 files with
  | (.ok (.path file, metadata), after) =>
    match after file with
    | some data =>
      match body (a.blob uuid4 metadata data) rest with
      | (.ok _, _) => after.names dir \ {file} = files.names dir
      | (.error _, _) => after.names dir = files.names dir
    | none => after.names dir = files.names dir
  | (_, after) => after.names dir = files.names dir

variable {tempDir uuid4 dir} {a : Export δ} {body : BlobBulk → Effect ω Raised α} {files : Files}
  {rest : ω}

/-- The exception of the body is not caught. -/
theorem withBlob_propagates {yielded : Effect.Yielded (Files × ω) Raised BlobBulk}
    {s : Files × ω} {e : Raised} {t : ω}
    (henter : createAndWriteBlob tempDir uuid4 a (files, rest) = (.ok yielded, s))
    (hbody : body yielded.value s.2 = (.error e, t)) :
    withBlob tempDir uuid4 a body (files, rest) = (.error e, (s.1, t)) := by
  refine Effect.asyncWith_error henter ?_
  show ((body yielded.value s.2).1, (s.1, (body yielded.value s.2).2)) = _
  rw [hbody]

section

variable {after : Files} {metadata : Option Metadata}

theorem createAndWriteBlob_error {e : Raised}
    (h : a.fileMetaPair tempDir uuid4 files = (.error e, after)) :
    createAndWriteBlob tempDir uuid4 a (files, rest) = (.error e, (after, rest)) := by
  refine Effect.bind_of_error ?_
  rw [Effect.onFst, h]

theorem createAndWriteBlob_bind {source : Source}
    (h : a.fileMetaPair tempDir uuid4 files = (.ok (source, metadata), after)) :
    createAndWriteBlob tempDir uuid4 a (files, rest) =
      a.yieldBlob uuid4 source metadata (after, rest) := by
  have hfst : (Effect.onFst (a.fileMetaPair tempDir uuid4) :
      Effect (Files × ω) Raised (Source × Option Metadata)) (files, rest) =
      (.ok (source, metadata), (after, rest)) := by
    rw [Effect.onFst, h]
  exact Effect.bind_of_ok hfst

/-- A file that is there is opened, and is removed later. -/
theorem createAndWriteBlob_path {file : String} {data : List UInt8}
    (h : a.fileMetaPair tempDir uuid4 files = (.ok (.path file, metadata), after))
    (hfile : after file = some data) :
    createAndWriteBlob tempDir uuid4 a (files, rest) =
      (.ok { value := a.blob uuid4 metadata data, resume := Effect.onFst (Files.remove file) },
        (after, rest)) := by
  have hopen : (Effect.onFst (Files.openRead file) : Effect (Files × ω) Raised (List UInt8))
      (after, rest) = (.ok data, (after, rest)) := by
    simp only [Effect.onFst, Files.openRead, hfile]
  rw [createAndWriteBlob_bind h]
  exact Effect.bind_of_ok hopen

theorem createAndWriteBlob_missing {file : String}
    (h : a.fileMetaPair tempDir uuid4 files = (.ok (.path file, metadata), after))
    (hfile : after file = none) :
    createAndWriteBlob tempDir uuid4 a (files, rest) =
      (.error (.other "FileNotFoundError"), (after, rest)) := by
  have hopen : (Effect.onFst (Files.openRead file) : Effect (Files × ω) Raised (List UInt8))
      (after, rest) = (.error (.other "FileNotFoundError"), (after, rest)) := by
    simp only [Effect.onFst, Files.openRead, hfile]
  rw [createAndWriteBlob_bind h]
  exact Effect.bind_of_error hopen

/-- **A body that returns**: the file is removed. -/
theorem withBlob_path_ok {file : String} {data : List UInt8} {result : α} {t : ω}
    (h : a.fileMetaPair tempDir uuid4 files = (.ok (.path file, metadata), after))
    (hfile : after file = some data)
    (hbody : body (a.blob uuid4 metadata data) rest = (.ok result, t)) :
    withBlob tempDir uuid4 a body (files, rest) = (.ok result, (after.erase file, t)) := by
  have hreturn : Effect.onSnd (body (a.blob uuid4 metadata data)) (after, rest) =
      (.ok result, (after, t)) := by
    rw [Effect.onSnd, hbody]
  have hremove : (Effect.onFst (Files.remove file) : Effect (Files × ω) Raised Unit) (after, t) =
      (.ok (), (after.erase file, t)) := by
    simp only [Effect.onFst, Files.remove, hfile]
  exact (Effect.asyncWith_ok (createAndWriteBlob_path h hfile) hreturn).trans
    (Effect.bind_of_ok hremove)

/-- A body that returns, of a blob in memory. -/
theorem withBlob_bytes_ok {data : List UInt8} {result : α} {t : ω}
    (h : a.fileMetaPair tempDir uuid4 files = (.ok (.bytes data, metadata), after))
    (hbody : body (a.blob uuid4 metadata data) rest = (.ok result, t)) :
    withBlob tempDir uuid4 a body (files, rest) = (.ok result, (after, t)) := by
  have hreturn : Effect.onSnd (body (a.blob uuid4 metadata data)) (after, rest) =
      (.ok result, (after, t)) := by
    rw [Effect.onSnd, hbody]
  exact Effect.asyncWith_ok (createAndWriteBlob_bind h) hreturn

end

/-- **What a block leaves**: the files are the ones before, and the exception of the body comes
out, if and only if the exporter and the body are such that nothing is left to remove. -/
theorem createAndWriteBlob_leavesNoTrace_iff :
    LeavesNoTrace tempDir uuid4 dir a body files rest ↔
      CleanedUp tempDir uuid4 dir a body files rest := by
  have hnames : LeavesNoTrace tempDir uuid4 dir a body files rest ↔
      (withBlob tempDir uuid4 a body (files, rest)).2.1.names dir = files.names dir :=
    ⟨LeavesNoTrace.names, fun h => ⟨h, fun _ _ _ _ henter hbody => by
      rw [withBlob_propagates henter hbody]⟩⟩
  rw [hnames, CleanedUp]
  -- the file is removed only where a blob was yielded and the body returned
  rcases hpair : a.fileMetaPair tempDir uuid4 files with ⟨outcome, after⟩
  cases outcome with
  | error e => rw [withBlob, Effect.asyncWith_enter_error (createAndWriteBlob_error hpair)]
  | ok pair =>
    obtain ⟨source, metadata⟩ := pair
    cases source with
    | path file =>
      cases hfile : after file with
      -- the exported file is not there, and nothing is yielded
      | none =>
        rw [withBlob, Effect.asyncWith_enter_error (createAndWriteBlob_missing hpair hfile)]
        simp only [hfile]
      | some data =>
        rcases hbody : body (a.blob uuid4 metadata data) rest with ⟨returned, t⟩
        cases returned with
        | ok result =>
          rw [withBlob_path_ok hpair hfile hbody, Files.names_erase]
          simp only [hfile, hbody]
        | error e =>
          rw [withBlob_propagates (createAndWriteBlob_path hpair hfile) hbody]
          simp only [hfile, hbody]
    -- a blob in memory has no file to remove
    | bytes data =>
      rcases hbody : body (a.blob uuid4 metadata data) rest with ⟨returned, t⟩
      cases returned with
      | ok result => rw [withBlob_bytes_ok hpair hbody]
      | error e => rw [withBlob_propagates (createAndWriteBlob_bind hpair) hbody]
    | other repr => rw [withBlob, Effect.asyncWith_enter_error (createAndWriteBlob_bind hpair)]

end

/-! ## A file that is written -/

section

variable {δ ω α τ ρ : Type} (tempDir uuid4 : String) (dir : Set String)

/-- The exporter writes a file of the directory, where there was none. -/
structure WritesFile (a : Export δ) (files : Files) (file : String) (bytes : List UInt8)
    (metadata : Option Metadata) : Prop where
  exported : a.fileMetaPair tempDir uuid4 files =
    (.ok (.path file, metadata), files.write file bytes)
  inside : file ∈ dir
  isNew : files file = none

/-- **A file that was written** is removed if and only if the body returns, and then the block
does. -/
theorem withBlob_written_iff {a : Export δ} {files : Files} {file : String} {bytes : List UInt8}
    {metadata : Option Metadata} (h : WritesFile tempDir uuid4 dir a files file bytes metadata)
    (body : BlobBulk → Effect ω Raised α) (rest : ω) :
    (withBlob tempDir uuid4 a body (files, rest)).2.1.names dir = files.names dir ↔
      ∃ result, (withBlob tempDir uuid4 a body (files, rest)).1 = .ok result := by
  have hfile : files.write file bytes file = some bytes := by simp [Files.write]
  have habsent : file ∉ files.names dir := by simp [Files.names, h.isNew]
  have hwritten := Files.names_write h.inside files bytes
  rcases hbody : body (a.blob uuid4 metadata bytes) rest with ⟨returned, t⟩
  cases returned with
  | ok result =>
    rw [withBlob_path_ok h.exported hfile hbody, Files.names_erase, hwritten,
      Set.insert_sdiff_self_of_notMem habsent]
    exact ⟨fun _ => ⟨result, rfl⟩, fun _ => rfl⟩
  | error e =>
    rw [withBlob_propagates (createAndWriteBlob_path h.exported hfile) hbody, hwritten]
    constructor
    · intro heq
      exact absurd (heq ▸ Set.mem_insert file (files.names dir)) habsent
    · rintro ⟨result, hresult⟩
      cases hresult

/-- The body of `create_and_store_dataframe`. -/
def storeBlob (getStorage : Effect ω Raised ρ) (upload : ρ → τ → BlobBulk → Effect ω Raised Unit)
    (tenant : τ) (bulkblob : BlobBulk) : Effect ω Raised String := do
  let storage ← getStorage
  upload storage tenant bulkblob
  pure bulkblob.id

/-- The arguments `create_and_store_dataframe` gives. -/
def bulkExport (parquet : BlobFileExporter δ) (executor : Option Executor) (bulkId : String)
    (df : δ) : Export δ :=
  { table := df, fileExporter := some parquet, blobId := some bulkId, executor := executor }

/-- `create_and_store_dataframe`. -/
def createAndStoreDataframe (parquet : BlobFileExporter δ) (executor : Option Executor)
    (bulkId : String) (resolveTenant : Effect ω Raised τ) (getStorage : Effect ω Raised ρ)
    (upload : ρ → τ → BlobBulk → Effect ω Raised Unit) (df : δ) :
    Effect (Files × ω) Raised String := do
  let tenant ← Effect.onSnd resolveTenant
  withBlob tempDir uuid4 (bulkExport parquet executor bulkId df)
    (storeBlob getStorage upload tenant)

/-- **The file of a dataframe** that is exported is left behind if and only if it is not
stored. -/
theorem createAndStoreDataframe_files_iff {parquet : BlobFileExporter δ}
    {executor : Option Executor} {bulkId : String} {df : δ} {files : Files} {file : String}
    {bytes : List UInt8} {metadata : Option Metadata}
    (h : WritesFile tempDir uuid4 dir (bulkExport parquet executor bulkId df) files file bytes
      metadata)
    {resolveTenant : Effect ω Raised τ} {rest rest' : ω} {tenant : τ}
    (htenant : resolveTenant rest = (.ok tenant, rest')) (getStorage : Effect ω Raised ρ)
    (upload : ρ → τ → BlobBulk → Effect ω Raised Unit) :
    let stored := createAndStoreDataframe tempDir uuid4 parquet executor bulkId resolveTenant
      getStorage upload df (files, rest)
    stored.2.1.names dir = files.names dir ↔ ∃ id, stored.1 = .ok id := by
  have hresolve : (Effect.onSnd resolveTenant : Effect (Files × ω) Raised τ) (files, rest) =
      (.ok tenant, (files, rest')) := by
    rw [Effect.onSnd, htenant]
  have hrun : createAndStoreDataframe tempDir uuid4 parquet executor bulkId resolveTenant
      getStorage upload df (files, rest) =
      withBlob tempDir uuid4 (bulkExport parquet executor bulkId df)
        (storeBlob getStorage upload tenant) (files, rest') :=
    Effect.bind_of_ok hresolve
  rw [hrun]
  exact withBlob_written_iff tempDir uuid4 dir h _ _

end

/-! ## A body that raises -/

/-- A writer that puts an empty file where it is told to. -/
def touch : BlobFileExporter Unit := parquet fun path _ files => (.ok (), files.write path [])

/-- A file without content. -/
def touched : Export Unit := bulkExport touch none "blob" ()

theorem touched_writesFile :
    WritesFile "/tmp" "blob" {"/tmp/blob.parquet"} touched (fun _ => none) "/tmp/blob.parquet" []
      (some [("content_type", "application/x-parquet")]) where
  exported := by
    have hpath : touched.outPath "/tmp" "blob" touch = "/tmp/blob.parquet" := by decide
    show touch.writerFn.call (touched.outPath "/tmp" "blob" touch) () _ = _
    rw [hpath]
    rfl
  inside := rfl
  isNew := rfl

/-- **The removal is in no `finally`**: a body that raises leaves its file behind. -/
theorem file_left_behind :
    ¬ ∀ (tempDir uuid4 : String) (dir : Set String) (a : Export Unit)
      (body : BlobBulk → Effect Unit Raised Unit) (files : Files),
      LeavesNoTrace tempDir uuid4 dir a body files () := by
  intro h
  have hnames := (h "/tmp" "blob" {"/tmp/blob.parquet"} touched
    (fun _ => Effect.raise (.unexpectedResponse 500)) fun _ => none).names
  obtain ⟨result, hresult⟩ := (withBlob_written_iff _ _ _ touched_writesFile _ _).mp hnames
  rw [withBlob_propagates (createAndWriteBlob_path touched_writesFile.exported rfl) rfl] at hresult
  cases hresult

end WellboreDdms
