import Mathlib.Data.List.Basic
import Mathlib.Data.List.Infix

/-!
# POSIX paths

`os.path` as POSIX has it, on paths as lists of characters.

- `joinPath`, `normpath`, `abspath`, `relpath`: the operations; a current directory is a path
  that begins with a slash.
- `locate`: the names that lead from the root to the place of a path, with the dots resolved.
- `locate_append`: names below a folder lead to a place below the place of the folder.
- `relpath_eq_iff`: a path without dots is the relative one from a place to another if and only
  if it leads there.
-/

namespace Python

namespace Path

/-- A path or a part of one. -/
abbrev Text := List Char

/-- `posixpath.join(a, b)` -/
def joinPath (a b : Text) : Text :=
  if b.head? = some '/' then b
  else if a = [] ∨ a.getLast? = some '/' then a ++ b
  else a ++ '/' :: b

/-- The path begins at the root. -/
def isabs (path : Text) : Bool := path.head? = some '/'

/-- The slashes a normalised path begins with: two are kept, three or more are one. -/
def initialSlashes : Text → Text
  | '/' :: '/' :: '/' :: _ => ['/']
  | '/' :: '/' :: _ => ['/', '/']
  | '/' :: _ => ['/']
  | _ => []

/-- One name of a path, on the names before it, the last one first. -/
def pushName (absolute : Bool) (stack : List Text) (name : Text) : List Text :=
  if name = [] ∨ name = ['.'] then stack
  else if name ≠ ['.', '.'] ∨ (absolute = false ∧ stack = []) ∨ stack.head? = some ['.', '.'] then
    name :: stack
  else stack.tail

/-- The names of a path, without dots where they can be resolved; the last one first. -/
def resolve (path : Text) : List Text := (path.splitOn '/').foldl (pushName (isabs path)) []

/-- The path without its empty names and dots; no names at all are the dot. -/
def normpath (path : Text) : Text :=
  match initialSlashes path ++ ['/'].intercalate (resolve path).reverse with
  | [] => ['.']
  | text => text

/-- `os.getcwd()` -/
structure CurrentDirectory where
  path : Text
  absolute : path.head? = some '/'

/-- The path from the root. -/
def absolute (cwd : CurrentDirectory) (path : Text) : Text :=
  if isabs path then path else joinPath cwd.path path

/-- The path seen from the current directory, normalised. -/
def abspath (cwd : CurrentDirectory) (path : Text) : Text := normpath (absolute cwd path)

/-- The names between the slashes. -/
def parts (path : Text) : List Text := (path.splitOn '/').filter fun name => name ≠ []

/-- The names that lead from the root to the place of a path. -/
def locate (cwd : CurrentDirectory) (path : Text) : List Text := parts (abspath cwd path)

/-- The length of what two lists begin with. -/
def commonLength {α : Type} [DecidableEq α] : List α → List α → Nat
  | a :: as, b :: bs => if a = b then commonLength as bs + 1 else 0
  | _, _ => 0

/-- The names that lead from one place to another. -/
def relativeParts (start path : List Text) : List Text :=
  List.replicate (start.length - commonLength start path) ['.', '.'] ++
    path.drop (commonLength start path)

/-- `os.path.relpath(path, start)`; `none` is the `ValueError`. -/
def relpath (cwd : CurrentDirectory) (path start : Text) : Option Text :=
  if path = [] then none
  else
    match relativeParts (locate cwd start) (locate cwd path) with
    | [] => some ['.']
    | names => some (['/'].intercalate names)

/-- A name that is no dot and has no slash. -/
structure Plain (name : Text) : Prop where
  ne_nil : name ≠ []
  ne_dot : name ≠ ['.']
  ne_dots : name ≠ ['.', '.']
  slash : '/' ∉ name

/-- The empty path, or one that ends with a slash. -/
def IsFolder (path : Text) : Prop := path = [] ∨ ∃ front, path = front ++ ['/']

/-! ## Names and slashes -/

theorem parts_cons_slash (path : Text) : parts ('/' :: path) = parts path := by
  have hsplit : ('/' :: path).splitOn '/' = [] :: path.splitOn '/' :=
    List.splitOn_append_cons_self [] path
  rw [parts, hsplit]
  rfl

theorem parts_initialSlashes (path rest : Text) :
    parts (initialSlashes path ++ rest) = parts rest := by
  unfold initialSlashes
  split
  · exact parts_cons_slash rest
  · exact (parts_cons_slash _).trans (parts_cons_slash rest)
  · exact parts_cons_slash rest
  · rfl

/-- Names joined by slashes are the parts again. -/
theorem parts_intercalate {names : List Text} (h : ∀ name ∈ names, name ≠ [] ∧ '/' ∉ name) :
    parts (['/'].intercalate names) = names := by
  cases names with
  | nil => rfl
  | cons name names =>
    rw [parts, List.splitOn_intercalate '/' (fun n hn => (h n hn).2) (List.cons_ne_nil _ _),
      List.filter_eq_self]
    exact fun n hn => decide_eq_true (h n hn).1

theorem slash_not_mem_of_mem_splitOn {path name : Text} (h : name ∈ path.splitOn '/') :
    '/' ∉ name := by
  induction path generalizing name with
  | nil =>
    rw [List.splitOn_nil, List.mem_singleton] at h
    rw [h]
    exact List.not_mem_nil
  | cons c path ih =>
    by_cases hc : c = '/'
    · subst hc
      have hsplit : ('/' :: path).splitOn '/' = [] :: path.splitOn '/' :=
        List.splitOn_append_cons_self [] path
      rw [hsplit] at h
      rcases List.mem_cons.mp h with rfl | h
      · exact List.not_mem_nil
      · exact ih h
    · obtain ⟨first, rest, hsplit⟩ := List.exists_cons_of_ne_nil (List.splitOn_ne_nil '/' path)
      rw [List.splitOn_cons_eq_if_modifyHead, if_neg (by simpa using hc), hsplit,
        List.modifyHead_cons] at h
      rcases List.mem_cons.mp h with rfl | h
      · intro hmem
        rcases List.mem_cons.mp hmem with heq | hmem
        · exact hc heq.symm
        · exact ih (by rw [hsplit]; exact List.mem_cons_self) hmem
      · exact ih (by rw [hsplit]; exact List.mem_cons_of_mem _ h)

/-- The first name of a relative path begins it. -/
theorem head_intercalate_ne {name : Text} (h : Plain name) (names : List Text) :
    (['/'].intercalate (name :: names)).head? ≠ some '/' := by
  obtain ⟨c, name', rfl⟩ := List.exists_cons_of_ne_nil h.ne_nil
  have hc : c ≠ '/' := fun heq => h.slash (by rw [heq]; exact List.mem_cons_self)
  cases names with
  | nil => simpa [List.intercalate_singleton] using hc
  | cons n names => simpa [List.intercalate_cons_cons] using hc

/-! ## Places -/

/-- What is resolved are names. -/
theorem mem_foldl_pushName {b : Bool} {names stack : List Text} {name : Text}
    (h : name ∈ names.foldl (pushName b) stack) : name ∈ stack ∨ name ∈ names ∧ name ≠ [] := by
  induction names generalizing stack with
  | nil => exact Or.inl h
  | cons n names ih =>
    rw [List.foldl_cons] at h
    rcases ih h with hstack | ⟨hmem, hne⟩
    · unfold pushName at hstack
      split at hstack
      · exact Or.inl hstack
      · rename_i hn
        split at hstack
        · rcases List.mem_cons.mp hstack with rfl | hstack
          · exact Or.inr ⟨List.mem_cons_self, fun hnil => hn (Or.inl hnil)⟩
          · exact Or.inl hstack
        · exact Or.inl (List.mem_of_mem_tail hstack)
    · exact Or.inr ⟨List.mem_cons_of_mem n hmem, hne⟩

/-- The names left after resolving are no empty ones. -/
theorem mem_resolve {path name : Text} (h : name ∈ resolve path) : name ≠ [] ∧ '/' ∉ name := by
  rcases mem_foldl_pushName h with hmem | ⟨hmem, hne⟩
  · cases hmem
  · exact ⟨hne, slash_not_mem_of_mem_splitOn hmem⟩

/-- The parts of a normalised path are the names left. -/
theorem parts_normpath {path : Text} (h : isabs path = true) :
    parts (normpath path) = (resolve path).reverse := by
  have hslash : initialSlashes path ≠ [] := by
    obtain ⟨rest, rfl⟩ := List.head?_eq_some_iff.mp (of_decide_eq_true h)
    unfold initialSlashes
    split
    · exact List.cons_ne_nil _ _
    · exact List.cons_ne_nil _ _
    · exact List.cons_ne_nil _ _
    · rename_i hnot
      exact absurd rfl (hnot rest)
  have hne : initialSlashes path ++ ['/'].intercalate (resolve path).reverse ≠ [] :=
    fun heq => hslash (List.append_eq_nil_iff.mp heq).1
  have htext : normpath path =
      initialSlashes path ++ ['/'].intercalate (resolve path).reverse := by
    unfold normpath
    split
    · exact absurd ‹_› hne
    · rfl
  rw [htext, parts_initialSlashes, parts_intercalate]
  exact fun name hname => mem_resolve (List.mem_reverse.mp hname)

section

variable {cwd : CurrentDirectory}

theorem isabs_absolute (cwd : CurrentDirectory) (path : Text) :
    isabs (absolute cwd path) = true := by
  unfold absolute
  split
  · assumption
  · rename_i hrel
    have hhead : ¬ path.head? = some '/' := fun heq => hrel (decide_eq_true heq)
    obtain ⟨rest, hrest⟩ := List.head?_eq_some_iff.mp cwd.absolute
    unfold joinPath
    rw [if_neg hhead, hrest]
    split
    · rfl
    · rfl

/-- What a path locates: the names left of it. -/
theorem locate_eq (path : Text) : locate cwd path = (resolve (absolute cwd path)).reverse :=
  parts_normpath (isabs_absolute cwd path)

/-- The place of a path has names. -/
theorem mem_locate {path name : Text} (h : name ∈ locate cwd path) : name ≠ [] ∧ '/' ∉ name := by
  rw [locate_eq, List.mem_reverse] at h
  exact mem_resolve h

/-- Below a folder the path from the root is the one of the folder, and the rest. -/
theorem exists_absolute_append (cwd : CurrentDirectory) {folder : Text} (h : IsFolder folder) :
    ∃ front, ∀ rest : Text, rest.head? ≠ some '/' →
      absolute cwd (folder ++ rest) = front ++ '/' :: rest := by
  have hjoin : ∃ front, ∀ rest : Text, rest.head? ≠ some '/' →
      joinPath cwd.path rest = front ++ '/' :: rest := by
    by_cases hlast : cwd.path.getLast? = some '/'
    · obtain ⟨front, hfront⟩ := List.getLast?_eq_some_iff.mp hlast
      refine ⟨front, fun rest hrest => ?_⟩
      rw [joinPath, if_neg hrest, if_pos (Or.inr hlast), hfront]
      simp
    · refine ⟨cwd.path, fun rest hrest => ?_⟩
      have hne : cwd.path ≠ [] := by
        intro hnil
        have hhead := cwd.absolute
        rw [hnil] at hhead
        cases hhead
      rw [joinPath, if_neg hrest, if_neg (not_or.mpr ⟨hne, hlast⟩)]
  rcases h with rfl | ⟨front, rfl⟩
  · obtain ⟨f, hf⟩ := hjoin
    refine ⟨f, fun rest hrest => ?_⟩
    have hrel : isabs rest = false := decide_eq_false hrest
    simp [absolute, hrel, hf rest hrest]
  · -- the folder decides whether the path is absolute
    have hsame : ∀ rest : Text, isabs (front ++ ['/'] ++ rest) = isabs (front ++ ['/']) := by
      intro rest
      cases front <;> rfl
    cases habs : isabs (front ++ ['/']) with
    | true =>
      refine ⟨front, fun rest _ => ?_⟩
      rw [absolute, hsame, habs]
      simp
    | false =>
      obtain ⟨f, hf⟩ := hjoin
      refine ⟨f ++ '/' :: front, fun rest _ => ?_⟩
      have hhead : (front ++ ['/'] ++ rest).head? ≠ some '/' :=
        of_decide_eq_false ((hsame rest).trans habs)
      rw [absolute, hsame, habs, if_neg Bool.false_ne_true, hf _ hhead]
      simp

/-- Plain names are pushed one after the other. -/
theorem foldl_pushName_plain {names : List Text} (h : ∀ name ∈ names, Plain name)
    (stack : List Text) : names.foldl (pushName true) stack = names.reverse ++ stack := by
  induction names generalizing stack with
  | nil => rfl
  | cons name names ih =>
    obtain ⟨hname, hnames⟩ := List.forall_mem_cons.mp h
    have hpush : pushName true stack name = name :: stack := by
      rw [pushName, if_neg (not_or.mpr ⟨hname.ne_nil, hname.ne_dot⟩), if_pos (Or.inl hname.ne_dots)]
    rw [List.foldl_cons, hpush, ih hnames]
    simp

/-- **Names below a folder.** -/
theorem locate_append {folder : Text} (hfolder : IsFolder folder) {names : List Text}
    (hnames : ∀ name ∈ names, Plain name) (hne : names ≠ []) :
    locate cwd (folder ++ ['/'].intercalate names) = locate cwd folder ++ names := by
  obtain ⟨front, hfront⟩ := exists_absolute_append cwd hfolder
  obtain ⟨name, rest, rfl⟩ := List.exists_cons_of_ne_nil hne
  have hhead := head_intercalate_ne (hnames name List.mem_cons_self) rest
  have hfull := hfront _ hhead
  have hbase := hfront [] nofun
  rw [List.append_nil] at hbase
  have habs := isabs_absolute cwd (folder ++ ['/'].intercalate (name :: rest))
  have habs' := isabs_absolute cwd folder
  rw [locate_eq, locate_eq, resolve, resolve, habs, habs', hfull, hbase,
    List.splitOn_append_cons_self, List.splitOn_append_cons_self,
    List.splitOn_intercalate '/' (fun n hn => (hnames n hn).slash) hne, List.foldl_append,
    List.foldl_append, foldl_pushName_plain hnames, List.splitOn_nil]
  simp [pushName]

end

/-! ## Relative paths -/

section

variable {α : Type} [DecidableEq α]

/-- The common parts are no more than there are. -/
theorem commonLength_le (as bs : List α) : commonLength as bs ≤ as.length := by
  induction as generalizing bs with
  | nil => exact Nat.le_refl 0
  | cons a as ih =>
    cases bs with
    | nil => exact Nat.zero_le _
    | cons b bs =>
      rw [commonLength]
      split
      · exact Nat.succ_le_succ (ih bs)
      · exact Nat.zero_le _

theorem take_commonLength (as bs : List α) :
    as.take (commonLength as bs) = bs.take (commonLength as bs) := by
  induction as generalizing bs with
  | nil => simp [commonLength]
  | cons a as ih =>
    cases bs with
    | nil => simp [commonLength]
    | cons b bs =>
      rw [commonLength]
      split
      · rename_i hab
        rw [List.take_succ_cons, List.take_succ_cons, hab, ih bs]
      · rfl

/-- A path within a folder has the whole folder in common with it. -/
theorem commonLength_append (as bs : List α) : commonLength as (as ++ bs) = as.length := by
  induction as with
  | nil => cases bs <;> rfl
  | cons a as ih => simp [commonLength, ih]

end

/-- Names without dots lead from one place to another if and only if that one is below. -/
theorem relativeParts_eq_iff {start path names : List Text} (h : ['.', '.'] ∉ names) :
    relativeParts start path = names ↔ path = start ++ names := by
  constructor
  · intro heq
    have hle := commonLength_le start path
    -- no step up is left, so all of the start is common
    have hall : start.length - commonLength start path = 0 := by
      by_contra hpos
      refine h ?_
      rw [← heq, relativeParts]
      exact List.mem_append_left _ (List.mem_replicate.mpr ⟨hpos, rfl⟩)
    have hlength : commonLength start path = start.length := by omega
    have htake := take_commonLength start path
    rw [hlength, List.take_length] at htake
    rw [relativeParts, hall, hlength, List.replicate_zero, List.nil_append] at heq
    calc path = path.take start.length ++ path.drop start.length :=
          (List.take_append_drop _ _).symm
      _ = start ++ names := by rw [← htake, heq]
  · rintro rfl
    rw [relativeParts, commonLength_append]
    simp

/-- **The relative path**: one without dots is found if and only if it leads from the one place
to the other. -/
theorem relpath_eq_iff (cwd : CurrentDirectory) {path : Text} (start : Text) {names : List Text}
    (hpath : path ≠ []) (hnames : ∀ name ∈ names, Plain name) (hne : names ≠ []) :
    relpath cwd path start = some (['/'].intercalate names) ↔
      locate cwd path = locate cwd start ++ names := by
  have hdots : ['.', '.'] ∉ names := fun hmem => (hnames _ hmem).ne_dots rfl
  rw [← relativeParts_eq_iff hdots, relpath, if_neg hpath]
  have hslash : ∀ name ∈ relativeParts (locate cwd start) (locate cwd path), '/' ∉ name := by
    intro name hname
    rcases List.mem_append.mp hname with hup | hdown
    · rw [(List.mem_replicate.mp hup).2]
      decide
    · exact (mem_locate (List.mem_of_mem_drop hdown)).2
  cases hrel : relativeParts (locate cwd start) (locate cwd path) with
  | nil =>
    refine ⟨fun heq => ?_, fun heq => absurd heq.symm hne⟩
    -- the path is the dot, which is no plain name
    have hsplit := congrArg (fun text => text.splitOn '/') (Option.some.inj heq)
    simp only [List.splitOn_intercalate '/' (fun n hn => (hnames n hn).slash) hne] at hsplit
    have hdot : ['.'].splitOn '/' = [['.']] := by decide
    rw [hdot] at hsplit
    exact absurd rfl (hnames ['.'] (by rw [← hsplit]; exact List.mem_cons_self)).ne_dot
  | cons name rest =>
    rw [hrel] at hslash
    constructor
    · intro heq
      have hsplit := congrArg (fun text => text.splitOn '/') (Option.some.inj heq)
      simp only [List.splitOn_intercalate '/' (fun n hn => (hnames n hn).slash) hne] at hsplit
      rwa [List.splitOn_intercalate '/' hslash (List.cons_ne_nil _ _)] at hsplit
    · intro heq
      rw [← heq]

end Path

end Python
