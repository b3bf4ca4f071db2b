import DocGraph.Project.Load
import DocGraph.Proofs.Roots

namespace DocGraph

/-!
# Loading from files that stay as they are

Loading opens a file at most once, so what it finds depends on what has been opened before:

* `Archive`, `Archive.SameFile` — files that stay as they are; two paths may lead to one of them;
* `Archive.seen`, `Archive.mark`, `Archive.visit` — what has been opened, and what is opened then;
* `Archive.fresh` — paths less those of files that have been opened, be it through an earlier path;
* `Archive.loadFile_noting`, `Archive.mapM_loadFile_noting`, `Archive.load_noting_of_ok` — the
  steps: loading one file, loading many, and loading a directory;
* `Archive.load`, `Archive.opened` — what comes of loading a directory, and what is opened then;
* `Archive.load_of_seen`, `Archive.load_of_error`, `Archive.load_of_ok` — with an index opened
  before, without an index, and with an index.
-/

/-- Files that stay as they are. -/
structure Archive where
  /-- The one path that stands for all paths of a file. -/
  canonical : String → Except IoError String
  /-- Open a file by that path. -/
  openFile : String → Except IoError FileBody

namespace Archive

/-- Access to the files that makes a note of the path whenever a file is to be opened. -/
def noting {m : Type → Type} [Monad m] (a : Archive) (note : String → m Unit) : FileAccess m where
  canonical path := pure (a.canonical path)
  openFile path := do
    note path
    return a.openFile path

/-- Access to the files. -/
def access (a : Archive) : FileAccess Id where
  canonical := a.canonical
  openFile := a.openFile

/-- Access to the files, with a log of the paths by which files are opened. -/
def logged (a : Archive) : FileAccess (StateM (List String)) :=
  a.noting fun path => modify (· ++ [path])

/-- The canonical path of a file, if it has one. -/
def place? (a : Archive) (path : String) : Option String := (a.canonical path).toOption

/-- Two paths lead to one file if their canonical paths are the same, component by component. -/
def SameFile (a : Archive) (path path' : String) : Prop :=
  ∃ place ∈ a.place? path, ∃ place' ∈ a.place? path',
    FilePath.components place = FilePath.components place'

instance (a : Archive) (path path' : String) : Decidable (a.SameFile path path') :=
  inferInstanceAs (Decidable (∃ place ∈ a.place? path, ∃ place' ∈ a.place? path',
    FilePath.components place = FilePath.components place'))

end Archive

/-! ### The parts of loading -/

namespace Project

variable {m : Type → Type} [Monad m]

theorem run_liftM {α : Type} (x : Except Failure α) : (liftM x : Loading m α).run = pure x := by
  cases x <;> rfl

/-- Loading a file is opening it once and reading what has been opened. -/
theorem run_loadFile [LawfulMonad m] (files : FileAccess m) (path : String) (v : Visits) :
    (loadFile files path).run.run v = do
      let (result, v) ← files.openOnce path v
      return (result.mapError (.inaccessible path) >>= rootOf? path, v) := by
  have hopen : (openFile files path).run.run v = do
      let (result, v) ← files.openOnce path v
      return (result.mapError (.inaccessible path), v) := rfl
  rw [loadFile, ExceptT.run_bind, StateT.run_bind, hopen, bind_assoc]
  refine congrArg _ (funext fun r => ?_)
  rw [pure_bind]
  cases hr : r.1 with
  | error e => simp [hr, Except.mapError, bind, Except.bind]
  | ok opened => simp [hr, Except.mapError, run_liftM, bind, Except.bind]

/-- The path of the index of a directory. -/
def indexPath (settings : Settings) (directory : String) : String :=
  FilePath.join directory settings.indexFile

/-- The paths of the files that an index lists. -/
def listedPaths (directory : String) (catalog : Catalog) : List String :=
  catalog.entries.map fun entry => FilePath.join directory entry.fileName

/-- Loading a directory is loading its index and then the files that the index lists. -/
theorem run_load [LawfulMonad m] (files : FileAccess m) (settings : Settings) (directory : String)
    (v : Visits) :
    (load files settings directory).run.run v = do
      let (index, v) ← (loadFile files (indexPath settings directory)).run.run v
      match index >>= catalogOf with
      | .error cause => return (.error cause, v)
      | .ok catalog =>
        let (roots, v) ← ((listedPaths directory catalog).mapM (loadFile files)).run.run v
        return (roots.map fun roots => ⟨catalog, roots.filterMap id⟩, v) := by
  -- Both sides bind the same action; they are compared for each of its outcomes.
  rw [load, ExceptT.run_bind, StateT.run_bind]
  refine congrArg _ (funext fun r => ?_)
  obtain ⟨index, v⟩ := r
  cases index with
  | error cause => simp [bind, Except.bind]
  | ok index =>
    dsimp only
    rw [ExceptT.run_bind, run_liftM, pure_bind, Except.ok_bind]
    cases catalogOf index with
    | error cause => rfl
    | ok catalog =>
      dsimp only
      rw [listedPaths, List.mapM_map, ExceptT.run_bind, StateT.run_bind]
      refine congrArg _ (funext fun r => ?_)
      obtain ⟨roots, v⟩ := r
      cases roots <;> rfl

end Project

namespace Archive

/-! ### One file -/

/-- The root of the file at a path, if nothing has been opened before. -/
def rootAt (a : Archive) (path : String) : Except Failure Element := do
  let body ← (a.canonical path >>= a.openFile).mapError (.inaccessible path)
  let bytes ← body.mapError (Failure.unreadable path)
  (Markup.parse bytes).mapError (Failure.malformed path)

/-- Whether the file at a path has been opened. -/
def seen (a : Archive) (v : Visits) (path : String) : Bool := (a.place? path).any v.contains

/-- The files opened when the one at a path has been, too. -/
def mark (a : Archive) (v : Visits) (path : String) : Visits := (a.place? path).elim v v.insert

/-- The files opened after an attempt to open the one at a path. -/
def visit (a : Archive) (v : Visits) (path : String) : Visits :=
  if (a.canonical path >>= a.openFile).isOk then a.mark v path else v

theorem visit_of_rootAt {a : Archive} {path : String} {root : Element}
    (hroot : a.rootAt path = .ok root) (v : Visits) : a.visit v path = a.mark v path := by
  obtain ⟨body, hbody, -⟩ := Except.bind_eq_ok_iff.mp hroot
  rw [visit, Except.mapError_eq_ok_iff.mp hbody]
  rfl

/-- What has been opened holds the root of its file. -/
theorem rootOf?_opened (a : Archive) (path : String) :
    ((a.canonical path >>= a.openFile).map .first).mapError (.inaccessible path)
      >>= Project.rootOf? path = (a.rootAt path).map some := by
  rw [rootAt]
  cases a.canonical path >>= a.openFile with
  | error cause => rfl
  | ok body =>
    cases body with
    | error cause => rfl
    | ok bytes =>
      show ((Markup.parse bytes).map some).mapError (Failure.malformed path)
        = ((Markup.parse bytes).mapError (Failure.malformed path)).map some
      cases Markup.parse bytes <;> rfl

section

variable {m : Type → Type} [Monad m] [LawfulMonad m] (note : String → m Unit)

/-- A note is made of each place where a file is opened, and of none where it is not. -/
theorem openOnce_noting (a : Archive) (path : String) (v : Visits) :
    (a.noting note).openOnce path v =
      if a.seen v path then pure (.ok .visited, v)
      else do
        (a.place? path).toList.forM note
        return ((a.canonical path >>= a.openFile).map .first, a.visit v path) := by
  -- Only opening takes note; looking a place up is as in the archive.
  have hcanonical : (a.noting note).canonical path = pure (a.canonical path) := rfl
  rw [FileAccess.openOnce, hcanonical, pure_bind, seen, visit, mark, place?]
  cases a.canonical path with
  | error cause =>
    simp [Except.toOption, Except.map, bind, Except.bind, Except.isOk, Except.toBool]
  | ok place =>
    have hopen : (a.noting note).openFile place = (do note place; return a.openFile place) := rfl
    have hbind : (Except.ok place >>= a.openFile) = a.openFile place := Except.ok_bind _ _
    simp only [Except.toOption, Option.any_some, Option.toList_some, hopen, hbind]
    by_cases hv : v.contains place
    · rw [if_pos hv, if_pos hv]
    · rw [if_neg hv, if_neg hv, bind_assoc]
      cases a.openFile place <;> simp [Except.map, Except.isOk, Except.toBool]

/-- **Loading one file.**  It is passed over if it has been opened. -/
theorem loadFile_noting (a : Archive) (path : String) (v : Visits) :
    (Project.loadFile (a.noting note) path).run.run v =
      if a.seen v path then pure (.ok none, v)
      else do
        (a.place? path).toList.forM note
        return ((a.rootAt path).map some, a.visit v path) := by
  rw [Project.run_loadFile, openOnce_noting]
  by_cases hseen : a.seen v path
  · rw [if_pos hseen, if_pos hseen, pure_bind]
    rfl
  · rw [if_neg hseen, if_neg hseen, bind_assoc]
    simp only [pure_bind, rootOf?_opened]

end

/-! ### Files opened before -/

section

variable {a : Archive} {v : Visits}

/-- Paths to the same file are so by way of a third one, too. -/
theorem SameFile.trans {path path' path'' : String} (h : a.SameFile path path')
    (h' : a.SameFile path' path'') : a.SameFile path path'' := by
  obtain ⟨place, hplace, place', hplace', heq⟩ := h
  obtain ⟨place₁, hplace₁, place'', hplace'', heq'⟩ := h'
  obtain rfl := Option.mem_unique hplace' hplace₁
  exact ⟨place, hplace, place'', hplace'', heq.trans heq'⟩

/-- The places visited are those that were, and the one put there, however it is written. -/
theorem contains_insert {place place' : String} :
    (v.insert place).contains place' = true
      ↔ FilePath.components place = FilePath.components place' ∨ v.contains place' = true := by
  rw [Visits.contains, Visits.insert, List.contains_cons, Bool.or_eq_true, beq_iff_eq,
    @eq_comm _ (FilePath.components place')]
  rfl

/-- A file has been seen if its place has been visited. -/
theorem seen_iff {path : String} :
    a.seen v path = true ↔ ∃ place ∈ a.place? path, v.contains place = true := by
  rw [seen, Option.any_eq_true]
  rfl

/-- When a file is taken note of, the paths seen are those that were, and those to this file. -/
theorem seen_mark_iff {path path' : String} :
    a.seen (a.mark v path) path' = true ↔ a.seen v path' = true ∨ a.SameFile path path' := by
  rw [seen_iff, seen_iff, mark, SameFile]
  cases a.place? path with
  | none => simp
  | some place =>
    simp only [Option.elim_some, contains_insert, Option.mem_def, Option.some.injEq,
      exists_eq_left', and_or_left, exists_or]
    exact or_comm

theorem not_seen_empty {path : String} : ¬ a.seen {} path = true := by
  rw [seen_iff]
  simp [Visits.contains]

end

/-! ### Files in order -/

/-- The paths of files that have not been opened, each file under the first path that leads to
it. -/
def fresh (a : Archive) (v : Visits) : List String → List String
  | [] => []
  | path :: rest =>
    if a.seen v path then fresh a v rest else path :: fresh a (a.mark v path) rest

/-- The paths up to the first at which there is no root. -/
def tried (a : Archive) : List String → List String
  | [] => []
  | path :: rest => path :: if (a.rootAt path).isOk then tried a rest else []

/-- If there is a root at every path, each is tried. -/
theorem tried_eq_self {a : Archive} {paths : List String} {roots : List Element}
    (hroots : paths.mapM a.rootAt = .ok roots) : a.tried paths = paths := by
  induction paths generalizing roots with
  | nil => rfl
  | cons path rest ih =>
    rw [List.mapM_cons] at hroots
    obtain ⟨root, hroot, hroots⟩ := Except.bind_eq_ok_iff.mp hroots
    obtain ⟨others, hothers, -⟩ := Except.bind_eq_ok_iff.mp hroots
    have hok : (Except.ok root : Except Failure Element).isOk = true := rfl
    rw [tried, hroot, if_pos hok, ih hothers]

/-- What a list comes to, one member after the other. -/
theorem filterMap_cons_toList {α β : Type} (f : α → Option β) (x : α) (l : List α) :
    (x :: l).filterMap f = (f x).toList ++ l.filterMap f := by
  cases hx : f x <;> simp [hx]

/-- **Loading files in order** opens those that have not been opened, up to the first at which there
is no root. -/
theorem mapM_loadFile_noting {m : Type → Type} [Monad m] [LawfulMonad m] (note : String → m Unit)
    (a : Archive) (paths : List String) (v : Visits) :
    ∃ outcome, (paths.mapM (Project.loadFile (a.noting note))).run.run v = (do
        ((a.tried (a.fresh v paths)).filterMap a.place?).forM note
        return (outcome, (a.tried (a.fresh v paths)).foldl a.visit v))
      ∧ outcome.map (·.filterMap id) = (a.fresh v paths).mapM a.rootAt := by
  -- for any files opened before, since each path tried may add one
  induction paths generalizing v with
  | nil => exact ⟨.ok [], by simp [fresh, tried], rfl⟩
  | cons path rest ih =>
    rw [List.mapM_cons, ExceptT.run_bind, StateT.run_bind, loadFile_noting, fresh]
    by_cases hseen : a.seen v path
    · -- a file passed over leaves a gap among the roots, which is closed at the end
      obtain ⟨outcome, hrun, houtcome⟩ := ih v
      rw [if_pos hseen, if_pos hseen]
      refine ⟨outcome.map (none :: ·), ?_, ?_⟩
      · simp [hrun]
      · rw [← houtcome]
        cases outcome <;> rfl
    · rw [if_neg hseen, if_neg hseen, tried, List.mapM_cons, filterMap_cons_toList, List.foldl_cons]
      cases hroot : a.rootAt path with
      | error cause =>
        have hlast : ¬ (Except.error cause : Except Failure Element).isOk = true := nofun
        rw [if_neg hlast]
        exact ⟨.error cause, by simp [Except.map], rfl⟩
      | ok root =>
        have hok : (Except.ok root : Except Failure Element).isOk = true := rfl
        obtain ⟨outcome, hrun, houtcome⟩ := ih (a.mark v path)
        rw [if_pos hok, visit_of_rootAt hroot]
        refine ⟨outcome.map (some root :: ·), ?_, ?_⟩
        · simp [Except.map, hrun]
        · rw [← houtcome]
          cases outcome <;> rfl

/-! ### Directories -/

/-- The index at a path, if nothing has been opened before. -/
def catalogAt (a : Archive) (path : String) : Except Failure Catalog :=
  a.rootAt path >>= fun root => Project.catalogOf (some root)

/-- The index is what the root of its file comes to. -/
theorem map_rootAt_bind (a : Archive) (path : String) :
    (a.rootAt path).map some >>= Project.catalogOf = a.catalogAt path := by
  rw [catalogAt]
  cases a.rootAt path <;> rfl

section

variable {m : Type → Type} [Monad m] [LawfulMonad m] (note : String → m Unit)
variable {settings : Settings} {directory : String} {v : Visits}

/-- An index that has been opened before lists nothing. -/
theorem load_noting_of_seen (a : Archive)
    (hseen : a.seen v (Project.indexPath settings directory) = true) :
    (Project.load (a.noting note) settings directory).run.run v = pure (.ok ⟨{}, []⟩, v) := by
  have hempty : (Except.ok none >>= Project.catalogOf) = .ok {} := rfl
  have hlisted : Project.listedPaths directory {} = [] := rfl
  rw [Project.run_load, loadFile_noting, if_pos hseen, pure_bind]
  simp only [hempty, hlisted, List.mapM_nil, ExceptT.run_pure, StateT.run_pure, pure_bind]
  rfl

/-- Without an index nothing else is loaded. -/
theorem load_noting_of_error (a : Archive) {cause : Failure}
    (hseen : ¬ a.seen v (Project.indexPath settings directory) = true)
    (hcatalog : a.catalogAt (Project.indexPath settings directory) = .error cause) :
    (Project.load (a.noting note) settings directory).run.run v = (do
      (a.place? (Project.indexPath settings directory)).toList.forM note
      return (.error cause, a.visit v (Project.indexPath settings directory))) := by
  rw [Project.run_load, loadFile_noting, if_neg hseen, bind_assoc]
  simp only [pure_bind, map_rootAt_bind, hcatalog]

/-- **With an index** the files that it lists are loaded in order. -/
theorem load_noting_of_ok (a : Archive) {catalog : Catalog}
    (hseen : ¬ a.seen v (Project.indexPath settings directory) = true)
    (hcatalog : a.catalogAt (Project.indexPath settings directory) = .ok catalog) :
    let files := a.fresh (a.mark v (Project.indexPath settings directory))
      (Project.listedPaths directory catalog)
    (Project.load (a.noting note) settings directory).run.run v = (do
      ((Project.indexPath settings directory :: a.tried files).filterMap a.place?).forM note
      return ((files.mapM a.rootAt).map (⟨catalog, ·⟩),
        (Project.indexPath settings directory :: a.tried files).foldl a.visit v)) := by
  obtain ⟨root, hroot, -⟩ := Except.bind_eq_ok_iff.mp hcatalog
  obtain ⟨outcome, hrun, houtcome⟩ := a.mapM_loadFile_noting note
    (Project.listedPaths directory catalog) (a.mark v (Project.indexPath settings directory))
  have hloaded : (outcome.map (·.filterMap id)).map (Project.Files.mk catalog)
      = outcome.map fun roots => ⟨catalog, roots.filterMap id⟩ := by cases outcome <;> rfl
  intro files
  rw [Project.run_load, loadFile_noting, if_neg hseen, bind_assoc, filterMap_cons_toList,
    List.foldl_cons, visit_of_rootAt hroot, ← houtcome, hloaded]
  simp [map_rootAt_bind, hcatalog, hrun, files]

end

/-- What comes of loading a directory, and the files opened then, when some have been opened
before. -/
def load (a : Archive) (settings : Settings) (directory : String) (v : Visits) :
    Except Failure Project.Files × Visits :=
  Id.run ((Project.load a.access settings directory).run.run v)

/-- The paths by which files are opened when a directory is loaded, in order. -/
def opened (a : Archive) (settings : Settings) (directory : String) (v : Visits) : List String :=
  (((Project.load a.logged settings directory).run.run v).run []).2

theorem run_forM_log (paths log : List String) :
    (paths.forM fun path => (modify (· ++ [path]) : StateM (List String) PUnit)).run log
      = ((), log ++ paths) := by
  induction paths generalizing log with
  | nil =>
    rw [List.append_nil]
    rfl
  | cons path paths ih =>
    have hcons := ih (log ++ [path])
    rw [List.append_assoc, List.singleton_append] at hcons
    exact hcons

variable {a : Archive} {settings : Settings} {directory : String} {v : Visits}

/-- What holds with any notes holds without notes and with a log. -/
theorem load_eq_of_noting {result : Except Failure Project.Files × Visits} {paths : List String}
    (hload : ∀ {m : Type → Type} [Monad m] [LawfulMonad m] (note : String → m Unit),
      (Project.load (a.noting note) settings directory).run.run v
        = (do paths.forM note; return result)) :
    a.load settings directory v = result ∧ a.opened settings directory v = paths := by
  constructor
  · have haccess : a.access = a.noting (m := Id) fun _ => pure () := rfl
    rw [load, haccess, hload]
    rfl
  · rw [opened, logged, hload, StateT.run_bind, run_forM_log]
    rfl

/-- An index that has been opened before is taken for one that lists nothing. -/
theorem load_of_seen (hseen : a.seen v (Project.indexPath settings directory) = true) :
    a.load settings directory v = (.ok ⟨{}, []⟩, v) := by
  have haccess : a.access = a.noting (m := Id) fun _ => pure () := rfl
  rw [load, haccess, load_noting_of_seen _ a hseen]
  rfl

/-- **A directory without an index** is not loaded. -/
theorem load_of_error {cause : Failure}
    (hseen : ¬ a.seen v (Project.indexPath settings directory) = true)
    (hcatalog : a.catalogAt (Project.indexPath settings directory) = .error cause) :
    let tried := [Project.indexPath settings directory]
    a.load settings directory v = (.error cause, tried.foldl a.visit v)
      ∧ a.opened settings directory v = tried.filterMap a.place? := by
  dsimp only
  rw [filterMap_cons_toList, List.filterMap_nil, List.append_nil]
  exact load_eq_of_noting fun note => load_noting_of_error note a hseen hcatalog

/-- **A directory with an index** is loaded from the files that the index lists and that have not
been opened. -/
theorem load_of_ok {catalog : Catalog}
    (hseen : ¬ a.seen v (Project.indexPath settings directory) = true)
    (hcatalog : a.catalogAt (Project.indexPath settings directory) = .ok catalog) :
    let files := a.fresh (a.mark v (Project.indexPath settings directory))
      (Project.listedPaths directory catalog)
    let tried := Project.indexPath settings directory :: a.tried files
    a.load settings directory v
        = ((files.mapM a.rootAt).map (⟨catalog, ·⟩), tried.foldl a.visit v)
      ∧ a.opened settings directory v = tried.filterMap a.place? :=
  load_eq_of_noting fun note => load_noting_of_ok note a hseen hcatalog

end Archive

end DocGraph
