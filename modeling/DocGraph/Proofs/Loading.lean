import DocGraph.Proofs.Archives

namespace DocGraph

/-!
# Loading each file once

What is loaded from a directory, and which files are opened for it:

* `Archive.Holds`, `Archive.Refuses` — the root of a file, or the failure to load it;
* `Archive.firsts` — paths less those that lead to the file of an earlier one;
* `Archive.LoadsInOrder`, `Archive.LoadsDirectory` — the outcome of loading some files, or a
  directory, with the paths tried up to then;
* `Archive.firsts_eq_fresh`, `Archive.loadsInOrder_mapM` — the two halves: which files are loaded,
  and what comes of it;
* `Archive.load_fresh` — the main statement: a directory is loaded from its index and from the first
  paths of the files that the index lists, up to the first failure, and nothing else is opened.
-/

namespace Archive

/-! ### Outcomes -/

/-- The paths that do not lead to the file of an earlier one. -/
def firsts (a : Archive) (paths : List String) : List String :=
  (paths.zipIdx.filter fun (path, i) => ∀ earlier ∈ paths.take i, ¬ a.SameFile earlier path).map
    (·.1)

/-- The file at a path has a root. -/
def Holds (a : Archive) (path : String) (root : Element) : Prop :=
  ∃ place bytes, a.canonical path = .ok place ∧ a.openFile place = .ok (.ok bytes)
    ∧ Markup.parse bytes = .ok root

/-- The file at a path cannot be loaded: it cannot be found, opened or read, or is not well-formed.
The failure names the path. -/
inductive Refuses (a : Archive) (path : String) : Failure → Prop
  | lost {cause : IoError} :
    a.canonical path = .error cause → Refuses a path (.inaccessible path cause)
  | closed {place : String} {cause : IoError} : a.canonical path = .ok place →
    a.openFile place = .error cause → Refuses a path (.inaccessible path cause)
  | unreadable {place : String} {cause : IoError} : a.canonical path = .ok place →
    a.openFile place = .ok (.error cause) → Refuses a path (.unreadable path cause)
  | malformed {place : String} {bytes : List UInt8} {cause : Markup.Error} :
    a.canonical path = .ok place → a.openFile place = .ok (.ok bytes) →
    Markup.parse bytes = .error cause → Refuses a path (.malformed path cause)

/-- The outcome of loading files one after the other up to the first that cannot be loaded, and the
paths tried. -/
inductive LoadsInOrder (a : Archive) :
    List String → Except Failure (List Element) → List String → Prop
  | all {files : List String} {roots : List Element} : List.Forall₂ a.Holds files roots →
    LoadsInOrder a files (.ok roots) files
  | stop {before after : List String} {path : String} {roots : List Element} {cause : Failure} :
    List.Forall₂ a.Holds before roots → a.Refuses path cause →
    LoadsInOrder a (before ++ path :: after) (.error cause) (before ++ [path])

/-- The outcome of loading a directory from its index and the files that the index lists, and the
paths tried. -/
inductive LoadsDirectory (a : Archive) (index : String) (listed : Catalog → List String) :
    Except Failure Project.Files → List String → Prop
  | noIndex {cause : Failure} :
    a.Refuses index cause → LoadsDirectory a index listed (.error cause) [index]
  | badIndex {root : Element} {cause : Violation} :
    a.Holds index root → Catalog.ofRoot root = .error cause →
    LoadsDirectory a index listed (.error (.invalid cause)) [index]
  | files {root : Element} {catalog : Catalog} {files tried : List String}
    {outcome : Except Failure (List Element)} : a.Holds index root →
    Catalog.ofRoot root = .ok catalog → a.firsts (index :: listed catalog) = index :: files →
    a.LoadsInOrder files outcome tried →
    LoadsDirectory a index listed (outcome.map (⟨catalog, ·⟩)) (index :: tried)

/-! ### First paths -/

variable {a : Archive} {settings : Settings} {directory : String} {v : Visits}

/-- The paths of files that have not been opened are first among those given and those of files that
have been opened. -/
theorem fresh_eq {done : List String}
    (hv : ∀ path, a.seen v path = true ↔ ∃ earlier ∈ done, a.SameFile earlier path)
    (paths : List String) :
    a.fresh v paths = (paths.zipIdx.filter fun (path, i) =>
      ∀ earlier ∈ done ++ paths.take i, ¬ a.SameFile earlier path).map (·.1) := by
  induction paths generalizing v done with
  | nil => rfl
  | cons path rest ih =>
    -- the paths after the first are those of a shorter list, behind one more path
    have hrest : ∀ v', (∀ path', a.seen v' path' = true
          ↔ ∃ earlier ∈ done ++ [path], a.SameFile earlier path') →
        a.fresh v' rest = (((rest.zipIdx 1).filter fun (path', i) =>
          ∀ earlier ∈ done ++ (path :: rest).take i, ¬ a.SameFile earlier path').map (·.1)) := by
      intro v' hv'
      rw [ih hv', List.zipIdx_succ, List.filter_map, List.map_map]
      refine congrArg _ (List.filter_congr fun e _ => decide_eq_decide.mpr ?_)
      rw [List.append_assoc]
      rfl
    have hfirst : (∀ earlier ∈ done ++ (path :: rest).take 0, ¬ a.SameFile earlier path)
        ↔ ¬ a.seen v path = true := by
      rw [hv, List.take_zero, List.append_nil, not_exists]
      simp only [not_and]
    rw [fresh, List.zipIdx_cons, List.filter_cons]
    simp only [decide_eq_true_eq, hfirst]
    by_cases hseen : a.seen v path
    · rw [if_pos hseen, if_neg (not_not.mpr hseen)]
      refine hrest v fun path' => ?_
      rw [hv]
      constructor
      · rintro ⟨earlier, hmem, hsame⟩
        exact ⟨earlier, List.mem_append_left _ hmem, hsame⟩
      · rintro ⟨earlier, hmem, hsame⟩
        rcases List.mem_append.mp hmem with hmem | hmem
        · exact ⟨earlier, hmem, hsame⟩
        · obtain rfl := List.mem_singleton.mp hmem
          obtain ⟨first, hfirst, hsame'⟩ := (hv earlier).mp hseen
          exact ⟨first, hfirst, hsame'.trans hsame⟩
    · rw [if_neg hseen, if_pos hseen, List.map_cons]
      refine congrArg _ (hrest _ fun path' => ?_)
      rw [seen_mark_iff, hv]
      simp [or_and_right, exists_or]

/-- Before anything has been opened, the first paths are those still to be opened. -/
theorem firsts_eq_fresh (paths : List String) : a.firsts paths = a.fresh {} paths := by
  have hv : ∀ path,
      a.seen {} path = true ↔ ∃ earlier ∈ ([] : List String), a.SameFile earlier path := by
    intro path
    simp [not_seen_empty]
  rw [fresh_eq hv, firsts]
  rfl

/-- What is still to be opened has not been seen. -/
theorem not_seen_of_mem_fresh {paths : List String} {path : String}
    (hpath : path ∈ a.fresh v paths) : ¬ a.seen v path = true := by
  induction paths generalizing v with
  | nil => exact absurd hpath List.not_mem_nil
  | cons path' rest ih =>
    rw [fresh] at hpath
    split at hpath
    · exact ih hpath
    · rename_i hseen
      rcases List.mem_cons.mp hpath with rfl | hpath
      · exact hseen
      · exact fun hseen' => ih hpath (seen_mark_iff.mpr (Or.inl hseen'))

/-- No two of these paths lead to one file. -/
theorem pairwise_fresh (paths : List String) :
    (a.fresh v paths).Pairwise fun path path' => ¬ a.SameFile path path' := by
  induction paths generalizing v with
  | nil => exact List.Pairwise.nil
  | cons path rest ih =>
    rw [fresh]
    split
    · exact ih
    · refine List.pairwise_cons.mpr ⟨fun path' hpath' hsame => ?_, ih⟩
      exact not_seen_of_mem_fresh hpath' (seen_mark_iff.mpr (Or.inr hsame))

/-- Every path leads to a file that has been opened or to that of one of these paths. -/
theorem seen_or_exists_mem_fresh {paths : List String} {path : String} (hpath : path ∈ paths) :
    a.seen v path = true ∨ path ∈ a.fresh v paths
      ∨ ∃ file ∈ a.fresh v paths, a.SameFile file path := by
  induction paths generalizing v with
  | nil => exact absurd hpath List.not_mem_nil
  | cons path' rest ih =>
    rw [fresh]
    split
    · rename_i hseen
      rcases List.mem_cons.mp hpath with rfl | hpath
      · exact Or.inl hseen
      · exact ih hpath
    · rcases List.mem_cons.mp hpath with rfl | hpath
      · exact Or.inr (Or.inl List.mem_cons_self)
      · rcases ih hpath (v := a.mark v path') with hseen | hmem | ⟨file, hfile, hsame⟩
        -- marking `path'` makes all names of the same file seen
        · rcases seen_mark_iff.mp hseen with hseen | hsame
          · exact Or.inl hseen
          · exact Or.inr (Or.inr ⟨path', List.mem_cons_self, hsame⟩)
        · exact Or.inr (Or.inl (List.mem_cons_of_mem _ hmem))
        · exact Or.inr (Or.inr ⟨file, List.mem_cons_of_mem _ hfile, hsame⟩)

/-! ### Loading from the beginning -/

theorem holds_of_rootAt {path : String} {root : Element} (hroot : a.rootAt path = .ok root) :
    a.Holds path root := by
  obtain ⟨body, hbody, hroot⟩ := Except.bind_eq_ok_iff.mp hroot
  obtain ⟨place, hplace, hopen⟩ := Except.bind_eq_ok_iff.mp (Except.mapError_eq_ok_iff.mp hbody)
  obtain ⟨bytes, hbytes, hroot⟩ := Except.bind_eq_ok_iff.mp hroot
  obtain rfl := Except.mapError_eq_ok_iff.mp hbytes
  exact ⟨place, bytes, hplace, hopen, Except.mapError_eq_ok_iff.mp hroot⟩

/-- A file that is not read is refused for the reason that is given. -/
theorem refuses_of_rootAt {path : String} {cause : Failure}
    (hroot : a.rootAt path = .error cause) : a.Refuses path cause := by
  rw [rootAt] at hroot
  -- Four steps lead to a root, and each has its own way to fail.
  cases hplace : a.canonical path with
  | error e =>
    rw [hplace] at hroot
    obtain rfl := Except.error.inj hroot
    exact .lost hplace
  | ok place =>
    rw [hplace, Except.ok_bind] at hroot
    cases hopen : a.openFile place with
    | error e =>
      rw [hopen] at hroot
      obtain rfl := Except.error.inj hroot
      exact .closed hplace hopen
    | ok body =>
      rw [hopen] at hroot
      cases body with
      | error e =>
        obtain rfl := Except.error.inj hroot
        exact .unreadable hplace hopen
      | ok bytes =>
        have hparse : (Markup.parse bytes).mapError (Failure.malformed path) = .error cause := hroot
        cases hbytes : Markup.parse bytes with
        | ok root => rw [hbytes] at hparse; cases hparse
        | error e =>
          rw [hbytes] at hparse
          obtain rfl := Except.error.inj hparse
          exact .malformed hplace hopen hbytes

/-- **A file is loaded**, and then the others are. -/
theorem LoadsInOrder.cons {path : String} {root : Element} {rest tried : List String}
    {outcome : Except Failure (List Element)} (hpath : a.Holds path root)
    (hrest : a.LoadsInOrder rest outcome tried) :
    a.LoadsInOrder (path :: rest) (outcome.map (root :: ·)) (path :: tried) := by
  cases hrest with
  | all hroots => exact .all (.cons hpath hroots)
  | stop hroots hrefuses =>
    rw [← List.cons_append, ← List.cons_append]
    exact .stop (.cons hpath hroots) hrefuses

/-- **The roots of files** are found up to the first file that has none. -/
theorem loadsInOrder_mapM (a : Archive) (files : List String) :
    a.LoadsInOrder files (files.mapM a.rootAt) (a.tried files) := by
  induction files with
  | nil => exact .all .nil
  | cons path rest ih =>
    rw [List.mapM_cons, tried]
    -- without a root nothing after this path is tried
    cases hroot : a.rootAt path with
    | error cause => exact .stop .nil (refuses_of_rootAt hroot)
    | ok root =>
      have hrest := ih.cons (holds_of_rootAt hroot)
      cases hroots : rest.mapM a.rootAt <;> rwa [hroots] at hrest

/-- Files are tried from the first one on. -/
theorem tried_prefix (a : Archive) (files : List String) : a.tried files <+: files := by
  induction files with
  | nil => exact List.prefix_rfl
  | cons path rest ih =>
    rw [tried]
    split
    · exact List.cons_prefix_cons.mpr ⟨rfl, ih⟩
    · exact List.cons_prefix_cons.mpr ⟨rfl, List.nil_prefix⟩

/-- Nothing is loaded without an index. -/
theorem loadsDirectory_of_error {path : String} {cause : Failure} {listed : Catalog → List String}
    (hcatalog : a.catalogAt path = .error cause) :
    a.LoadsDirectory path listed (.error cause) [path] := by
  rw [catalogAt] at hcatalog
  cases hroot : a.rootAt path with
  | error e =>
    rw [hroot] at hcatalog
    obtain rfl := Except.error.inj hcatalog
    exact .noIndex (refuses_of_rootAt hroot)
  | ok root =>
    rw [hroot] at hcatalog
    have hcause : (Catalog.ofRoot root).mapError Failure.invalid = .error cause := hcatalog
    cases hv : Catalog.ofRoot root with
    | ok catalog => rw [hv] at hcause; cases hcause
    | error e =>
      rw [hv] at hcause
      obtain rfl := Except.error.inj hcause
      exact .badIndex (holds_of_rootAt hroot) hv

/-- **A directory is loaded** from its index and from the first paths of the files that the index
lists, up to the first failure.  No file is opened twice, none after a failure, and without a
failure none is left out. -/
theorem load_fresh (a : Archive) (settings : Settings) (directory : String) :
    ∃ tried, a.LoadsDirectory (Project.indexPath settings directory)
        (Project.listedPaths directory) (a.load settings directory {}).1 tried
      ∧ a.opened settings directory {} = tried.filterMap a.place?
      ∧ tried.Pairwise (fun path path' => ¬ a.SameFile path path')
      ∧ ∀ loaded, (a.load settings directory {}).1 = .ok loaded →
        ∀ path ∈ Project.listedPaths directory loaded.catalog,
          path ∈ tried ∨ ∃ file ∈ tried, a.SameFile file path := by
  set index := Project.indexPath settings directory
  have hseen : ¬ a.seen {} index = true := not_seen_empty
  -- Without a catalog only the index was tried; otherwise the fresh files it lists were.
  cases hcatalog : a.catalogAt index with
  | error cause =>
    obtain ⟨hload, hopened⟩ := load_of_error hseen hcatalog
    rw [hload, hopened]
    exact ⟨[index], loadsDirectory_of_error hcatalog, rfl, List.pairwise_singleton _ _, nofun⟩
  | ok catalog =>
    obtain ⟨hload, hopened⟩ := load_of_ok hseen hcatalog
    set listed := Project.listedPaths directory catalog
    set files := a.fresh (a.mark {} index) listed
    obtain ⟨root, hroot, hc⟩ := Except.bind_eq_ok_iff.mp hcatalog
    have hfresh : a.fresh {} (index :: listed) = index :: files := by rw [fresh, if_neg hseen]
    have horder := a.loadsInOrder_mapM files
    rw [hload, hopened]
    refine ⟨index :: a.tried files, ?_, rfl, ?_, fun loaded hloaded path hpath => ?_⟩
    · exact .files (holds_of_rootAt hroot) (Except.mapError_eq_ok_iff.mp hc)
        ((firsts_eq_fresh _).trans hfresh) horder
    · -- the paths tried are the first of those that lead to different files
      have hfirst : index :: a.tried files <+: a.fresh {} (index :: listed) := by
        rw [hfresh]
        exact List.cons_prefix_cons.mpr ⟨rfl, a.tried_prefix files⟩
      exact (pairwise_fresh _).sublist hfirst.sublist
    · obtain ⟨roots, hroots, rfl⟩ := Except.map_eq_ok_iff.mp hloaded
      rw [tried_eq_self hroots, ← hfresh]
      exact (seen_or_exists_mem_fresh (List.mem_cons_of_mem _ hpath)).resolve_left not_seen_empty

end Archive

end DocGraph
