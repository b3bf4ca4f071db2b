import DocGraph.Proofs.Archives
import DocGraph.Proofs.Demands
import DocGraph.Store.Shelf

namespace DocGraph

/-!
# Loading a directory again

Files that have been opened are passed over, and what was opened is not forgotten after a failure:

* `Archive.Opens`, `Archive.contains_load` — the files that are recorded when a directory is loaded
  are those that are opened with success;
* `Archive.fresh_eq_filter` — of the files to load, those opened before are left out;
* `Archive.load_eq_ok_iff` — a directory is loaded as from the beginning if and only if no file
  opened for that has been opened before;
* `Archive.load_again` — the main statement: loading a directory again yields what loading it from
  the beginning does if and only if the first attempt opened none of its files with success, and
  yields nothing at all if the first attempt opened the index;
* `Archive.load_again_pageLost` — a page that is missing and then supplied does not appear.
-/

/-- An index tells its version, so it is not the one that lists nothing. -/
theorem Catalog.ne_empty {root : Element} {catalog : Catalog}
    (hcatalog : Catalog.ofRoot root = .ok catalog) : catalog ≠ {} := by
  rw [Catalog.ofRoot] at hcatalog
  split at hcatalog
  · cases hcatalog
  · obtain ⟨⟨⟩, hrules, hcatalog⟩ := Except.bind_eq_ok_iff.mp hcatalog
    obtain ⟨entries, -, hcatalog⟩ := Except.bind_eq_ok_iff.mp hcatalog
    obtain rfl := Except.ok.inj hcatalog
    -- The version of a catalog is checked not to be empty, and that of the empty one is.
    have hmet := (AttributeRule.checkAll_eq_ok_iff.mp (Violation.blame_eq_ok_iff.mp hrules)).2
    obtain ⟨version, hversion, hne⟩ := hmet ⟨"version", .filled⟩ List.mem_cons_self
    have hvalue : root.value "version" = version := by rw [Element.value, hversion]; rfl
    intro hempty
    exact hne (hvalue ▸ congrArg Catalog.version hempty)

namespace Archive

variable {a b : Archive} {settings : Settings} {directory : String} {v : Visits}

/-! ### What is recorded -/

/-- Loading a directory from the beginning opens a file with success. -/
def Opens (a : Archive) (settings : Settings) (directory place : String) : Prop :=
  ∃ opened ∈ a.opened settings directory {}, (a.openFile opened).isOk = true
    ∧ FilePath.components opened = FilePath.components place

/-- One more file is among those visited if it can be opened. -/
theorem contains_visit {path place : String} :
    (a.visit v path).contains place = true ↔ v.contains place = true
      ∨ ∃ opened ∈ a.place? path, (a.openFile opened).isOk = true
        ∧ FilePath.components opened = FilePath.components place := by
  rw [visit, mark, place?]
  cases a.canonical path with
  | error cause => simp [Except.toOption, bind, Except.bind, Except.isOk, Except.toBool]
  | ok opened =>
    have hbind : (Except.ok opened >>= a.openFile) = a.openFile opened := Except.ok_bind _ _
    simp only [hbind, Except.toOption, Option.elim_some, Option.mem_def, Option.some.injEq,
      exists_eq_left']
    split
    · rename_i hopen
      rw [contains_insert, or_comm, and_iff_right hopen]
    · rename_i hclosed
      simp [hclosed]

/-- **After some files**, those are that could be opened. -/
theorem contains_foldl_visit {paths : List String} {place : String} :
    (paths.foldl a.visit v).contains place = true ↔ v.contains place = true
      ∨ ∃ opened ∈ paths.filterMap a.place?, (a.openFile opened).isOk = true
        ∧ FilePath.components opened = FilePath.components place := by
  induction paths generalizing v with
  | nil => simp
  | cons path rest ih =>
    rw [List.foldl_cons, ih, contains_visit, filterMap_cons_toList, or_assoc]
    simp only [List.mem_append, Option.mem_toList, Option.mem_def, or_and_right, exists_or]

/-- The paths tried when a directory is loaded decide what is opened and what is recorded. -/
theorem exists_tried (a : Archive) (settings : Settings) (directory : String) :
    ∃ tried : List String, a.opened settings directory {} = tried.filterMap a.place?
      ∧ (a.load settings directory {}).2 = tried.foldl a.visit {} := by
  have hseen : ¬ a.seen {} (Project.indexPath settings directory) = true := not_seen_empty
  cases hcatalog : a.catalogAt (Project.indexPath settings directory) with
  | error cause =>
    obtain ⟨hload, hopened⟩ := load_of_error hseen hcatalog
    exact ⟨_, hopened, congrArg Prod.snd hload⟩
  | ok catalog =>
    obtain ⟨hload, hopened⟩ := load_of_ok hseen hcatalog
    exact ⟨_, hopened, congrArg Prod.snd hload⟩

/-- **The files recorded** when a directory is loaded are those opened with success. -/
theorem contains_load {place : String} :
    (a.load settings directory {}).2.contains place = true ↔ a.Opens settings directory place := by
  obtain ⟨tried, hopened, hload⟩ := a.exists_tried settings directory
  rw [hload, contains_foldl_visit, Opens, hopened]
  simp [Visits.contains]

/-! ### What is passed over -/

/-- Whether a file has been seen does not depend on the path to it. -/
theorem seen_of_sameFile {path path' : String} (hsame : a.SameFile path path')
    (hseen : a.seen v path = true) : a.seen v path' = true := by
  obtain ⟨place, hplace, place', hplace', heq⟩ := hsame
  obtain ⟨_, hplace₁, hcontains⟩ := seen_iff.mp hseen
  obtain rfl := Option.mem_unique hplace hplace₁
  refine seen_iff.mpr ⟨place', hplace', ?_⟩
  rwa [Visits.contains, ← heq]

/-- **Files opened before** are left out of those to load, and nothing else changes. -/
theorem fresh_eq_filter {u w : Visits}
    (hu : ∀ path, a.seen u path = true ↔ a.seen v path = true ∨ a.seen w path = true)
    (paths : List String) : a.fresh u paths = (a.fresh w paths).filter (! a.seen v ·) := by
  -- what is opened on the way adds to both sides alike
  induction paths generalizing u w with
  | nil => rfl
  | cons path rest ih =>
    rw [fresh, fresh]
    by_cases hw : a.seen w path
    · rw [if_pos hw, if_pos ((hu path).mpr (Or.inr hw)), ih hu]
    · rw [if_neg hw, List.filter_cons]
      by_cases hv : a.seen v path
      · -- a file opened before hides the same paths as the first of its own
        rw [if_pos ((hu path).mpr (Or.inl hv)), hv]
        refine ih fun path' => ?_
        rw [hu, seen_mark_iff, ← or_assoc]
        refine (or_iff_left_of_imp fun hsame => ?_).symm
        exact Or.inl (seen_of_sameFile hsame hv)
      · have hseen : ¬ a.seen u path = true := fun h => ((hu path).mp h).elim hv hw
        rw [if_neg hseen, if_pos (by simpa using hv)]
        refine congrArg _ (ih fun path' => ?_)
        rw [seen_mark_iff, seen_mark_iff, hu, or_assoc]

/-- None of some files has been seen if none of their places has been visited. -/
theorem forall_not_seen_iff (paths : List String) :
    (∀ place ∈ paths.filterMap a.place?, ¬ v.contains place = true)
      ↔ ∀ path ∈ paths, ¬ a.seen v path = true := by
  simp only [List.mem_filterMap, seen_iff, not_exists, not_and, Option.mem_def,
    forall_exists_index, and_imp]
  exact ⟨fun h path hpath place => h place path hpath, fun h place path hpath => h path hpath place⟩

/-- If something is found at each path, then as much is found at some of them only if those are
all. -/
theorem mapM_filter_eq_ok_iff {ε α β : Type} {f : α → Except ε β} {l : List α} {r : List β}
    {p : α → Bool} (hr : l.mapM f = .ok r) :
    (l.filter p).mapM f = .ok r ↔ ∀ x ∈ l, p x = true := by
  constructor
  · intro hfilter
    have hlength := (mapM_eq_ok_iff.mp hr).length_eq
    have hlength' := (mapM_eq_ok_iff.mp hfilter).length_eq
    exact List.length_filter_eq_length_iff.mp (hlength'.trans hlength.symm)
  · intro hall
    rwa [List.filter_eq_self.mpr hall]

/-- **A directory is loaded as from the beginning** if and only if no file opened for that has been
opened before. -/
theorem load_eq_ok_iff {loaded : Project.Files}
    (hloaded : (a.load settings directory {}).1 = .ok loaded) :
    (a.load settings directory v).1 = .ok loaded
      ↔ ∀ place ∈ a.opened settings directory {}, ¬ v.contains place = true := by
  set index := Project.indexPath settings directory with hindex
  have hempty : ¬ a.seen {} index = true := not_seen_empty
  cases hcatalog : a.catalogAt index with
  | error cause =>
    rw [(load_of_error hempty hcatalog).1] at hloaded
    cases hloaded
  | ok catalog =>
    obtain ⟨hload, hopened⟩ := load_of_ok hempty hcatalog
    rw [hload] at hloaded
    obtain ⟨roots, hroots, rfl⟩ := Except.map_eq_ok_iff.mp hloaded
    set listed := Project.listedPaths directory catalog
    set files := a.fresh (a.mark {} index) listed
    rw [hopened, tried_eq_self hroots, forall_not_seen_iff, List.forall_mem_cons]
    by_cases hseen : a.seen v index
    · -- what is taken for the index has no version, unlike the index that is loaded
      obtain ⟨root, -, hroot⟩ := Except.bind_eq_ok_iff.mp hcatalog
      have hne := Catalog.ne_empty (Except.mapError_eq_ok_iff.mp hroot)
      rw [load_of_seen hseen]
      refine iff_of_false (fun hsame => ?_) (fun h => h.1 hseen)
      exact hne (congrArg Project.Files.catalog (Except.ok.inj hsame)).symm
    · have hfiles : a.fresh (a.mark v index) listed = files.filter (! a.seen v ·) := by
        refine fresh_eq_filter (fun path => ?_) listed
        rw [seen_mark_iff, seen_mark_iff, or_iff_right (b := a.SameFile index path) not_seen_empty]
      -- roots of fewer files are fewer roots
      rw [(load_of_ok hseen hcatalog).1, hfiles, and_iff_right hseen, Except.map_eq_ok_iff]
      constructor
      · rintro ⟨roots', hroots', heq⟩
        obtain ⟨-, rfl⟩ := Project.Files.mk.inj heq
        simpa using (mapM_filter_eq_ok_iff hroots).mp hroots'
      · intro hall
        exact ⟨roots, (mapM_filter_eq_ok_iff hroots).mpr (by simpa using hall), rfl⟩

/-! ### Loading again -/

/-- **Loading a directory again**, after an attempt that may have failed and with files that may
have changed since, yields what loading it from the beginning does if and only if the attempt has
opened none of the files opened for that.  If it has opened the index, there is nothing. -/
theorem load_again (a b : Archive) (settings : Settings) (directory : String)
    {loaded : Project.Files} (hloaded : (b.load settings directory {}).1 = .ok loaded) :
    let again := (b.load settings directory (a.load settings directory {}).2).1
    (again = .ok loaded
        ↔ ∀ place ∈ b.opened settings directory {}, ¬ a.Opens settings directory place)
      ∧ ∀ place ∈ b.place? (Project.indexPath settings directory),
        a.Opens settings directory place → again = .ok ⟨{}, []⟩ := by
  intro again
  constructor
  · rw [load_eq_ok_iff hloaded]
    simp only [contains_load]
  · intro place hplace hopens
    have hseen := seen_iff.mpr ⟨place, hplace, contains_load.mpr hopens⟩
    exact congrArg Prod.fst (load_of_seen hseen)

end Archive

namespace Shelf

/-- The files on a shelf, which stays as it is. -/
def archive (s : Shelf) : Archive where
  canonical := s.canonical
  openFile := s.openFile

/-- A shelf with an index that lists a page, and without the page. -/
def pageLost : Shelf where
  files := [("xml/index.xml", Utf8.encode ("<doxygenindex version=\"1\">" ++
    "<compound refid=\"a\" kind=\"page\"><name>a</name></compound></doxygenindex>"))]

/-- The shelf with the page. -/
def pageSupplied : Shelf := pageLost.put "xml/a.xml" (Utf8.encode "<doxygen version=\"1\"/>")

end Shelf

/-- **A page that is supplied** after a failure does not appear, although it would from the
beginning. -/
theorem Archive.load_again_pageLost :
    ∃ loaded, (Shelf.pageLost.archive.load {} "xml" {}).1.isOk = false
      ∧ (Shelf.pageSupplied.archive.load {} "xml" {}).1 = .ok loaded ∧ loaded.roots.length = 1
      ∧ (Shelf.pageSupplied.archive.load {} "xml" (Shelf.pageLost.archive.load {} "xml" {}).2).1
        = .ok ⟨{}, []⟩
      ∧ (Shelf.pageSupplied.archive.load {} "xml" (Shelf.pageLost.archive.load {} "xml" {}).2).1
        ≠ .ok loaded := by
  -- The first call fails at the page, but leaves the index among the visits.
  have hfirst : (Shelf.pageLost.archive.load {} "xml" {}).1.isOk = false
      ∧ (Shelf.pageLost.archive.load {} "xml" {}).2.contains "xml/index.xml" = true := by
    decide +kernel
  have heval : ((Shelf.pageSupplied.archive.load {} "xml" {}).1.toOption.any
      fun loaded => loaded.roots.length = 1) = true := by decide +kernel
  obtain ⟨loaded, hloaded, hlength⟩ := exists_eq_ok_of_any heval
  have hlength : loaded.roots.length = 1 := of_decide_eq_true hlength
  obtain ⟨-, hnothing⟩ := Archive.load_again Shelf.pageLost.archive Shelf.pageSupplied.archive {}
    "xml" hloaded
  have hagain := hnothing "xml/index.xml" rfl (contains_load.mp hfirst.2)
  refine ⟨loaded, hfirst.1, hloaded, hlength, hagain, fun hsame => ?_⟩
  obtain rfl := Except.ok.inj (hagain.symm.trans hsame)
  cases hlength

end DocGraph
