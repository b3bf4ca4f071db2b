import DocGraph.Project.Link
import DocGraph.Proofs.Entries
import DocGraph.Proofs.Roots
import DocGraph.Proofs.Undisputed
import Mathlib.Data.List.Perm.Basic

namespace DocGraph

/-!
# The order of compound files

Objects are known by the places of their compounds, so all that linking does depends on the order in
which the files come.  What it yields does not, as long as nothing is in conflict.

* `Document.ofRoots_perm` — the compounds of the same roots in another order;
* `Report.tellsConflict`, `Linking.IsQuiet` — whether a report is about a conflict, as its wording
  tells, and whether none of the reports of linking is;
* `Project.linked`, `Project.isQuiet_linked_iff` — linking after the document is there, and what
  it is for it to be quiet;
* `Project.linked_perm` — linking of a document with its compounds in another order;
* `Project.linking_perm` — the main statement.
-/

/-! ### Documents of the same roots -/

namespace Document

variable {roots roots' : List Element} {d : Document}

/-- **The same roots in another order** have a document if these have, with the same compounds. -/
theorem ofRoots_perm (hperm : roots.Perm roots') (hd : ofRoots roots = .ok d) :
    ∃ d', ofRoots roots' = .ok d' ∧ d.compounds.Perm d'.compounds := by
  obtain ⟨docs, hdocs, hcompounds⟩ := compounds_ofRoots hd
  obtain ⟨docs', hdocs', hmoved⟩ := List.perm_comp_forall₂ hperm.symm hdocs
  obtain ⟨d', hd'⟩ := exists_ofRoots hdocs'
  obtain ⟨docs'', hdocs'', hcompounds'⟩ := compounds_ofRoots hd'
  -- each root has one document only
  have hsame : docs'' = docs' := by
    rw [← mapM_eq_ok_iff] at hdocs' hdocs''
    exact Except.ok.inj (hdocs''.symm.trans hdocs')
  refine ⟨d', hd', ?_⟩
  rw [hcompounds, hcompounds', hsame]
  exact (hmoved.flatMap_right _).symm

end Document

/-! ### Reports of conflicts -/

/-- Whether a report is about a conflict, as its first letter tells: all other warnings are about
something "unsupported" or "unresolved", or about a "child". -/
def Report.tellsConflict (r : Report) : Bool :=
  match r.message.toList.head? with
  | some 'u' | some 'c' => false
  | _ => true

/-- The letter that a message begins with is all that is read of it. -/
theorem tellsConflict_eq {r : Report} {message : String} (hmessage : r.message = message) :
    r.tellsConflict = match message.toList.head? with
      | some 'u' | some 'c' => false
      | _ => true := by
  rw [Report.tellsConflict, hmessage]

/-- The report of an omission tells whether it is a conflict. -/
theorem tellsConflict_omission (w : Omission) :
    (Reportable.report w).tellsConflict = w.isConflict := by
  cases w with
  | unsupportedKind id kind =>
    rw [@tellsConflict_eq _ ("unsupported compound kind `" ++ kind ++ "` of `" ++ id ++ "`") rfl]
    simp [Omission.isConflict]
  | duplicateId id =>
    rw [@tellsConflict_eq _ ("duplicate compound `" ++ id ++ "`") rfl]
    simp [Omission.isConflict]

theorem tellsConflict_linkProblem (w : LinkProblem) :
    (Reportable.report w).tellsConflict = w.isConflict := by
  -- Each problem is shown with the wording of its message, for the letter that it begins with.
  cases w with
  | unresolvedReference source target kind =>
    rw [@tellsConflict_eq _ ("unresolved " ++ kind.name ++ " reference `" ++ target ++ "`") rfl]
    simp [LinkProblem.isConflict]
  | duplicatePermalink id holder permalink assigned =>
    rw [@tellsConflict_eq _ ("permalink `" ++ permalink ++ "` of `" ++ id ++ "` is already taken")
      rfl]
    simp [LinkProblem.isConflict]
  | multipleParents child parent claimant =>
    rw [@tellsConflict_eq _ ("`" ++ child ++ "` has more than one parent") rfl]
    simp [LinkProblem.isConflict]
  | parentCycle parent child =>
    rw [@tellsConflict_eq _ ("`" ++ child ++ "` cannot be a child of `" ++ parent ++ "`") rfl]
    simp [LinkProblem.isConflict]
  | crossCollectionChild parent child expected found =>
    rw [@tellsConflict_eq _
      ("child `" ++ child ++ "` of `" ++ parent ++ "` is one of the " ++ found.name) rfl]
    simp [LinkProblem.isConflict]

namespace Project

/-- No conflict is among the reports. -/
def Linking.IsQuiet (l : Linking) : Prop :=
  (∀ w : Omission, w.isConflict = true → Reportable.report w ∉ l.reports)
    ∧ ∀ w : LinkProblem, w.isConflict = true → Reportable.report w ∉ l.reports

/-- What linking yields once the document is there. -/
def linked (settings : Settings) (d : Document) : Linking :=
  let (arena, omitted) := Arena.ofDocument settings.permalink d
  let (graph, refused) := arena.toGraph
  let (resolved, unresolved) := graph.tryReferences
  let reports := omitted.map Reportable.report ++ refused.map Reportable.report
    ++ unresolved.map Reportable.report
  ⟨graph, reports, resolved⟩

/-- Linking fails only where there is no document. -/
theorem linking_eq_ok_iff {settings : Settings} {roots : List Element} {l : Linking} :
    linking settings roots = .ok l
      ↔ ∃ d, Document.ofRoots roots = .ok d ∧ linked settings d = l := by
  rw [linking, Except.bind_eq_ok_iff]
  exact exists_congr fun d => and_congr_right fun _ => ⟨Except.ok.inj, congrArg Except.ok⟩

end Project

/-! ### The same compounds in another order -/

namespace Arena

variable {a a' : Arena}

/-- No warning about a reference is about a conflict. -/
theorem quiet_tryReferences (hn : (a.objects.map (·.id)).Nodup) :
    Quiet a.toGraph.1.tryReferences.2 := by
  rw [warnings_tryReferences hn]
  intro w hw
  obtain ⟨e, -, hw⟩ := List.mem_flatMap.mp hw
  obtain ⟨r, -, hw⟩ := List.mem_filterMap.mp hw
  unfold dangling? at hw
  split at hw
  · simp at hw
  · obtain rfl := Option.some.inj hw
    rfl

section

variable (hperm : a.entries.Perm a'.entries) (hn : (a.objects.map (·.id)).Nodup)
  (hn' : (a'.objects.map (·.id)).Nodup)
include hperm hn hn'

/-- The same claims lead nowhere. -/
theorem perm_refusals (ids : Object → List String) (hids : ∀ o : Object, ids o.unplaced = ids o) :
    (a'.objects.flatMap fun o => (ids o).filterMap (a'.refusal? o)).Perm
      (a.objects.flatMap fun o => (ids o).filterMap (a.refusal? o)) := by
  have hentries : ∀ b : Arena, (b.objects.flatMap fun o => (ids o).filterMap (b.refusal? o))
      = b.entries.flatMap fun e => (ids e.1).filterMap (b.refusal? e.1) := by
    intro b
    rw [entries, List.flatMap_map]
    refine List.flatMap_congr fun o _ => ?_
    rw [hids]
    rfl
  rw [hentries, hentries, refusal?_eq_of_roster_eq hn hn' (roster_eq_of_perm hperm)]
  exact hperm.symm.flatMap_right _

/-- The same warnings are made about claims. -/
theorem perm_warnings_toGraph (ha : a.IsWrapped) (ha' : a'.IsWrapped)
    (hu : a.roster.Undisputed) : a'.toGraph.2.Perm a.toGraph.2 := by
  have hu' : a'.roster.Undisputed := by
    rw [← roster_eq_of_perm hperm]
    exact hu
  rw [warnings_of_undisputed hn ha hu, warnings_of_undisputed hn' ha' hu']
  refine (perm_refusals hperm hn hn' _ fun o => rfl).append
    ((perm_refusals hperm hn hn' _ fun o => rfl).append
      (perm_refusals hperm hn hn' _ fun o => rfl))

/-- The same warnings are made about references. -/
theorem perm_warnings_tryReferences :
    a'.toGraph.1.tryReferences.2.Perm a.toGraph.1.tryReferences.2 := by
  have hleads : a'.LeadsTo = a.LeadsTo := by
    funext refid kind
    cases kind <;> simp only [LeadsTo, hperm.mem_iff]
  have hdangling : a'.dangling? = a.dangling? := by
    funext source r
    rw [dangling?, dangling?, hleads]
  rw [warnings_tryReferences hn, warnings_tryReferences hn', hdangling]
  exact hperm.symm.flatMap_right _

end

end Arena

namespace Project

variable {settings : Settings} {d d' : Document} {roots roots' : List Element} {l : Linking}

/-- **Linking is quiet** if no id is used twice and nothing that objects say of each other is in
conflict. -/
theorem isQuiet_linked_iff :
    (linked settings d).IsQuiet
      ↔ FreeOfDuplicates (Arena.ofDocument settings.permalink d).2
        ∧ Quiet (Arena.ofDocument settings.permalink d).1.toGraph.2 := by
  have hreports : (linked settings d).reports
      = (Arena.ofDocument settings.permalink d).2.map Reportable.report
        ++ (Arena.ofDocument settings.permalink d).1.toGraph.2.map Reportable.report
        ++ (Arena.ofDocument settings.permalink d).1.toGraph.1.tryReferences.2.map
          Reportable.report := rfl
  have hreferences : Quiet (Arena.ofDocument settings.permalink d).1.toGraph.1.tryReferences.2 :=
    Arena.quiet_tryReferences (Arena.nodup_ids_ofDocument _ _)
  constructor
  · rintro ⟨homissions, hproblems⟩
    rw [hreports] at homissions hproblems
    refine ⟨fun w hw => ?_, fun w hw => ?_⟩
    · by_contra hconflict
      refine homissions w (by simpa using hconflict) ?_
      exact List.mem_append_left _ (List.mem_append_left _ (List.mem_map.mpr ⟨w, hw, rfl⟩))
    · by_contra hconflict
      refine hproblems w (by simpa using hconflict) ?_
      exact List.mem_append_left _ (List.mem_append_right _ (List.mem_map.mpr ⟨w, hw, rfl⟩))
  · rintro ⟨homissions, hproblems⟩
    -- the wording tells the reports from those of conflicts
    have htells : ∀ r ∈ (linked settings d).reports, r.tellsConflict = false := by
      rw [hreports]
      refine List.forall_mem_append.mpr ⟨List.forall_mem_append.mpr ⟨?_, ?_⟩, ?_⟩
      · exact List.forall_mem_map.mpr fun w hw => (tellsConflict_omission w).trans (homissions w hw)
      · exact List.forall_mem_map.mpr fun w hw =>
          (tellsConflict_linkProblem w).trans (hproblems w hw)
      · exact List.forall_mem_map.mpr fun w hw =>
          (tellsConflict_linkProblem w).trans (hreferences w hw)
    refine ⟨fun w hconflict hmem => ?_, fun w hconflict hmem => ?_⟩
    · rw [← tellsConflict_omission, htells _ hmem] at hconflict
      simp at hconflict
    · rw [← tellsConflict_linkProblem, htells _ hmem] at hconflict
      simp at hconflict

/-- **The same compounds in another order** are linked in the same way, if they are linked without
conflicts. -/
theorem linked_perm (hperm : d.compounds.Perm d'.compounds)
    (hquiet : (linked settings d).IsQuiet) :
    (linked settings d').IsQuiet
      ∧ (linked settings d').reports.Perm (linked settings d).reports
      ∧ (∀ id, (linked settings d').graph.permalinkOf? id
          = (linked settings d).graph.permalinkOf? id)
      ∧ ∀ id, (linked settings d).graph.homeOf? id ≠ some .classes →
          (linked settings d').graph.parentOf? id = (linked settings d).graph.parentOf? id := by
  obtain ⟨hfree, hquiet⟩ := isQuiet_linked_iff.mp hquiet
  -- no id is used twice in either order, so the same compounds have objects
  have hfree' : FreeOfDuplicates (Arena.ofDocument settings.permalink d').2 := by
    rw [Arena.freeOfDuplicates_iff] at hfree ⊢
    exact ((hperm.filterMap _).map _).nodup_iff.mp hfree
  have homitted : (Arena.ofDocument settings.permalink d').2.Perm
      (Arena.ofDocument settings.permalink d).2 := by
    rw [Arena.omissions_ofDocument hfree, Arena.omissions_ofDocument hfree']
    exact hperm.symm.filterMap _
  have hentries : (Arena.ofDocument settings.permalink d).1.entries.Perm
      (Arena.ofDocument settings.permalink d').1.entries := by
    rw [Arena.entries_ofDocument hfree, Arena.entries_ofDocument hfree']
    exact hperm.filterMap _
  have hn := Arena.nodup_ids_ofDocument settings.permalink d
  have hn' := Arena.nodup_ids_ofDocument settings.permalink d'
  have ha := Arena.ofDocument_isWrapped settings.permalink d
  have ha' := Arena.ofDocument_isWrapped settings.permalink d'
  -- there is no conflict in one roster, and the other one is the same
  have hr := Arena.roster_eq_of_perm hentries
  have hu := (Arena.quiet_toGraph_iff hn ha).mp hquiet
  have hu' := hr ▸ hu
  have hhome := Arena.homeOf?_eq_of_roster_eq hn hn' hr
  refine ⟨?_, ?_, fun id => ?_, fun id hid => ?_⟩
  · exact isQuiet_linked_iff.mpr ⟨hfree', (Arena.quiet_toGraph_iff hn' ha').mpr hu'⟩
  · exact ((homitted.map _).append
      ((Arena.perm_warnings_toGraph hentries hn hn' ha ha' hu).map _)).append
      ((Arena.perm_warnings_tryReferences hentries hn hn').map _)
  · refine Option.ext fun s => ?_
    exact (Arena.permalinkOf?_eq_some_iff hn' ha' hu').trans
      (hr ▸ (Arena.permalinkOf?_eq_some_iff hn ha hu).symm)
  · refine Option.ext fun p => ?_
    exact (Arena.parentOf?_eq_some_iff hn' hu'.toIsForest (hhome ▸ hid)).trans
      (hr ▸ (Arena.parentOf?_eq_some_iff hn hu.toIsForest hid).symm)

/-- **The order of compound files does not matter** unless a conflict is reported.  If the roots of
some files are linked and no conflict is among the reports, then so it is in any other order: the
same warnings are made, every compound has the same permalink, and every object that is no class has
the same parent. -/
theorem linking_perm (hperm : roots.Perm roots') (hlinking : linking settings roots = .ok l)
    (hquiet : l.IsQuiet) :
    ∃ l', linking settings roots' = .ok l' ∧ l'.IsQuiet ∧ l'.reports.Perm l.reports
      ∧ (∀ id, l'.graph.permalinkOf? id = l.graph.permalinkOf? id)
      ∧ ∀ id, l.graph.homeOf? id ≠ some .classes →
          l'.graph.parentOf? id = l.graph.parentOf? id := by
  obtain ⟨d, hd, rfl⟩ := linking_eq_ok_iff.mp hlinking
  obtain ⟨d', hd', hcompounds⟩ := Document.ofRoots_perm hperm hd
  exact ⟨linked settings d', linking_eq_ok_iff.mpr ⟨d', hd', rfl⟩,
    linked_perm hcompounds hquiet⟩

/-- The root of a file with a group that claims others as nested in it. -/
def rootOfGroup (id : String) (claims : List String) : Element where
  name := "doxygen"
  attributes := [⟨"version", "1"⟩]
  content := [.child {
    name := "compounddef"
    attributes := [⟨"id", id⟩, ⟨"kind", "group"⟩]
    content := .child { name := "compoundname", content := [.text id] } :: claims.map fun claim =>
      .child { name := "innergroup", attributes := [⟨"refid", claim⟩], content := [.text claim] } }]

/-- Two files, with a group nested in the other one, which also claims a group that there is not. -/
def nestedFiles : List Element := [rootOfGroup "g" ["h", "x"], rootOfGroup "h" []]

/-- They are linked without conflicts. -/
theorem exists_linking_nestedFiles :
    ∃ l, linking {} nestedFiles = .ok l ∧ l.IsQuiet ∧ l.graph.parentOf? "h" = some "g" := by
  -- the order of serving is the only part that does not evaluate: here it is that of the document
  have heval : ((Document.ofRoots nestedFiles).toOption.any fun d =>
      let (a, omitted) := Arena.ofDocument {} d
      let order := List.range a.objects.length
      omitted.isEmpty && order.Pairwise (fun x y => a.depth a.link.1 x ≤ a.depth a.link.1 y)
        && (a.link.2.2 ++ (a.served a.link.1 order).2).all (! ·.isConflict)
        && a.toGraph.1.parentOf? "h" = some "g") = true := by decide +kernel
  obtain ⟨d, hd, heval⟩ := exists_eq_ok_of_any heval
  simp only [Bool.and_eq_true, List.isEmpty_iff, decide_eq_true_eq, List.all_eq_true,
    Bool.not_eq_true'] at heval
  obtain ⟨⟨⟨homitted, hdepths⟩, hquiet⟩, hparent⟩ := heval
  generalize ha : (Arena.ofDocument {} d).1 = a at hdepths hquiet hparent
  refine ⟨linked {} d, linking_eq_ok_iff.mpr ⟨d, hd, rfl⟩, isQuiet_linked_iff.mpr ⟨?_, ?_⟩, ?_⟩
  · show FreeOfDuplicates (Arena.ofDocument {} d).2
    rw [homitted]
    simp [FreeOfDuplicates]
  · show Quiet (Arena.ofDocument {} d).1.toGraph.2
    rw [ha]
    show Quiet (a.link.2.2 ++ (a.served a.link.1 (a.servingOrder a.link.1)).2)
    rw [Arena.servingOrder_eq_range hdepths]
    exact hquiet
  · show (Arena.ofDocument {} d).1.toGraph.1.parentOf? "h" = some "g"
    rw [ha]
    exact hparent

/-- In the other order they are linked in the same way, though the nested group comes first. -/
theorem linking_perm_nestedFiles :
    nestedFiles.Perm nestedFiles.reverse
      ∧ ∃ l, linking {} nestedFiles = .ok l ∧ l.IsQuiet ∧ l.graph.parentOf? "h" = some "g"
        ∧ ∃ l', linking {} nestedFiles.reverse = .ok l' ∧ l'.IsQuiet ∧ l'.reports.Perm l.reports
          ∧ (∀ id, l'.graph.permalinkOf? id = l.graph.permalinkOf? id)
          ∧ ∀ id, l.graph.homeOf? id ≠ some .classes →
              l'.graph.parentOf? id = l.graph.parentOf? id := by
  have hperm : nestedFiles.Perm nestedFiles.reverse := nestedFiles.reverse_perm.symm
  obtain ⟨l, hl, hquiet, hparent⟩ := exists_linking_nestedFiles
  exact ⟨hperm, l, hl, hquiet, hparent, linking_perm hperm hl hquiet⟩

end Project

end DocGraph
