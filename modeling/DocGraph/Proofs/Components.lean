import DocGraph.Proofs.Building
import DocGraph.Proofs.Directories

namespace DocGraph

/-!
# Components of permalinks

A permalink ought to be the directory of a collection and one or more components beneath it, none of
them empty.  What keeps it from that is known:

* `pathComponents`, `IsPathWithin` — the components of a path, and paths of such a form;
* `Graph.IsNameless` — an object with an empty segment, which no number makes up for;
* `Arena.isPathWithin_permalink_iff` — the main statement: a permalink has that form if and only if
  neither its object nor any object above it is nameless;
* `Arena.not_isPathWithin_namelessPages` — and some are.
-/

/-! ### Components -/

/-- The components of a path. -/
def pathComponents (path : String) : List String := (path.toList.splitOn '/').map String.ofList

/-- A path of one or more components beneath a directory, none of them empty. -/
def IsPathWithin (directory path : String) : Prop :=
  ∃ components, pathComponents path = directory :: components
    ∧ components ≠ [] ∧ "" ∉ components

/-- The directory is the first component, and the others are what is beneath it. -/
theorem isPathWithin_iff {directory path : String} :
    IsPathWithin directory path ↔ (pathComponents path).head? = some directory
      ∧ (pathComponents path).tail ≠ [] ∧ "" ∉ (pathComponents path).tail := by
  rw [IsPathWithin]
  cases pathComponents path with
  | nil => simp
  | cons first components => simp [eq_comm]

instance (directory path : String) : Decidable (IsPathWithin directory path) :=
  decidable_of_iff _ isPathWithin_iff.symm

section

variable {s t : String} {segments : List String}

/-- Even an empty path has a component, which is empty. -/
theorem pathComponents_ne_nil (s : String) : pathComponents s ≠ [] := by
  simp [pathComponents]

/-- A path beneath another one has the components of both. -/
theorem pathComponents_beneath (s t : String) :
    pathComponents s!"{s}/{t}" = pathComponents s ++ pathComponents t := by
  rw [pathComponents, toList_beneath, List.splitOn_append_cons_self, List.map_append]
  rfl

/-- A text without slashes is a single component. -/
theorem pathComponents_of_slash_not_mem (hs : '/' ∉ s.toList) : pathComponents s = [s] := by
  rw [pathComponents, List.splitOn_eq_singleton hs, List.map_singleton, String.ofList_toList]

/-- What stands behind a path without a slash becomes part of its last component. -/
theorem splitOn_append (cs : List Char) {ds : List Char} (hds : '/' ∉ ds) :
    ∃ before last, cs.splitOn '/' = before ++ [last]
      ∧ (cs ++ ds).splitOn '/' = before ++ [last ++ ds] := by
  induction cs with
  | nil => exact ⟨[], [], rfl, List.splitOn_eq_singleton hds⟩
  | cons c cs ih =>
    obtain ⟨before, last, hcs, happend⟩ := ih
    rw [List.cons_append, List.splitOn_cons_eq_if_modifyHead, List.splitOn_cons_eq_if_modifyHead,
      hcs, happend]
    -- a slash starts another component; any other character joins the first one
    by_cases hc : (c == '/') = true
    · exact ⟨[] :: before, last, by simp [hc], by simp [hc]⟩
    · cases before with
      | nil => exact ⟨[], c :: last, by simp [hc], by simp [hc]⟩
      | cons first before => exact ⟨(c :: first) :: before, last, by simp [hc], by simp [hc]⟩

/-- What is put behind a path without a slash goes to its last component. -/
theorem pathComponents_append (ht : '/' ∉ t.toList) :
    ∃ before last, pathComponents s = before ++ [last]
      ∧ pathComponents (s ++ t) = before ++ [last ++ t] := by
  obtain ⟨before, last, hs, happend⟩ := splitOn_append s.toList ht
  refine ⟨before.map String.ofList, String.ofList last, ?_, ?_⟩
  · simp [pathComponents, hs]
  · simp [pathComponents, happend, String.ofList_append]

/-! ### Components of segments -/

/-- Joined segments are their components, those that are empty left out. -/
theorem pathComponents_joinSegments (hs : ∀ s ∈ segments, '/' ∉ s.toList)
    (hne : segments.filter (! ·.isEmpty) ≠ []) :
    pathComponents (Object.joinSegments segments) = segments.filter (! ·.isEmpty) := by
  generalize hkept : segments.filter (! ·.isEmpty) = kept at hne
  have hslash : ∀ cs ∈ kept.map String.toList, '/' ∉ cs := by
    intro cs hcs
    obtain ⟨s, hs', rfl⟩ := List.mem_map.mp hcs
    rw [← hkept] at hs'
    exact hs s (List.mem_filter.mp hs').1
  have hseparator : "/".toList = ['/'] := rfl
  rw [Object.joinSegments, hkept, pathComponents, String.toList_intercalate, hseparator,
    List.splitOn_intercalate '/' hslash (by simpa using hne)]
  simp

/-- A text with an empty component only if it is empty itself. -/
def IsTidy (s : String) : Prop := "" ∈ pathComponents s → s = ""

/-- **Joining segments** leaves out the empty ones, so no other component is empty. -/
theorem isTidy_joinSegments (hs : ∀ s ∈ segments, '/' ∉ s.toList) :
    IsTidy (Object.joinSegments segments) := by
  intro hempty
  by_cases hkept : segments.filter (! ·.isEmpty) = []
  · rw [Object.joinSegments, hkept]
    rfl
  · rw [pathComponents_joinSegments hs hkept] at hempty
    simp at hempty

/-- A tidy text has an empty component if and only if it is empty. -/
theorem IsTidy.empty_mem_iff (hs : IsTidy s) : "" ∈ pathComponents s ↔ s = "" := by
  refine ⟨hs, ?_⟩
  rintro rfl
  decide

/-- **A number makes up for an empty segment.** -/
theorem IsTidy.empty_not_mem_numbered (hs : IsTidy s) (n : Nat) :
    "" ∉ pathComponents (numbered s n) := by
  have hnumber : '/' ∉ ("-" ++ toString n).toList :=
    (PermalinkStyle.writesAll_hyphen.append (PermalinkStyle.writesAll_repr {} n)).slash_not_mem
  have heq : numbered s n = s ++ ("-" ++ toString n) := String.append_assoc
  obtain ⟨before, last, hcomponents, happend⟩ := pathComponents_append (s := s) hnumber
  rw [heq, happend, List.mem_append, not_or]
  constructor
  · intro hempty
    obtain rfl := hs (hcomponents ▸ List.mem_append_left _ hempty)
    -- the only component of an empty segment is the last, before which there is none
    have hsingle : [""] = before ++ [last] := hcomponents
    have hlength := congrArg List.length hsingle
    have hpositive := List.length_pos_of_mem hempty
    simp only [List.length_append, List.length_singleton] at hlength
    omega
  · simp

end

namespace Object

theorem isTidy_segmentOf (p : PermalinkStyle) (d : CompoundDef) (kind : ObjectKind) :
    IsTidy (segmentOf p d kind) := by
  obtain ⟨components, hcomponents, heq⟩ := exists_components_segmentOf p d kind
  rw [heq]
  exact isTidy_joinSegments fun s hs => (hcomponents s hs).slash_not_mem

end Object

/-! ### Objects without a name -/

/-- Whether an object is another one, or nests beneath it, be it with others in between. -/
def Graph.IsBeneath (g : Graph) : Nat → Nat → Prop :=
  Relation.ReflTransGen fun x p => g.nestingParent? g.hierarchy x = some p

/-- An object with an empty segment, and with no number to make up for it. -/
def Graph.IsNameless (g : Graph) (x : Nat) : Prop :=
  (∃ o, g.objects[x]? = some o ∧ o.segment = "") ∧ g.permalink x = g.wanted x

namespace Arena

variable {a : Arena} {x : Nat} {o : Object}

/-- The permalink beneath which that of an object lies, or else the directory of its collection. -/
def base (a : Arena) (x : Nat) (o : Object) : String :=
  (a.nestingParent? a.link.1 x).elim o.collection.name a.toGraph.1.permalink

/-- Whatever nests or not, the candidate of an object is its segment beneath something. -/
theorem wanted_eq_beneath (ho : a.objects[x]? = some o) :
    a.toGraph.1.wanted x = s!"{a.base x o}/{o.segment}" := by
  rw [wanted_eq ho, base]
  cases a.nestingParent? a.link.1 x <;> rfl

/-- A number goes behind the last component. -/
theorem numbered_beneath (s t : String) (n : Nat) :
    numbered s!"{s}/{t}" n = s!"{s}/{numbered t n}" := by
  rw [← String.toList_inj, toList_numbered, toList_beneath, toList_beneath, toList_numbered,
    List.append_assoc]
  rfl

theorem numbered_ne (s : String) (n : Nat) : numbered s n ≠ s := by
  intro heq
  have hlength := congrArg (fun s => s.toList.length) heq
  simp only [toList_numbered, List.length_append, List.length_cons] at hlength
  omega

/-- **What an object adds** to the permalink above holds an empty component if it is nameless. -/
theorem permalink_eq_beneath (hs : a.Sound a.link.1) (ho : a.objects[x]? = some o)
    (htidy : IsTidy o.segment) :
    ∃ last, a.toGraph.1.permalink x = s!"{a.base x o}/{last}"
      ∧ ("" ∈ pathComponents last ↔ a.toGraph.1.IsNameless x) := by
  have hsegment : (∃ o', a.toGraph.1.objects[x]? = some o' ∧ o'.segment = "") ↔ o.segment = "" := by
    have ho : a.toGraph.1.objects[x]? = some o := ho
    simp [ho]
  have hwanted := wanted_eq_beneath ho
  -- An object that was renamed has a number in its last component, which is not empty then.
  rcases permalink_cases hs (List.getElem?_eq_some_iff.mp ho).1 with heq | ⟨n, heq⟩
  · refine ⟨o.segment, heq.trans hwanted, ?_⟩
    rw [htidy.empty_mem_iff, Graph.IsNameless, hsegment]
    exact (and_iff_left heq).symm
  · refine ⟨numbered o.segment n, ?_, iff_of_false (htidy.empty_not_mem_numbered n) ?_⟩
    · rw [heq, hwanted, numbered_beneath]
    · rintro ⟨-, hkept⟩
      exact numbered_ne _ n (heq.symm.trans hkept)

/-- **The components of a permalink**: the directory, and one or more of which one is empty if the
object or one above it is nameless. -/
theorem exists_components_permalink (ha : a.IsWrapped) (ho : a.objects[x]? = some o) :
    ∃ components, pathComponents (a.toGraph.1.permalink x) = o.collection.name :: components
      ∧ components ≠ []
      ∧ ("" ∈ components ↔ ∃ y, a.toGraph.1.IsBeneath x y ∧ a.toGraph.1.IsNameless y) := by
  have hs := sound_link ha
  -- Along the nesting: the components of an object are those of the one above it, and its own.
  induction x using nesting_induction hs generalizing o with
  | step x ih =>
    have htidy : IsTidy o.segment := by
      obtain ⟨p, d, kind, place, rfl⟩ := ha o (List.mem_of_getElem? ho)
      exact Object.isTidy_segmentOf p d kind
    obtain ⟨last, hpermalink, hlast⟩ := permalink_eq_beneath hs ho htidy
    have hbeneath : ∀ y, a.toGraph.1.IsBeneath x y ↔ x = y
        ∨ ∃ p, a.nestingParent? a.link.1 x = some p ∧ a.toGraph.1.IsBeneath p y :=
      fun y => Relation.ReflTransGen.cases_head_iff
    rw [hpermalink, pathComponents_beneath, base]
    cases hp : a.nestingParent? a.link.1 x with
    | none =>
      have hname : '/' ∉ o.collection.name.toList := by cases o.collection <;> decide
      rw [Option.elim_none, pathComponents_of_slash_not_mem hname]
      refine ⟨pathComponents last, rfl, pathComponents_ne_nil last, ?_⟩
      simp [hlast, hbeneath, hp]
    | some p =>
      obtain ⟨q, hq⟩ : ∃ q, a.objects[p]? = some q :=
        ⟨_, List.getElem?_eq_getElem (lt_of_nestingParent? hs hp)⟩
      -- the whole line of nesting stays in one collection
      have hcollection : q.collection = o.collection := by
        have heq := collectionOf?_nestingParent? hs hp
        simpa [collectionOf?, hq, ho] using heq
      obtain ⟨components, hcomponents, hne, hempty⟩ := ih p hp hq
      rw [Option.elim_some, hcomponents, hcollection]
      refine ⟨components ++ pathComponents last, rfl, by simp [hne], ?_⟩
      rw [List.mem_append, hlast, hempty]
      simp only [hbeneath, hp, Option.some.injEq, exists_eq_left', or_and_right, exists_or, or_comm]

/-- **Permalinks have one or more components beneath the directory, none of them empty**, save those
of nameless objects and of what nests beneath these. -/
theorem isPathWithin_permalink_iff (style : PermalinkStyle) (d : Document) :
    let g := (ofDocument style d).1.toGraph.1
    ∀ x o, g.objects[x]? = some o →
      (IsPathWithin o.collection.name (g.permalink x)
        ↔ ∀ y, g.IsBeneath x y → ¬ g.IsNameless y) := by
  intro g x o ho
  obtain ⟨components, hcomponents, hne, hempty⟩ :=
    exists_components_permalink (ofDocument_isWrapped style d) ho
  have hwithin : IsPathWithin o.collection.name (g.permalink x) ↔ "" ∉ components := by
    rw [IsPathWithin, hcomponents]
    constructor
    · rintro ⟨components', heq, -, hfull⟩
      exact (List.cons.inj heq).2 ▸ hfull
    · exact fun hfull => ⟨components, rfl, hne, hfull⟩
  rw [hwithin, hempty]
  simp only [not_exists, not_and]
  exact Iff.rfl

/-- The root of a file with two pages, one beneath the other.  The name of the page above is made of
punctuation. -/
def namelessPages : Element where
  name := "doxygen"
  attributes := [⟨"version", "1.9.8"⟩]
  content := [
    .child {
      name := "compounddef"
      attributes := [⟨"id", "page_a"⟩, ⟨"kind", "page"⟩]
      content := [
        .child { name := "compoundname", content := [.text "!!!"] },
        .child {
          name := "innerpage", attributes := [⟨"refid", "page_b"⟩], content := [.text "b"] }] },
    .child {
      name := "compounddef"
      attributes := [⟨"id", "page_b"⟩, ⟨"kind", "page"⟩]
      content := [.child { name := "compoundname", content := [.text "b"] }] }]

/-- **The page above has no component**, and so the one beneath it has an empty one. -/
theorem not_isPathWithin_namelessPages :
    ∃ d, Document.ofRoots [namelessPages] = .ok d
      ∧ (ofDocument {} d).1.objects.map (·.collection) = [.pages, .pages]
      ∧ (ofDocument {} d).1.toGraph.1.permalink 0 = "pages/" ∧ ¬ IsPathWithin "pages" "pages/"
      ∧ (ofDocument {} d).1.toGraph.1.permalink 1 = "pages//b"
      ∧ ¬ IsPathWithin "pages" "pages//b" := by
  -- the order of serving does not evaluate, but here it is that of the document
  have heval : ((Document.ofRoots [namelessPages]).toOption.any fun d =>
      let a := (ofDocument {} d).1
      let order := List.range a.objects.length
      a.objects.map (·.collection) = [.pages, .pages]
        && order.Pairwise (fun x y => a.depth a.link.1 x ≤ a.depth a.link.1 y)
        && (a.served a.link.1 order).1 = [("pages/", 0), ("pages//b", 1)]) = true := by
    decide +kernel
  obtain ⟨d, hd, heval⟩ := exists_eq_ok_of_any heval
  simp only [Bool.and_eq_true, decide_eq_true_eq] at heval
  obtain ⟨⟨hobjects, hdepths⟩, hserved⟩ := heval
  rw [← servingOrder_eq_range hdepths, ← permalinks_toGraph] at hserved
  have hpermalink : ∀ s x, (s, x) ∈ [("pages/", 0), ("pages//b", 1)] →
      (ofDocument {} d).1.toGraph.1.permalink x = s := by
    intro s x hmem
    exact (mem_permalinks_iff.mp (hserved ▸ hmem)).2
  exact ⟨d, hd, hobjects, hpermalink _ 0 (by decide), by decide, hpermalink _ 1 (by decide),
    by decide⟩

/-- Hence one of them is nameless. -/
theorem isPathWithin_permalink_iff_namelessPages :
    ∃ d, Document.ofRoots [namelessPages] = .ok d
      ∧ ¬ ∀ y, (ofDocument {} d).1.toGraph.1.IsBeneath 1 y
        → ¬ (ofDocument {} d).1.toGraph.1.IsNameless y := by
  obtain ⟨d, hd, hobjects, -, -, hpermalink, hnot⟩ := not_isPathWithin_namelessPages
  obtain ⟨o, ho, hpages⟩ :
      ∃ o, (ofDocument {} d).1.objects[1]? = some o ∧ o.collection = .pages := by
    have hsecond := congrArg (·[1]?) hobjects
    simpa using hsecond
  refine ⟨d, hd, fun hnamed => hnot ?_⟩
  have hwithin := (isPathWithin_permalink_iff {} d 1 o ho).mpr hnamed
  rwa [hpages, hpermalink] at hwithin

end Arena

end DocGraph
