import DocGraph.Proofs.Depths
import DocGraph.Proofs.Permalinks

namespace DocGraph

/-!
# Which permalink an object has

The permalinks obey a law that speaks of the finished graph alone, so it does not matter in which
order they came about:

* `Arena.depth_eq` — an object that nests is one deeper than its parent, others are not deep at all;
* `Graph.Before`, `Arena.pairwise_servingOrder` — the order in which objects are served: by depth,
  and in document order within a depth;
* `Graph.wanted` — the permalink that an object should have, given that of its parent;
* `Arena.owner?_served`, `Arena.candidate_served` — what has been assigned when an object is served
  is what the finished graph says of the objects before it;
* `Arena.permalink_law` — the law: an object has the permalink wanted unless an object before it has
  that, and else the first free number behind it; the latter is reported.
-/

/-! ### Depth -/

namespace Arena

variable {a : Arena} {h : Hierarchy} {p x : Nat}

/-- **The depth of an object** is one more than that of the parent beneath whose permalink its own
lies, if there is one. -/
theorem depth_eq (hs : a.Sound h) (x : Nat) :
    a.depth h x = match a.nestingParent? h x with
      | none => 0
      | some p => a.depth h p + 1 := depth_of_parentsAcyclic hs.acyclic.parentsAcyclic x

/-- **A parent is less deep**, so it is served first. -/
theorem depth_lt_of_nestingParent? (hs : a.Sound h) (hp : a.nestingParent? h x = some p) :
    a.depth h p < a.depth h x := by
  have hdepth : a.depth h x = a.depth h p + 1 := by rw [depth_eq hs x, hp]
  exact hdepth ▸ Nat.lt_succ_self _

theorem lt_of_nestingParent? (hs : a.Sound h) (hp : a.nestingParent? h x = some p) :
    p < a.objects.length :=
  hs.lt_of_isParent (Hierarchy.isParent_of_parent? (parent?_of_nestingParent? hp))

end Arena

/-! ### The order of serving -/

namespace Graph

/-- Whether `y` is served before `x`: it is less deep, or as deep and earlier in the document. -/
def Before (g : Graph) (y x : Nat) : Prop :=
  g.depth g.hierarchy y < g.depth g.hierarchy x
    ∨ g.depth g.hierarchy y = g.depth g.hierarchy x ∧ y < x

instance (g : Graph) (y x : Nat) : Decidable (g.Before y x) := inferInstanceAs (Decidable (_ ∨ _))

/-- No two objects are served before each other. -/
theorem Before.asymm {g : Graph} {x y : Nat} (hyx : g.Before y x) : ¬ g.Before x y := by
  unfold Before at *
  omega

/-- The permalink that an object should have. -/
def wanted (g : Graph) (x : Nat) : String :=
  match g.objects[x]? with
  | none => ""
  | some o =>
    match g.nestingParent? g.hierarchy x with
    | some p => s!"{g.permalink p}/{o.segment}"
    | none => o.skeleton

/-- No object served before `x` has this permalink. -/
def FreeFor (g : Graph) (x : Nat) (permalink : String) : Prop :=
  ∀ y, y < g.objects.length → g.Before y x → g.permalink y ≠ permalink

/-- The object served before `x` that has this permalink. -/
def earlier? (g : Graph) (x : Nat) (permalink : String) : Option Nat :=
  (List.range g.objects.length).find? fun y => g.Before y x && g.permalink y == permalink

/-- The search for an earlier object with a permalink fails if the permalink is free. -/
theorem earlier?_eq_none_iff {g : Graph} {x : Nat} {permalink : String} :
    g.earlier? x permalink = none ↔ g.FreeFor x permalink := by
  simp [earlier?, FreeFor]

/-- The warning that an object does not have the permalink wanted. -/
def renaming? (g : Graph) (x : Nat) : Option LinkProblem :=
  (g.earlier? x (g.wanted x)).map fun y =>
    .duplicatePermalink (g.idOf x) (g.idOf y) (g.wanted x) (g.permalink x)

end Graph

/-- Sorting by a key leaves numbers with the same key in their order. -/
theorem pairwise_mergeSort_range (key : Nat → Nat) (n : Nat) :
    ((List.range n).mergeSort fun x y => key x ≤ key y).Pairwise
      fun x y => key x < key y ∨ key x = key y ∧ x < y := by
  have hnodup : ((List.range n).mergeSort fun x y => key x ≤ key y).Nodup :=
    (List.mergeSort_perm _ _).nodup_iff.mpr List.nodup_range
  have hsorted : ((List.range n).mergeSort fun x y => key x ≤ key y).Pairwise
      fun x y => key x < key y ∨ key x = key y ∧ x ≤ y := by
    rw [← List.mergeSort_zipIdx, List.pairwise_map]
    refine (List.pairwise_mergeSort (List.zipIdxLE_trans ?_) (List.zipIdxLE_total ?_) _).imp_of_mem
      fun {e f} he hf hle => ?_
    · simp only [decide_eq_true_eq]
      exact fun _ _ _ => Nat.le_trans
    · simp only [Bool.or_eq_true, decide_eq_true_eq]
      exact fun _ _ => Nat.le_total _ _
    · -- each number stands at its own place in the range
      have hplace : ∀ {z i}, (z, i) ∈ (List.range n).zipIdx → i = z := by
        intro z i hz
        rw [List.mem_zipIdx_iff_getElem?, List.getElem?_eq_some_iff] at hz
        obtain ⟨_, hz⟩ := hz
        simpa using hz
      obtain ⟨x, i⟩ := e
      obtain ⟨y, j⟩ := f
      obtain rfl := hplace (List.mem_mergeSort.mp he)
      obtain rfl := hplace (List.mem_mergeSort.mp hf)
      simp only [List.zipIdxLE, decide_eq_true_eq] at hle
      show key i < key j ∨ key i = key j ∧ i ≤ j
      split at hle
      · split at hle
        · have := of_decide_eq_true hle
          omega
        · omega
      · simp at hle
  refine (hsorted.and hnodup).imp fun ⟨hle, hne⟩ => ?_
  omega

namespace Arena

variable {a : Arena} {x y : Nat} {before after : List Nat}

/-- Objects are served in this order. -/
theorem pairwise_servingOrder (a : Arena) :
    (a.servingOrder a.link.1).Pairwise a.toGraph.1.Before :=
  pairwise_mergeSort_range (a.depth a.link.1) a.objects.length

/-- When an object is served, those before it in this order have been, and no others. -/
theorem mem_before_iff (hsplit : a.servingOrder a.link.1 = before ++ x :: after) :
    y ∈ before ↔ y < a.objects.length ∧ a.toGraph.1.Before y x := by
  have hpairwise := a.pairwise_servingOrder
  have hmem := mem_servingOrder (a := a) (h := a.link.1) (x := y)
  rw [hsplit] at hpairwise hmem
  rw [List.pairwise_append, List.pairwise_cons] at hpairwise
  obtain ⟨-, ⟨hafter, -⟩, hbefore⟩ := hpairwise
  constructor
  · intro hy
    exact ⟨hmem.mp (List.mem_append_left _ hy), hbefore y hy x List.mem_cons_self⟩
  · rintro ⟨hlt, hyx⟩
    rcases List.mem_append.mp (hmem.mpr hlt) with hy | hy
    · exact hy
    · rcases List.mem_cons.mp hy with rfl | hy
      -- neither `x` itself nor what is served later can be before `x`
      · exact absurd hyx hyx.asymm
      · exact absurd hyx (hafter y hy).asymm

/-! ### What has been assigned when an object is served -/

/-- The object served next gets a permalink after those assigned before, which stay. -/
theorem permalinks_eq_append (hsplit : a.servingOrder a.link.1 = before ++ x :: after) :
    ∃ rest, a.toGraph.1.permalinks = (a.served a.link.1 before).1
      ++ (a.assigned a.link.1 (a.served a.link.1 before).1 x, x) :: rest := by
  obtain ⟨rest, hserved, -⟩ := a.served_append a.link.1 (before ++ [x]) after
  refine ⟨rest, ?_⟩
  rw [permalinks_toGraph, hsplit, List.append_cons before x after, hserved,
    served_append_singleton]
  simp

/-- **An object keeps the permalink** that it gets when it is served. -/
theorem permalink_eq_assigned (hsplit : a.servingOrder a.link.1 = before ++ x :: after) :
    a.toGraph.1.permalink x = a.assigned a.link.1 (a.served a.link.1 before).1 x := by
  obtain ⟨rest, hrest⟩ := permalinks_eq_append hsplit
  refine (mem_permalinks_iff.mp ?_).2
  rw [hrest]
  simp

/-- What has been assigned is what the finished graph says of the objects served. -/
theorem mem_served_iff (hsplit : a.servingOrder a.link.1 = before ++ x :: after) {s : String} :
    (s, y) ∈ (a.served a.link.1 before).1 ↔ y ∈ before ∧ a.toGraph.1.permalink y = s := by
  obtain ⟨rest, hrest⟩ := permalinks_eq_append hsplit
  -- later steps only add permalinks, so those assigned are still there in the end
  have hfinal : ∀ {t}, (t, y) ∈ (a.served a.link.1 before).1 → a.toGraph.1.permalink y = t := by
    intro t ht
    refine (mem_permalinks_iff.mp ?_).2
    rw [hrest]
    exact List.mem_append_left _ ht
  have hplaces := a.places_served a.link.1 before
  constructor
  · intro hy
    refine ⟨?_, hfinal hy⟩
    rw [← hplaces]
    exact List.mem_map.mpr ⟨_, hy, rfl⟩
  · rintro ⟨hy, rfl⟩
    rw [← hplaces] at hy
    obtain ⟨⟨t, _⟩, ht, rfl⟩ := List.mem_map.mp hy
    rw [hfinal ht]
    exact ht

/-- **The owner of a permalink when an object is served** is the object before it that has the
permalink in the end. -/
theorem owner?_served (hsplit : a.servingOrder a.link.1 = before ++ x :: after) (s : String) :
    (a.served a.link.1 before).1.owner? s = a.toGraph.1.earlier? x s := by
  -- What is served before `x` are the objects that come before it in the order of the law.
  have howner : ∀ y, (a.served a.link.1 before).1.owner? s = some y
      ↔ (y < a.objects.length ∧ a.toGraph.1.Before y x) ∧ a.toGraph.1.permalink y = s := by
    intro y
    rw [Permalinks.owner?_eq_some_iff (a.nodup_permalinks_served _ _), mem_served_iff hsplit,
      mem_before_iff hsplit]
  cases hfind : a.toGraph.1.earlier? x s with
  | none =>
    by_contra hsome
    obtain ⟨y, hy⟩ := Option.ne_none_iff_exists'.mp hsome
    obtain ⟨⟨hlt, hyx⟩, rfl⟩ := (howner y).mp hy
    have hnot := List.find?_eq_none.mp hfind y (List.mem_range.mpr hlt)
    simp [hyx] at hnot
  | some y =>
    have hy := List.find?_some hfind
    rw [Bool.and_eq_true, decide_eq_true_eq, beq_iff_eq] at hy
    exact (howner y).mpr ⟨⟨List.mem_range.mp (List.mem_of_find?_eq_some hfind), hy.1⟩, hy.2⟩

/-- **The candidate of an object when it is served** is the permalink wanted in the end: its parent
has been served before it. -/
theorem candidate_served (hs : a.Sound a.link.1)
    (hsplit : a.servingOrder a.link.1 = before ++ x :: after) :
    a.candidate a.link.1 (a.served a.link.1 before).1 x = a.toGraph.1.wanted x := by
  have hnodup : ((a.served a.link.1 before).1.map (·.2)).Nodup := by
    have := a.nodup_servingOrder a.link.1
    rw [hsplit] at this
    rw [places_served]
    exact this.of_append_left
  show _ = match a.objects[x]? with
    | none => ""
    | some o => match a.nestingParent? a.link.1 x with
      | some p => s!"{a.toGraph.1.permalink p}/{o.segment}"
      | none => o.skeleton
  rw [candidate]
  cases a.objects[x]? with
  | none => rfl
  | some o =>
    cases hp : a.nestingParent? a.link.1 x with
    | none => rfl
    | some p =>
      -- the parent is less deep, so its permalink has been assigned and stays what it is
      have hbefore : a.toGraph.1.Before p x := Or.inl (depth_lt_of_nestingParent? hs hp)
      have hof : (a.served a.link.1 before).1.of? p = some (a.toGraph.1.permalink p) :=
        (Permalinks.of?_eq_some_iff hnodup).mpr ((mem_served_iff hsplit).mpr
          ⟨(mem_before_iff hsplit).mpr ⟨lt_of_nestingParent? hs hp, hbefore⟩, rfl⟩)
      rw [Option.bind_some, hof]

/-- The warning made then can be told from the permalinks in the end. -/
theorem renaming?_served (hs : a.Sound a.link.1)
    (hsplit : a.servingOrder a.link.1 = before ++ x :: after) :
    a.renaming? a.link.1 (a.served a.link.1 before).1 x = a.toGraph.1.renaming? x := by
  rw [renaming?, candidate_served hs hsplit, owner?_served hsplit,
    ← permalink_eq_assigned hsplit]
  rfl

/-- The warnings are those of the objects served, in order. -/
theorem warnings_served (hs : a.Sound a.link.1)
    (hsplit : a.servingOrder a.link.1 = before ++ after) :
    (a.served a.link.1 before).2 = before.filterMap a.toGraph.1.renaming? := by
  induction before using List.reverseRecOn generalizing after with
  | nil => rfl
  | append_singleton before x ih =>
    have hsplit : a.servingOrder a.link.1 = before ++ x :: after := by simpa using hsplit
    rw [served_append_singleton, ih hsplit, renaming?_served hs hsplit, List.filterMap_append]
    cases hr : a.toGraph.1.renaming? x <;> simp [hr]

end Arena

namespace Arena

variable {a : Arena} {x : Nat}

/-! ### The law -/

/-- Every object is served at some time. -/
theorem exists_servingOrder_eq (hx : x < a.objects.length) :
    ∃ before after, a.servingOrder a.link.1 = before ++ x :: after :=
  List.append_of_mem (mem_servingOrder.mpr hx)

/-- An object has the permalink wanted if no object before it has that. -/
theorem permalink_eq_wanted (hs : a.Sound a.link.1) (hx : x < a.objects.length)
    (hfree : a.toGraph.1.FreeFor x (a.toGraph.1.wanted x)) :
    a.toGraph.1.permalink x = a.toGraph.1.wanted x := by
  obtain ⟨before, after, hsplit⟩ := exists_servingOrder_eq hx
  rw [permalink_eq_assigned hsplit, assigned, candidate_served hs hsplit, owner?_served hsplit,
    Graph.earlier?_eq_none_iff.mpr hfree]

/-- Else it has the first free number behind it. -/
theorem permalink_eq_numbered (hs : a.Sound a.link.1) (hx : x < a.objects.length)
    (hnot : ¬ a.toGraph.1.FreeFor x (a.toGraph.1.wanted x)) :
    ∃ n, 1 ≤ n ∧ a.toGraph.1.permalink x = numbered (a.toGraph.1.wanted x) n
      ∧ a.toGraph.1.FreeFor x (numbered (a.toGraph.1.wanted x) n)
      ∧ ∀ m, 1 ≤ m → m < n → ¬ a.toGraph.1.FreeFor x (numbered (a.toGraph.1.wanted x) m) := by
  obtain ⟨before, after, hsplit⟩ := exists_servingOrder_eq hx
  obtain ⟨n, hn, heq, hfree, hleast⟩ :=
    firstFree_spec (a.toGraph.1.wanted x) (a.served a.link.1 before).1
  simp only [owner?_served hsplit, Graph.earlier?_eq_none_iff, ne_eq] at hfree hleast
  refine ⟨n, hn, ?_, hfree, hleast⟩
  obtain ⟨y, hy⟩ := Option.ne_none_iff_exists'.mp (mt Graph.earlier?_eq_none_iff.mp hnot)
  rw [permalink_eq_assigned hsplit, assigned, candidate_served hs hsplit, owner?_served hsplit, hy]
  exact heq

/-- The warnings about permalinks are those of all objects, in the order of serving. -/
theorem filter_isRenaming_toGraph (hs : a.Sound a.link.1) :
    a.toGraph.2.filter (·.isRenaming)
      = (a.servingOrder a.link.1).filterMap a.toGraph.1.renaming? := by
  have hwarnings : a.toGraph.2
      = a.link.2.2 ++ (a.served a.link.1 (a.servingOrder a.link.1)).2 := rfl
  have hlink : a.link.2.2.filter (·.isRenaming) = [] :=
    List.filter_eq_nil_iff.mpr fun w hw => by simp [isRenaming_of_mem_link w hw]
  have hnaming : ∀ w ∈ (a.servingOrder a.link.1).filterMap a.toGraph.1.renaming?,
      w.isRenaming = true := by
    intro w hw
    obtain ⟨x, -, hx⟩ := List.mem_filterMap.mp hw
    obtain ⟨y, -, rfl⟩ := Option.map_eq_some_iff.mp hx
    rfl
  rw [hwarnings, List.filter_append, hlink, List.nil_append,
    warnings_served hs (List.append_nil _).symm, List.filter_eq_self.mpr hnaming]

/-- **The law of permalinks**, on the finished graph of any document.  The depth of an object counts
the parents beneath whose permalinks its own lies.  Objects have the permalink wanted, unless an
object before them (less deep, or as deep and earlier in the document) has it, and else the first
free number behind it.  The latter are what is reported, in this order. -/
theorem permalink_law (p : PermalinkStyle) (d : Document) :
    let a := (ofDocument p d).1
    let g := a.toGraph.1
    (∀ x, g.depth g.hierarchy x = match g.nestingParent? g.hierarchy x with
        | none => 0
        | some q => g.depth g.hierarchy q + 1)
      ∧ (∀ x, x < g.objects.length →
          (g.FreeFor x (g.wanted x) → g.permalink x = g.wanted x)
          ∧ (¬ g.FreeFor x (g.wanted x) → ∃ n, 1 ≤ n ∧ g.permalink x = numbered (g.wanted x) n
              ∧ g.FreeFor x (numbered (g.wanted x) n)
              ∧ ∀ m, 1 ≤ m → m < n → ¬ g.FreeFor x (numbered (g.wanted x) m)))
      ∧ ∃ order : List Nat, order.Perm (List.range g.objects.length) ∧ order.Pairwise g.Before
          ∧ a.toGraph.2.filter (·.isRenaming) = order.filterMap g.renaming? := by
  intro a g
  have hs : a.Sound a.link.1 := sound_link (ofDocument_isWrapped p d)
  refine ⟨depth_eq hs, fun x hx => ⟨permalink_eq_wanted hs hx, permalink_eq_numbered hs hx⟩, ?_⟩
  exact ⟨a.servingOrder a.link.1, a.servingOrder_perm _, a.pairwise_servingOrder,
    filter_isRenaming_toGraph hs⟩

end Arena

end DocGraph
