import DocGraph.Proofs.Walking
import Mathlib.Order.WithBot

namespace DocGraph.Node

/-!
# Where nodes stand

A node of a tree is told from all others by the path that leads to it, even where the tree has the
same node twice.  Paths in their lexicographic order are in document order.

* `Node.IsShownAt`, `Node.IsMetAt` — a path leads to a node, and nothing above the node is pruned;
  what a walk is to meet there;
* `placedSteps`, `mem_placedSteps_iff` — the steps of a walk, each with its path: **a walk meets
  what is shown**; `map_snd_placedSteps` tells that it makes no other steps;
* `rank`, `pairwise_placedSteps` — **a walk goes in document order**, and makes each step once;
* `placed`, `placed_eq_filterMap` — the nodes entered, each with its path, are those of some steps;
* `mem_placed_iff`, `pairwise_placed` — **a walk enters each node that is shown, once and in
  document order**; `map_snd_placed` tells that it enters no others.
-/

variable {prune : Node → Bool} {m n : Node} {path : List Nat} {place : Nat}
variable {content : List (Content Node)} {v : Visit}

/-! ### Paths -/

/-- A path leads to a node, and none of the nodes above that one is pruned. -/
structure IsShownAt (prune : Node → Bool) (n : Node) (path : List Nat) (m : Node) : Prop where
  descend? : n.descend? path = some m
  not_prune : ∀ above k, above <+: path → above ≠ path → n.descend? above = some k →
    prune k = false

theorem isShownAt_nil_iff : n.IsShownAt prune [] m ↔ m = n := by
  constructor
  · intro h
    exact (Option.some.inj h.descend?).symm
  · rintro rfl
    exact ⟨rfl, fun above k habove hne => absurd (List.prefix_nil.mp habove) hne⟩

/-- A longer path leads through a child, unless the node is pruned. -/
theorem isShownAt_cons_iff :
    n.IsShownAt prune (place :: path) m
      ↔ prune n = false ∧ ∃ c, n.childAt? place = some c ∧ c.IsShownAt prune path m := by
  constructor
  · rintro ⟨hm, hopen⟩
    obtain ⟨c, hc, hm⟩ := Option.bind_eq_some_iff.mp hm
    refine ⟨hopen [] n (List.nil_prefix) (List.cons_ne_nil _ _).symm rfl, c, hc, hm, ?_⟩
    intro above k habove hne hk
    refine hopen (place :: above) k ((List.prefix_cons_inj place).mpr habove)
      (by simpa using hne) ?_
    exact Option.bind_eq_some_iff.mpr ⟨c, hc, hk⟩
  · rintro ⟨hn, c, hc, hm, hopen⟩
    refine ⟨Option.bind_eq_some_iff.mpr ⟨c, hc, hm⟩, ?_⟩
    intro above k habove hne hk
    -- the nodes above are `n` itself and those above within the child
    cases above with
    | nil =>
      obtain rfl := Option.some.inj hk
      exact hn
    | cons place' above =>
      obtain ⟨rfl, hrest⟩ := List.cons_prefix_cons.mp habove
      obtain ⟨c', hc', hk⟩ := Option.bind_eq_some_iff.mp hk
      obtain rfl := Option.some.inj (hc.symm.trans hc')
      exact hopen above k hrest (by simpa using hne) hk

/-! ### Steps at their places -/

mutual

/-- The steps of a walk, each behind the path of the node or the character data that it is about. -/
def placedSteps (prune : Node → Bool) : Node → List (List Nat × Visit)
  | ⟨k, d, c, s⟩ =>
    ([], .enter ⟨k, d, c, s⟩)
      :: ((if prune ⟨k, d, c, s⟩ then [] else placedStepsFrom prune 0 c)
        ++ [([], .leave ⟨k, d, c, s⟩)])

/-- The steps through a content that stands from `place` on. -/
def placedStepsFrom (prune : Node → Bool) (place : Nat) :
    List (Content Node) → List (List Nat × Visit)
  | [] => []
  | piece :: rest =>
    (placedStepsOf prune piece).map (fun e => (place :: e.1, e.2))
      ++ placedStepsFrom prune (place + 1) rest

/-- The steps through a piece of content. -/
def placedStepsOf (prune : Node → Bool) : Content Node → List (List Nat × Visit)
  | .text s => [([], .text s)]
  | .child n => placedSteps prune n

end

/-- A walk enters the node, goes through its content unless it is pruned, and leaves the node. -/
theorem placedSteps_eq (prune : Node → Bool) (n : Node) :
    n.placedSteps prune
      = ([], .enter n) :: ((if prune n then [] else placedStepsFrom prune 0 n.content)
        ++ [([], .leave n)]) := by
  obtain ⟨kind, data, content, hint⟩ := n
  rw [placedSteps]

/-- Without their paths these are the steps through the content, if that is so for the children. -/
theorem map_snd_placedStepsFrom
    (hchildren : ∀ c ∈ Content.children content, (c.placedSteps prune).map (·.2) = c.walk prune) :
    (placedStepsFrom prune place content).map (·.2) = walkAll prune content := by
  induction content generalizing place with
  | nil => rw [placedStepsFrom, walkAll]; rfl
  | cons piece content ih =>
    rw [placedStepsFrom, List.map_append, List.map_map]
    cases piece with
    | text s =>
      rw [walkAll, ih hchildren, placedStepsOf]
      rfl
    | child n =>
      rw [Content.children_cons_child, List.forall_mem_cons] at hchildren
      rw [walkAll, ih hchildren.2, placedStepsOf, ← hchildren.1]
      rfl

/-- **No step is added or left out.** -/
theorem map_snd_placedSteps (prune : Node → Bool) (n : Node) :
    (n.placedSteps prune).map (·.2) = n.walk prune := by
  induction n using Node.induction with
  | step n ih =>
    rw [placedSteps_eq, walk_eq, List.map_cons, List.map_append]
    split
    case isTrue => rfl
    case isFalse => rw [map_snd_placedStepsFrom ih]; rfl

/-- What stands behind other pieces is gone through after them, from the next place on. -/
theorem placedStepsFrom_append (before after : List (Content Node)) :
    placedStepsFrom prune place (before ++ after)
      = placedStepsFrom prune place before
        ++ placedStepsFrom prune (place + before.length) after := by
  induction before generalizing place with
  | nil => rw [placedStepsFrom]; rfl
  | cons piece before ih =>
    rw [List.cons_append, placedStepsFrom, placedStepsFrom, ih, List.append_assoc, List.length_cons,
      Nat.add_right_comm, Nat.add_assoc]

/-- What a walk meets at a path: a node that is shown, before and after everything below it, or
character data in a node that is shown and not pruned. -/
def IsMetAt (prune : Node → Bool) (n : Node) (path : List Nat) : Visit → Prop
  | .enter m | .leave m => n.IsShownAt prune path m
  | .text s => ∃ above place m, path = above ++ [place] ∧ n.IsShownAt prune above m
    ∧ prune m = false ∧ m.textAt? place = some s

/-- At the empty path the node itself is met, twice. -/
theorem isMetAt_nil_iff : n.IsMetAt prune [] v ↔ v = .enter n ∨ v = .leave n := by
  cases v with
  | enter m => simp [IsMetAt, isShownAt_nil_iff]
  | leave m => simp [IsMetAt, isShownAt_nil_iff]
  | text s => simp [IsMetAt]

/-- At a longer one there is what a child meets, or character data. -/
theorem isMetAt_cons_iff :
    n.IsMetAt prune (place :: path) v ↔ prune n = false
      ∧ ((∃ c, n.childAt? place = some c ∧ c.IsMetAt prune path v)
        ∨ path = [] ∧ ∃ s, n.textAt? place = some s ∧ v = .text s) := by
  cases v with
  | enter m => simp [IsMetAt, isShownAt_cons_iff]
  | leave m => simp [IsMetAt, isShownAt_cons_iff]
  | text s =>
    simp only [IsMetAt]
    constructor
    -- A text stands in the node itself, at a path of one place, or further down.
    · rintro ⟨above, last, m, hpath, hm, hprune, hs⟩
      cases above with
      | nil =>
        obtain ⟨rfl, rfl⟩ := List.cons.inj hpath
        obtain rfl := isShownAt_nil_iff.mp hm
        exact ⟨hprune, Or.inr ⟨rfl, s, hs, rfl⟩⟩
      | cons first above =>
        obtain ⟨rfl, rfl⟩ := List.cons.inj hpath
        obtain ⟨hn, c, hc, hm⟩ := isShownAt_cons_iff.mp hm
        exact ⟨hn, Or.inl ⟨c, hc, above, last, m, rfl, hm, hprune, hs⟩⟩
    · rintro ⟨hn, ⟨c, hc, above, last, m, rfl, hm, hprune, hs⟩ | ⟨rfl, s', hs, hv⟩⟩
      · exact ⟨place :: above, last, m, rfl, isShownAt_cons_iff.mpr ⟨hn, c, hc, hm⟩, hprune, hs⟩
      · cases hv
        exact ⟨[], place, n, rfl, isShownAt_nil_iff.mpr rfl, hn, hs⟩

/-- **A step through a content** is one through the piece at the place that its path begins with. -/
theorem mem_placedStepsFrom_iff :
    (path, v) ∈ placedStepsFrom prune place content
      ↔ ∃ i piece rest, path = (place + i) :: rest ∧ content[i]? = some piece
        ∧ (rest, v) ∈ placedStepsOf prune piece := by
  induction content generalizing place with
  | nil => simp [placedStepsFrom]
  | cons first content ih =>
    rw [placedStepsFrom, List.mem_append, ih, List.mem_map]
    constructor
    · rintro (⟨⟨rest, v'⟩, hv, heq⟩ | ⟨i, piece, rest, rfl, hpiece, hv⟩)
      · obtain ⟨rfl, rfl⟩ := Prod.mk.inj heq
        exact ⟨0, first, rest, rfl, rfl, hv⟩
      · exact ⟨i + 1, piece, rest, by rw [Nat.add_right_comm, Nat.add_assoc], hpiece, hv⟩
    · rintro ⟨i, piece, rest, rfl, hpiece, hv⟩
      cases i with
      | zero =>
        obtain rfl : first = piece := Option.some.inj hpiece
        exact Or.inl ⟨(rest, v), hv, rfl⟩
      | succ i =>
        exact Or.inr ⟨i, piece, rest, by rw [Nat.add_right_comm, Nat.add_assoc], hpiece, hv⟩

/-- **A walk meets what is shown**, and nothing else. -/
theorem mem_placedSteps_iff : (path, v) ∈ n.placedSteps prune ↔ n.IsMetAt prune path v := by
  induction path generalizing n with
  | nil =>
    have hbelow : ([], v) ∉ placedStepsFrom prune 0 n.content := by
      rw [mem_placedStepsFrom_iff]
      rintro ⟨i, piece, rest, hpath, -⟩
      cases hpath
    rw [placedSteps_eq, isMetAt_nil_iff, List.mem_cons, List.mem_append]
    split <;> simp [hbelow]
  | cons place path ih =>
    rw [placedSteps_eq, isMetAt_cons_iff, List.mem_cons, List.mem_append]
    -- A pruned node has no steps below it, and nothing is met there either.
    cases hprune : prune n with
    | true => simp
    | false =>
      simp only [Prod.mk.injEq, List.cons_ne_nil, false_and, false_or, true_and, Bool.false_eq_true,
        if_false, mem_placedStepsFrom_iff, Nat.zero_add, List.cons.injEq, List.mem_singleton,
        or_false]
      constructor
      · rintro ⟨i, piece, rest, ⟨rfl, rfl⟩, hpiece, hv⟩
        cases piece with
        | text s =>
          rw [placedStepsOf, List.mem_singleton] at hv
          obtain ⟨rfl, rfl⟩ := Prod.mk.inj hv
          exact Or.inr ⟨rfl, s, by rw [textAt?, hpiece]; rfl, rfl⟩
        | child c => exact Or.inl ⟨c, by rw [childAt?, hpiece]; rfl, ih.mp hv⟩
      · rintro (⟨c, hc, hv⟩ | ⟨rfl, s, hs, rfl⟩)
        · obtain ⟨piece, hpiece, hc⟩ := Option.bind_eq_some_iff.mp hc
          cases piece with
          | text s => cases hc
          | child c' =>
            obtain rfl := Option.some.inj hc
            exact ⟨place, .child c', path, ⟨rfl, rfl⟩, hpiece, ih.mpr hv⟩
        · obtain ⟨piece, hpiece, hs⟩ := Option.bind_eq_some_iff.mp hs
          cases piece with
          | child c => cases hs
          | text s' =>
            obtain rfl := Option.some.inj hs
            exact ⟨place, .text s', [], ⟨rfl, rfl⟩, hpiece, List.mem_singleton_self _⟩

/-! ### Document order -/

/-- Where a step stands in document order, which is that of paths; a node is left after whatever is
below it. -/
def rank : List Nat × Visit → List (WithTop Nat)
  | (path, .leave _) => path.map WithTop.some ++ [⊤]
  | (path, _) => path.map WithTop.some

/-- Ranks of nodes that are entered are in the order of their paths. -/
theorem lt_of_map_lt : ∀ {path path' : List Nat},
    path.map WithTop.some < path'.map WithTop.some → path < path'
  | [], [], hlt => absurd hlt (List.lt_irrefl [])
  | [], _ :: _, _ => List.nil_lt_cons _ _
  | _ :: _, [], hlt => absurd hlt (List.not_lt_nil _)
  | _ :: _, _ :: _, hlt =>
    List.cons_lt_cons_iff.mpr <| (List.cons_lt_cons_iff.mp hlt).imp WithTop.coe_lt_coe.mp
      fun ⟨heq, hlt⟩ => ⟨WithTop.coe_inj.mp heq, lt_of_map_lt hlt⟩

/-- The rank of a step below a place begins with the place. -/
theorem rank_cons (place : Nat) (e : List Nat × Visit) :
    rank (place :: e.1, e.2) = WithTop.some place :: rank e := by
  obtain ⟨path, v⟩ := e
  cases v <;> rfl

/-- **A content is gone through in document order**, if the children are. -/
theorem pairwise_placedStepsFrom
    (hchildren : ∀ c ∈ Content.children content,
      ((c.placedSteps prune).map rank).Pairwise (· < ·)) :
    ((placedStepsFrom prune place content).map rank).Pairwise (· < ·) := by
  induction content generalizing place with
  | nil => simp [placedStepsFrom]
  | cons piece content ih =>
    have hpiece : ((placedStepsOf prune piece).map rank).Pairwise (· < ·)
        ∧ ∀ c ∈ Content.children content, ((c.placedSteps prune).map rank).Pairwise (· < ·) := by
      cases piece with
      | text s => exact ⟨List.pairwise_singleton _ _, hchildren⟩
      | child n => exact List.forall_mem_cons.mp hchildren
    rw [placedStepsFrom, List.map_append, List.pairwise_append]
    refine ⟨?_, ih hpiece.2, ?_⟩
    · rw [List.map_map]
      refine List.pairwise_map.mpr ((List.pairwise_map.mp hpiece.1).imp fun {e e'} hlt => ?_)
      rw [Function.comp_apply, Function.comp_apply, rank_cons, rank_cons]
      exact List.cons_lt_cons_iff.mpr (Or.inr ⟨rfl, hlt⟩)
    · -- whatever follows on the piece stands at a later place
      simp only [List.map_map, List.mem_map, forall_exists_index, and_imp]
      rintro _ e - rfl _ ⟨path', v'⟩ he' rfl
      obtain ⟨i, piece', rest, rfl, -⟩ := mem_placedStepsFrom_iff.mp he'
      rw [Function.comp_apply, rank_cons, rank_cons (place + 1 + i) (rest, v')]
      exact List.cons_lt_cons_iff.mpr (Or.inl (WithTop.coe_lt_coe.mpr (by omega)))

/-- **A walk goes in document order**, and makes each step once. -/
theorem pairwise_placedSteps (prune : Node → Bool) (n : Node) :
    ((n.placedSteps prune).map rank).Pairwise (· < ·) := by
  induction n using Node.induction with
  | step n ih =>
    have hbelow : ((if prune n then [] else placedStepsFrom prune 0 n.content).map rank).Pairwise
        (· < ·) := by
      split
      case isTrue => exact List.Pairwise.nil
      case isFalse => exact pairwise_placedStepsFrom ih
    -- Below the node, ranks begin with a place: after its own entry, and before its leaving.
    have hrank : ∀ r ∈ (if prune n then [] else placedStepsFrom prune 0 n.content).map rank,
        ∃ (place : Nat) (rest : List (WithTop Nat)), r = WithTop.some place :: rest := by
      intro r hr
      obtain ⟨⟨path, v⟩, he, rfl⟩ := List.mem_map.mp hr
      split at he
      case isTrue => cases he
      case isFalse =>
        obtain ⟨i, piece, rest, rfl, -⟩ := mem_placedStepsFrom_iff.mp he
        exact ⟨0 + i, rank (rest, v), rank_cons _ (rest, v)⟩
    rw [placedSteps_eq, List.map_cons, List.map_append, List.pairwise_cons, List.pairwise_append]
    refine ⟨fun r hr => ?_, hbelow, List.pairwise_singleton _ _, fun r hr r' hr' => ?_⟩
    · rcases List.mem_append.mp hr with hr | hr
      · obtain ⟨place, rest, rfl⟩ := hrank r hr
        exact List.nil_lt_cons _ _
      · obtain rfl := List.mem_singleton.mp hr
        exact List.nil_lt_cons _ _
    · obtain ⟨place, rest, rfl⟩ := hrank r hr
      obtain rfl := List.mem_singleton.mp hr'
      exact List.cons_lt_cons_iff.mpr (Or.inl (WithTop.coe_lt_top place))

/-! ### Nodes at their places -/

mutual

/-- The nodes entered on a walk, each behind the path that leads to it. -/
def placed (prune : Node → Bool) : Node → List (List Nat × Node)
  | ⟨k, d, c, s⟩ =>
    ([], ⟨k, d, c, s⟩) :: if prune ⟨k, d, c, s⟩ then [] else placedFrom prune 0 c

/-- The nodes entered in a content that stands from `place` on. -/
def placedFrom (prune : Node → Bool) (place : Nat) : List (Content Node) → List (List Nat × Node)
  | [] => []
  | .text _ :: rest => placedFrom prune (place + 1) rest
  | .child n :: rest =>
    (placed prune n).map (fun e => (place :: e.1, e.2)) ++ placedFrom prune (place + 1) rest

end

/-- The node that a step enters, behind the path of the step. -/
def entering? (e : List Nat × Visit) : Option (List Nat × Node) := e.2.entered?.map (e.1, ·)

/-- The nodes of a content with their paths are the steps that enter them, if that is so for the
children. -/
theorem placedFrom_eq_filterMap
    (hchildren : ∀ c ∈ Content.children content,
      c.placed prune = (c.placedSteps prune).filterMap entering?) :
    placedFrom prune place content = (placedStepsFrom prune place content).filterMap entering? := by
  induction content generalizing place with
  | nil => rw [placedFrom, placedStepsFrom]; rfl
  | cons piece content ih =>
    rw [placedStepsFrom, List.filterMap_append, List.filterMap_map]
    cases piece with
    | text s =>
      rw [placedFrom, ih hchildren, placedStepsOf]
      rfl
    | child n =>
      rw [Content.children_cons_child, List.forall_mem_cons] at hchildren
      rw [placedFrom, ih hchildren.2, hchildren.1, placedStepsOf, List.map_filterMap]
      -- only entering is kept, whether places are put in front before or after
      congr 2
      funext e
      obtain ⟨path, v⟩ := e
      cases v <;> rfl

/-- **The nodes entered** are those of the steps that enter one. -/
theorem placed_eq_filterMap (prune : Node → Bool) (n : Node) :
    n.placed prune = (n.placedSteps prune).filterMap entering? := by
  induction n using Node.induction with
  | step n ih =>
    have hplaced : n.placed prune
        = ([], n) :: if prune n then [] else placedFrom prune 0 n.content := by
      obtain ⟨kind, data, content, hint⟩ := n
      rw [placed]
    have henter : entering? ([], .enter n) = some ([], n) := rfl
    have hleave : [([], Visit.leave n)].filterMap entering? = [] := rfl
    rw [hplaced, placedSteps_eq, List.filterMap_cons_some henter, List.filterMap_append, hleave,
      List.append_nil]
    split
    case isTrue => rfl
    case isFalse => rw [placedFrom_eq_filterMap ih]

/-- A step that enters a node tells the node and its path. -/
theorem entering?_eq_some_iff {e : List Nat × Visit} :
    entering? e = some (path, m) ↔ e = (path, .enter m) := by
  obtain ⟨path', v⟩ := e
  cases v <;> simp [entering?, Visit.entered?]

/-- **A walk enters what is shown.** -/
theorem mem_placed_iff : (path, m) ∈ n.placed prune ↔ n.IsShownAt prune path m := by
  rw [placed_eq_filterMap, List.mem_filterMap]
  simp only [entering?_eq_some_iff, exists_eq_right, mem_placedSteps_iff]
  rfl

/-- **A walk enters nodes in document order**, and each one once. -/
theorem pairwise_placed (prune : Node → Bool) (n : Node) :
    ((n.placed prune).map (·.1)).Pairwise (· < ·) := by
  rw [placed_eq_filterMap, List.pairwise_map, List.pairwise_filterMap]
  refine (List.pairwise_map.mp (pairwise_placedSteps prune n)).imp fun hlt => ?_
  rintro ⟨path, m⟩ henter ⟨path', m'⟩ henter'
  obtain rfl := entering?_eq_some_iff.mp henter
  obtain rfl := entering?_eq_some_iff.mp henter'
  exact lt_of_map_lt hlt

/-- **A walk enters nothing else.** -/
theorem map_snd_placed (prune : Node → Bool) (n : Node) :
    (n.placed prune).map (·.2) = n.entered prune := by
  rw [placed_eq_filterMap, entered, ← map_snd_placedSteps, List.map_filterMap, List.filterMap_map]
  congr 1
  funext e
  obtain ⟨path, v⟩ := e
  cases v <;> rfl

/-- A walk enters the nodes that some path shows. -/
theorem mem_entered_iff_exists_path :
    m ∈ n.entered prune ↔ ∃ path, n.IsShownAt prune path m := by
  rw [← map_snd_placed, List.mem_map]
  simp only [← mem_placed_iff]
  constructor
  · rintro ⟨⟨path, m'⟩, hm, rfl⟩
    exact ⟨path, hm⟩
  · rintro ⟨path, hm⟩
    exact ⟨(path, m), hm, rfl⟩

/-- Every path shows a node to a walk that turns back nowhere. -/
theorem isShownAt_all_iff : n.IsShownAt (fun _ => false) path m ↔ n.descend? path = some m :=
  ⟨fun h => h.descend?, fun h => ⟨h, fun _ _ _ _ _ => rfl⟩⟩

/-- Without pruning, the nodes met are those that a path leads to. -/
theorem mem_entered_all_iff :
    (m ∈ n.entered fun _ => false) ↔ ∃ path, n.descend? path = some m := by
  simp only [mem_entered_iff_exists_path, isShownAt_all_iff]

end DocGraph.Node
