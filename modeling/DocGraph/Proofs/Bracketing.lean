import DocGraph.Proofs.Paths

namespace DocGraph

/-!
# What a walk tells of a tree

The steps of a walk are properly bracketed, and the tree can be read back from them, less what is
pruned, although no step tells of the content of a node:

* `Node.pruned`, `Node.descend?_pruned_iff` — what is left of a tree, and where it stands;
* `Visit.Spells`, `Visit.Spells.unique` — steps that are properly bracketed, and the only content
  that they may tell of;
* `Node.spells_walk` — a walk tells of what is left of its tree;
* `Node.Encloses`, `Node.exists_encloses` — whatever is below a node is met between entering and
  leaving it;
* `Node.join_text?_walk` — the character data met is the text of the tree;
* `Node.walk_brackets` — the main statement.
-/

/-! ### Trees less what is pruned -/

namespace Node

/-- A node without its content. -/
def head (n : Node) : Node := { n with content := [] }

mutual

/-- A tree without the children of the nodes that `prune` selects. -/
def pruned (prune : Node → Bool) : Node → Node
  | ⟨k, d, c, s⟩ => ⟨k, d, if prune ⟨k, d, c, s⟩ then [] else prunedAll prune c, s⟩

/-- A content without the children of the nodes that `prune` selects. -/
def prunedAll (prune : Node → Bool) : List (Content Node) → List (Content Node)
  | [] => []
  | .text s :: rest => .text s :: prunedAll prune rest
  | .child n :: rest => .child (pruned prune n) :: prunedAll prune rest

end

end Node

/-- A step, less what stands below the node that it is about. -/
def Visit.head : Visit → Visit
  | .enter n => .enter n.head
  | .leave n => .leave n.head
  | .text s => .text s

/-- The character data met in a step. -/
def Visit.text? : Visit → Option String
  | .text s => some s
  | _ => none

namespace Node

variable {prune : Node → Bool} {m n : Node} {path : List Nat} {place : Nat} {v : Visit}
variable {content : List (Content Node)} {piece : Content Node}

/-- A pruned node keeps all but its content, and that too unless it is to be pruned. -/
theorem pruned_eq (prune : Node → Bool) (n : Node) :
    n.pruned prune
      = { n.head with content := if prune n then [] else prunedAll prune n.content } := by
  obtain ⟨kind, data, content, hint⟩ := n
  rw [pruned]
  rfl

/-- A content is pruned piece by piece. -/
theorem prunedAll_eq_map (prune : Node → Bool) (content : List (Content Node)) :
    prunedAll prune content = content.map fun
      | .text s => .text s
      | .child n => .child (n.pruned prune) := by
  induction content with
  | nil => rw [prunedAll]; rfl
  | cons piece content ih => cases piece <;> rw [prunedAll, ih] <;> rfl

/-- **What is left of a tree** is what is shown, at the same paths. -/
theorem descend?_pruned_iff :
    (n.pruned prune).descend? path = some m
      ↔ ∃ k, n.IsShownAt prune path k ∧ k.pruned prune = m := by
  induction path generalizing n with
  | nil => simp [descend?, isShownAt_nil_iff]
  | cons place path ih =>
    -- A pruned node has the pruned children in the same places, or no content at all.
    have hchild : (n.pruned prune).childAt? place
        = if prune n then none else (n.childAt? place).map (pruned prune) := by
      rw [pruned_eq, childAt?]
      cases prune n with
      | true => simp
      | false =>
        simp only [Bool.false_eq_true, if_false, prunedAll_eq_map, List.getElem?_map, childAt?]
        cases n.content[place]? with
        | none => rfl
        | some piece => cases piece <;> rfl
    simp only [descend?, hchild, isShownAt_cons_iff]
    cases prune n with
    | true => simp
    | false =>
      cases n.childAt? place with
      | none => simp
      | some c => simp [ih]

end Node

/-! ### Steps that are properly bracketed -/

namespace Visit

/-- Steps that are properly bracketed, and the content that they tell of.  What stands below a node
that is entered is told by the steps up to where it is left. -/
inductive Spells : List Visit → List (Content Node) → Prop
  | nil : Spells [] []
  | text {after : List Visit} {rest : List (Content Node)} (s : String) :
    Spells after rest → Spells (.text s :: after) (.text s :: rest)
  | node {inside after : List Visit} {below rest : List (Content Node)} (n : Node) :
    Spells inside below → Spells after rest →
    Spells (.enter n :: (inside ++ .leave n :: after)) (.child { n with content := below } :: rest)

variable {steps after : List Visit} {content content' rest : List (Content Node)}

/-- Steps that spell contents spell them one behind the other. -/
theorem Spells.append (h : Spells steps content) (hafter : Spells after rest) :
    Spells (steps ++ after) (content ++ rest) := by
  induction h with
  | nil => exact hafter
  | text s _ ih => exact .text s ih
  | node n hinside _ _ ih =>
    rw [List.cons_append, List.append_assoc, List.cons_append]
    exact .node n hinside ih

/-- Read steps one by one.  What has been read of the innermost open node is `content`, and of the
nodes around it what stands before it. -/
def read (content : List (Content Node)) :
    List (Node × List (Content Node)) → List Visit → Option (List (Content Node))
  | [], [] => some content
  | _ :: _, [] => none
  | opens, .text s :: rest => read (content ++ [.text s]) opens rest
  | opens, .enter n :: rest => read [] ((n, content) :: opens) rest
  | (n, before) :: opens, .leave _ :: rest =>
    read (before ++ [.child { n with content }]) opens rest
  | [], .leave _ :: _ => none

/-- Steps that are properly bracketed are read without a look at what is around them. -/
theorem Spells.read_append (h : Spells steps content) (before : List (Content Node))
    (opens : List (Node × List (Content Node))) (after : List Visit) :
    read before opens (steps ++ after) = read (before ++ content) opens after := by
  induction h generalizing before opens after with
  | nil => rw [List.nil_append, List.append_nil]
  | text s _ ih => rw [List.cons_append, read, ih, List.append_assoc]; rfl
  | node n _ _ ihinside ihafter =>
    rw [List.cons_append, List.append_assoc, List.cons_append, read, ihinside, List.nil_append,
      read, ihafter, List.append_assoc]
    rfl

/-- **Steps tell of one content only.** -/
theorem Spells.unique (h : Spells steps content) (h' : Spells steps content') :
    content = content' := by
  have hread : ∀ {content}, Spells steps content → read [] [] steps = some content := by
    intro content h
    have happend := h.read_append [] [] []
    rwa [List.append_nil] at happend
  exact Option.some.inj ((hread h).symm.trans (hread h'))

end Visit

namespace Node

variable {prune : Node → Bool} {m n : Node} {path : List Nat} {place : Nat} {v : Visit}
variable {content : List (Content Node)} {piece : Content Node}

/-- The walk through a content spells it if the walks through its children spell these. -/
theorem spells_walkAll
    (hchildren : ∀ c ∈ Content.children content,
      Visit.Spells ((c.walk prune).map Visit.head) [.child (c.pruned prune)]) :
    Visit.Spells ((walkAll prune content).map Visit.head) (prunedAll prune content) := by
  induction content with
  | nil =>
    rw [walkAll, prunedAll]
    exact .nil
  | cons piece content ih =>
    cases piece with
    | text s =>
      rw [walkAll, prunedAll]
      exact .text s (ih hchildren)
    | child n =>
      rw [Content.children_cons_child, List.forall_mem_cons] at hchildren
      rw [walkAll, prunedAll, List.map_append]
      exact hchildren.1.append (ih hchildren.2)

/-- **A walk tells of the tree** less what is pruned. -/
theorem spells_walk (prune : Node → Bool) (n : Node) :
    Visit.Spells ((n.walk prune).map Visit.head) [.child (n.pruned prune)] := by
  induction n using Node.induction with
  | step n ih =>
    rw [walk_eq, pruned_eq, List.map_cons, List.map_append]
    refine .node n.head ?_ .nil
    split
    case isTrue => exact .nil
    case isFalse => exact spells_walkAll ih

/-! ### Brackets -/

/-- A node is entered and then left, and between the two a walk meets what is below it. -/
structure Encloses (steps : List (List Nat × Visit)) (path : List Nat) (m : Node)
    (before inside after : List (List Nat × Visit)) : Prop where
  steps_eq : steps = before ++ (path, .enter m) :: (inside ++ (path, .leave m) :: after)
  inside : ∀ e ∈ inside, path <+: e.1 ∧ e.1 ≠ path
  outside : ∀ e ∈ before ++ after, ¬ path <+: e.1

/-- The steps at the place of a child are those of a walk through the child. -/
theorem exists_placedSteps_eq {c : Node} (hn : prune n = false) (hc : n.childAt? place = some c) :
    ∃ left right, n.placedSteps prune
        = left ++ ((c.placedSteps prune).map (fun e => (place :: e.1, e.2)) ++ right)
      ∧ ∀ e ∈ left ++ right, e.1.head? ≠ some place := by
  obtain ⟨piece, hpiece, hc⟩ := Option.bind_eq_some_iff.mp hc
  obtain ⟨hlt, hpiece⟩ := List.getElem?_eq_some_iff.mp hpiece
  obtain rfl : piece = .child c := by
    cases piece with
    | text s => cases hc
    | child c' => exact congrArg _ (Option.some.inj hc)
  -- The content falls into what is before the child, the child, and what is behind it.
  have hsplit : n.content = n.content.take place ++ .child c :: n.content.drop (place + 1) := by
    rw [← hpiece, List.getElem_cons_drop, List.take_append_drop]
  have hlength : (n.content.take place).length = place := List.length_take_of_le (by omega)
  have hcontent : placedStepsFrom prune 0 n.content
      = placedStepsFrom prune 0 (n.content.take place)
        ++ ((c.placedSteps prune).map (fun e => (place :: e.1, e.2))
          ++ placedStepsFrom prune (place + 1) (n.content.drop (place + 1))) := by
    conv => lhs; rw [hsplit]
    rw [placedStepsFrom_append, hlength, Nat.zero_add, placedStepsFrom, placedStepsOf]
  refine ⟨([], .enter n) :: placedStepsFrom prune 0 (n.content.take place),
    placedStepsFrom prune (place + 1) (n.content.drop (place + 1)) ++ [([], .leave n)], ?_, ?_⟩
  · rw [placedSteps_eq, hn, if_neg Bool.false_ne_true, hcontent]
    simp
  · rintro ⟨path, v⟩ he
    simp only [List.cons_append, List.mem_cons, List.mem_append, List.not_mem_nil, or_false,
      Prod.mk.injEq] at he
    -- The steps at the node itself have the empty path; all others begin with another place.
    rcases he with ⟨rfl, -⟩ | he | he | ⟨rfl, -⟩
    · exact (Option.some_ne_none _).symm
    · obtain ⟨i, piece, rest, rfl, hi, -⟩ := mem_placedStepsFrom_iff.mp he
      obtain ⟨hi, -⟩ := List.getElem?_eq_some_iff.mp hi
      exact fun hhead => absurd (Option.some.inj hhead) (by omega)
    · obtain ⟨i, piece, rest, rfl, -⟩ := mem_placedStepsFrom_iff.mp he
      exact fun hhead => absurd (Option.some.inj hhead) (by omega)
    · exact (Option.some_ne_none _).symm

/-- **A node that is shown** is entered and left, and what is below it is met between. -/
theorem exists_encloses (hm : n.IsShownAt prune path m) :
    ∃ before inside after, Encloses (n.placedSteps prune) path m before inside after := by
  induction path generalizing n with
  | nil =>
    obtain rfl := isShownAt_nil_iff.mp hm
    refine ⟨[], if prune m then [] else placedStepsFrom prune 0 m.content, [], ?_, ?_, nofun⟩
    · rw [placedSteps_eq]
      rfl
    · rintro ⟨path, v⟩ he
      split at he
      case isTrue => cases he
      case isFalse =>
        obtain ⟨i, piece, rest, rfl, -⟩ := mem_placedStepsFrom_iff.mp he
        exact ⟨List.nil_prefix, List.cons_ne_nil _ _⟩
  | cons place path ih =>
    obtain ⟨hn, c, hc, hm⟩ := isShownAt_cons_iff.mp hm
    obtain ⟨before, inside, after, hsteps, hinside, houtside⟩ := ih hm
    obtain ⟨left, right, hplaced, helsewhere⟩ := exists_placedSteps_eq hn hc
    -- the steps of the child enclose what is below, and all others are made elsewhere
    refine ⟨left ++ before.map (fun e => (place :: e.1, e.2)),
      inside.map (fun e => (place :: e.1, e.2)), after.map (fun e => (place :: e.1, e.2)) ++ right,
      ?_, ?_, ?_⟩
    · rw [hplaced, hsteps]
      simp
    · intro step hstep
      obtain ⟨e, he, rfl⟩ := List.mem_map.mp hstep
      obtain ⟨hpath, hne⟩ := hinside e he
      exact ⟨(List.prefix_cons_inj place).mpr hpath, fun heq => hne (List.cons.inj heq).2⟩
    · have hbeyond : ∀ e ∈ left ++ right, ¬ place :: path <+: e.1 := by
        rintro e he ⟨rest, hpath⟩
        exact helsewhere e he (by rw [← hpath]; rfl)
      have hwithin : ∀ e ∈ before ++ after, ¬ place :: path <+: place :: e.1 := fun e he hpath =>
        houtside e he ((List.prefix_cons_inj place).mp hpath)
      intro e he
      simp only [List.mem_append, List.mem_map] at he
      rcases he with (he | ⟨e, he, rfl⟩) | ⟨e, he, rfl⟩ | he
      · exact hbeyond e (List.mem_append_left _ he)
      · exact hwithin e (List.mem_append_left _ he)
      · exact hwithin e (List.mem_append_right _ he)
      · exact hbeyond e (List.mem_append_right _ he)

/-! ### Character data -/

/-- The character data met on the way through a content is its text, if that is so for the children.
-/
theorem join_text?_walkAll
    (hchildren : ∀ c ∈ Content.children content,
      String.join ((c.walk fun _ => false).filterMap Visit.text?) = c.text) :
    String.join ((walkAll (fun _ => false) content).filterMap Visit.text?) = textOf content := by
  induction content with
  | nil => rw [walkAll, textOf]; rfl
  | cons piece content ih =>
    cases piece with
    | text s =>
      rw [walkAll, textOf, ← ih hchildren]
      exact String.join_cons
    | child n =>
      rw [Content.children_cons_child, List.forall_mem_cons] at hchildren
      rw [walkAll, textOf, List.filterMap_append, String.join_append, ih hchildren.2, hchildren.1]

/-- **A walk that turns back nowhere** meets the text of the tree. -/
theorem join_text?_walk (n : Node) :
    String.join ((n.walk fun _ => false).filterMap Visit.text?) = n.text := by
  induction n using Node.induction with
  | step n ih =>
    have hleave : [Visit.leave n].filterMap Visit.text? = [] := rfl
    rw [walk_eq, text_eq, ← join_text?_walkAll ih, List.filterMap_cons_none rfl,
      List.filterMap_append, if_neg Bool.false_ne_true, hleave, List.append_nil]

/-! ### Walks -/

/-- The steps of a walk, at their places. -/
structure IsTrace (prune : Node → Bool) (n : Node) (steps : List (List Nat × Visit)) : Prop where
  visits : steps.map (·.2) = n.walk prune
  /-- What is shown is met, and nothing else. -/
  mem_iff : ∀ path v, (path, v) ∈ steps ↔ n.IsMetAt prune path v
  /-- Steps are in document order, so each is made once. -/
  order : (steps.map rank).Pairwise (· < ·)
  /-- Each node that is shown is entered and later left. -/
  encloses : ∀ path m, n.IsShownAt prune path m →
    ∃ before inside after, Encloses steps path m before inside after

/-- **A walk is properly bracketed and tells of the tree** less the children of the nodes that are
pruned, and of nothing else.  It makes one step for whatever is left of the tree, in document order,
and two for each node, which enclose what is left below it.  If nothing is pruned, it meets the
whole text. -/
theorem walk_brackets (prune : Node → Bool) (n : Node) :
    (∀ content, Visit.Spells ((n.walk prune).map Visit.head) content
        ↔ content = [.child (n.pruned prune)])
      ∧ (∀ path m, (n.pruned prune).descend? path = some m
        ↔ ∃ k, n.IsShownAt prune path k ∧ k.pruned prune = m)
      ∧ (∃ steps, n.IsTrace prune steps)
      ∧ String.join ((n.walk fun _ => false).filterMap Visit.text?) = n.text := by
  refine ⟨fun content => ⟨fun h => h.unique (spells_walk prune n), ?_⟩, fun path m =>
    descend?_pruned_iff, ⟨n.placedSteps prune, ?_⟩, join_text?_walk n⟩
  · rintro rfl
    exact spells_walk prune n
  · exact ⟨map_snd_placedSteps prune n, fun _ _ => mem_placedSteps_iff,
      pairwise_placedSteps prune n, fun _ _ => exists_encloses⟩

end Node

end DocGraph
