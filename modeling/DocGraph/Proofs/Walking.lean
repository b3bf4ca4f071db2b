import DocGraph.Node.Visit

namespace DocGraph.Node

/-!
# Nodes met on a walk

* `Node.induction` — what holds of a node if it holds of its children holds of all nodes;
* `text_eq`, `walk_eq` — the text of a node, and the steps of a walk, from its content;
* `filterMap_walkAll` — a walk through a content enters what walks through its nodes do;
* `entered_eq`, `mem_entered_iff` — a walk enters a node and what is below it;
* `mem_entered_all`, `mem_entered_or_below` — a walk that turns back enters nothing more, and what
  it does not enter is below a node where it turns back.
-/

variable {prune : Node → Bool} {l m n : Node}

/-! ### Induction over trees -/

section

variable {P : Node → Prop}

mutual

/-- Induction over a node and all that is below it. -/
theorem induction (step : ∀ n, (∀ c ∈ n.children, P c) → P n) : ∀ n, P n
  | ⟨kind, data, content, hint⟩ =>
    step ⟨kind, data, content, hint⟩ (induction_children step content)

theorem induction_children (step : ∀ n, (∀ c ∈ n.children, P c) → P n) :
    ∀ content : List (Content Node), ∀ c ∈ Content.children content, P c
  | [] => fun _ hc => absurd hc List.not_mem_nil
  | .text _ :: rest => induction_children step rest
  | .child n :: rest => List.forall_mem_cons.mpr ⟨induction step n, induction_children step rest⟩

end

end

/-! ### Content -/

theorem text_eq (n : Node) : n.text = textOf n.content := by
  obtain ⟨kind, data, content, hint⟩ := n
  rw [text]

/-- A walk enters the node, goes through its content unless it is pruned, and leaves the node. -/
theorem walk_eq (prune : Node → Bool) (n : Node) :
    n.walk prune
      = .enter n :: ((if prune n then [] else walkAll prune n.content) ++ [.leave n]) := by
  obtain ⟨kind, data, content, hint⟩ := n
  rw [walk]

/-! ### Nodes entered -/

/-- The nodes entered in a content are those entered in its children. -/
theorem filterMap_walkAll (prune : Node → Bool) (content : List (Content Node)) :
    (walkAll prune content).filterMap Visit.entered?
      = (Content.children content).flatMap (entered prune) := by
  induction content with
  | nil => rw [walkAll]; rfl
  | cons c rest ih =>
    cases c with
    | text s =>
      rw [walkAll, Content.children_cons_text, ← ih]
      rfl
    | child n =>
      rw [walkAll, Content.children_cons_child, List.flatMap_cons, ← ih, List.filterMap_append]
      rfl

/-- **A walk enters a node first**, and below it only if it is not pruned. -/
theorem entered_eq (prune : Node → Bool) (n : Node) :
    n.entered prune = n :: if prune n then [] else n.children.flatMap (entered prune) := by
  obtain ⟨kind, data, content, hint⟩ := n
  have hbelow := filterMap_walkAll prune content
  rw [entered, walk]
  split
  case isTrue => rfl
  case isFalse =>
    simp only [List.filterMap_cons, Visit.entered?, List.filterMap_append, List.filterMap_nil,
      List.append_nil, hbelow]
    rfl

/-- **A node is entered** if the walk begins at it, or comes to it through a child. -/
theorem mem_entered_iff :
    m ∈ n.entered prune ↔ m = n ∨ prune n = false ∧ ∃ c ∈ n.children, m ∈ c.entered prune := by
  rw [entered_eq, List.mem_cons]
  cases prune n <;> simp

/-- The walk enters the node that it begins at. -/
theorem mem_entered_self : n ∈ n.entered prune := mem_entered_iff.mpr (Or.inl rfl)

/-- A walk that turns back enters nothing more. -/
theorem mem_entered_all (hm : m ∈ n.entered prune) : m ∈ n.entered fun _ => false := by
  induction n using Node.induction with
  | step n ih =>
    rcases mem_entered_iff.mp hm with rfl | ⟨-, c, hc, hm⟩
    · exact mem_entered_self
    · exact mem_entered_iff.mpr (Or.inr ⟨rfl, c, hc, ih c hc hm⟩)

/-- What is below a node below is below, too. -/
theorem mem_entered_all_trans (hl : l ∈ n.entered fun _ => false)
    (hm : m ∈ l.entered fun _ => false) : m ∈ n.entered fun _ => false := by
  induction n using Node.induction with
  | step n ih =>
    rcases mem_entered_iff.mp hl with rfl | ⟨-, c, hc, hl⟩
    · exact hm
    · exact mem_entered_iff.mpr (Or.inr ⟨rfl, c, hc, ih c hc hl⟩)

theorem mem_entered_all_of_child {c : Node} (hc : c ∈ n.children)
    (hm : m ∈ c.entered fun _ => false) : m ∈ n.entered fun _ => false :=
  mem_entered_iff.mpr (Or.inr ⟨rfl, c, hc, hm⟩)

/-- **What a walk does not enter** is below a node where it turns back. -/
theorem mem_entered_or_below (prune : Node → Bool) (hm : m ∈ n.entered fun _ => false) :
    m ∈ n.entered prune
      ∨ ∃ l ∈ n.entered prune, prune l = true ∧ ∃ c ∈ l.children, m ∈ c.entered fun _ => false := by
  induction n using Node.induction with
  | step n ih =>
    rcases mem_entered_iff.mp hm with rfl | ⟨-, c, hc, hm⟩
    · exact Or.inl mem_entered_self
    · cases hprune : prune n with
      | true => exact Or.inr ⟨n, mem_entered_self, hprune, c, hc, hm⟩
      | false =>
        have hentered : ∀ {k}, k ∈ c.entered prune → k ∈ n.entered prune := fun hk =>
          mem_entered_iff.mpr (Or.inr ⟨hprune, c, hc, hk⟩)
        -- what is entered in the child is entered from `n`, which is not pruned
        rcases ih c hc hm with hm | ⟨l, hl, hprune, hbelow⟩
        · exact Or.inl (hentered hm)
        · exact Or.inr ⟨l, hentered hl, hprune, hbelow⟩

end DocGraph.Node
