import DocGraph.Proofs.Building
import DocGraph.Proofs.Walking

namespace DocGraph

/-!
# How nodes came about

Whatever node is met in the tree of a compound, some form has made it of an element, and each of its
children was made by the form of a slot.

* `Form.Makes` — all that a form checks before it makes a node;
* `Node.IsMade` — a node was made by a form, or pairs a term with its definition;
* `Form.children_arrange`, `Form.forall_arrange` — arranging pairs the children of variable lists;
  what holds of all nodes of a content, and of pairs, holds of all nodes of the arranged content;
* `preserved_isMade`, `isMade_of_buildCompound` — **every node of a compound was made**;
* `exists_data_of_buildCompound` — the node of a compound holds the data of a compound.
-/

/-- What a form checks before it makes a node of an element.  The children are nodes that were made
of elements in its slots. -/
structure Form.Makes (f : Form) (e : Element) (content : List (Content Node)) : Prop where
  kind_mem : Form.kindOf e.name ∈ f.kinds
  refuses?_eq : f.refuses? e.name = none
  checkAttributes : f.checkAttributes e = .ok ()
  checkClosing : f.checkClosing e content = .ok ()
  child : ∀ c ∈ Content.children content, ∃ slot e' content', f.slot? e'.name = some slot
    ∧ Form.kindOf e'.name ∈ slot.form.kinds ∧ slot.form.node e' content' = c

/-- The pair of a term and its definition. -/
def Node.pair (term definition : Node) : Node where
  kind := .varListPair
  content := [.child term, .child definition]

/-- How a node came about. -/
inductive Node.IsMade : Node → Prop
  | node (f : Form) (e : Element) (content : List (Content Node)) : f.Makes e content →
    IsMade (f.node e content)
  | pair (term definition : Node) : IsMade (.pair term definition)

section

variable {f : Form} {content : List (Content Node)} {P : Node → Prop}

/-- A pair is made of two nodes that stood one after the other. -/
theorem mem_pairs {nodes : List Node} {m : Node} (hm : m ∈ pairs nodes) :
    ∃ term ∈ nodes, ∃ definition ∈ nodes, m = .pair term definition := by
  match nodes with
  | [] => simp [pairs] at hm
  | [_] => simp [pairs] at hm
  | term :: definition :: rest =>
    rcases List.mem_cons.mp hm with rfl | hm
    · exact ⟨term, by simp, definition, by simp, rfl⟩
    · obtain ⟨term', hterm, definition', hdefinition, rfl⟩ := mem_pairs hm
      exact ⟨term', by simp [hterm], definition', by simp [hdefinition], rfl⟩

/-- The children of a node are those of its content, or pairs of them. -/
theorem Form.children_arrange {c : Node} (hc : c ∈ Content.children (f.arrange content)) :
    c ∈ Content.children content
      ∨ f = .variableList ∧ ∃ term ∈ Content.children content,
        ∃ definition ∈ Content.children content, c = .pair term definition := by
  rw [Form.arrange] at hc
  split at hc
  case isTrue hf =>
    have hc : c ∈ pairs (Content.children content) := by
      simpa [Content.children, List.mem_filterMap, Content.child?] using hc
    exact Or.inr ⟨hf, mem_pairs hc⟩
  case isFalse => exact Or.inl hc

/-- Pairs hide no node of a content. -/
theorem Form.forall_arrange (hpair : ∀ term definition, P (.pair term definition))
    (hcontent : ∀ c ∈ Content.children content, ∀ m ∈ c.entered fun _ => false, P m) :
    ∀ c ∈ Content.children (f.arrange content), ∀ m ∈ c.entered fun _ => false, P m := by
  intro c hc m hm
  rcases Form.children_arrange hc with hc | ⟨-, term, hterm, definition, hdefinition, rfl⟩
  · exact hcontent c hc m hm
  · rcases Node.mem_entered_iff.mp hm with rfl | ⟨-, c, hc, hbelow⟩
    · exact hpair term definition
    · have hc : c = term ∨ c = definition := by
        simpa [Node.pair, Node.children, Content.children, Content.child?] using hc
      rcases hc with rfl | rfl
      · exact hcontent c hterm m hbelow
      · exact hcontent c hdefinition m hbelow

end

theorem Content.children_consText {α : Type} (s : String) (content : List (Content α)) :
    Content.children (Content.consText s content) = Content.children content := by
  match content with
  | [] => rfl
  | .text _ :: _ => rfl
  | .child _ :: _ => rfl

/-- Every step of building makes a node of nodes that were made. -/
theorem preserved_isMade : Form.Preserved
    (fun f e n => (∃ content, Form.kindOf e.name ∈ f.kinds ∧ f.node e content = n)
      ∧ ∀ m ∈ n.entered fun _ => false, m.IsMade)
    fun f _ _ content =>
      (∀ c ∈ Content.children content, ∃ slot e' content', f.slot? e'.name = some slot
        ∧ Form.kindOf e'.name ∈ slot.form.kinds ∧ slot.form.node e' content' = c)
      ∧ ∀ c ∈ Content.children content, ∀ m ∈ c.entered fun _ => false, m.IsMade := by
  constructor
  case node =>
    rintro f e content hkind hrefuses hattributes hclosing ⟨hchild, hmade⟩
    refine ⟨⟨content, hkind, rfl⟩, fun m hm => ?_⟩
    rcases Node.mem_entered_iff.mp hm with rfl | ⟨-, c, hc, hm⟩
    · exact .node f e content ⟨hkind, hrefuses, hattributes, hclosing, hchild⟩
    · exact Form.forall_arrange .pair hmade c hc m hm
  case nil =>
    intro f before
    exact ⟨fun c hc => absurd hc List.not_mem_nil, fun c hc => absurd hc List.not_mem_nil⟩
  case text =>
    intro f before s kept rest others hkept hothers
    cases kept with
    | false => exact hothers
    | true =>
      rw [if_pos rfl, Content.children_consText]
      exact hothers
  case child =>
    rintro f before e rest slot n others hplace ⟨⟨content, hkind, hn⟩, hmade⟩ honce hothers
    -- in a variable list the turn matters too, but not for what a slot lets in
    have hslot : f.slot? e.name = some slot := (Form.place_eq_ok_iff.mp hplace).1
    rw [Content.children_cons_child, List.forall_mem_cons, List.forall_mem_cons]
    exact ⟨⟨⟨slot, e, content, hslot, hkind, hn⟩, hothers.1⟩, hmade, hothers.2⟩

/-- **Every node of a compound was made.** -/
theorem isMade_of_buildCompound {e : Element} {n : Node} (hn : buildCompound e = .ok n) :
    ∀ m ∈ n.entered fun _ => false, m.IsMade :=
  (buildCompound_induction preserved_isMade hn).2

/-- The node of a compound holds the data of a compound. -/
theorem exists_data_of_buildCompound {e : Element} {n : Node} (hn : buildCompound e = .ok n) :
    ∃ d, n.data = .compound d := by
  obtain ⟨content, -, rfl⟩ := (buildCompound_induction preserved_isMade hn).1
  exact ⟨_, rfl⟩

end DocGraph
