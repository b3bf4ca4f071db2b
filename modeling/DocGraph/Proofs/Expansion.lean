import DocGraph.Proofs.Outline
import DocGraph.Proofs.Sections
import DocGraph.Render.PlainText

namespace DocGraph

/-!
# What plain text says

Entities, runs of spaces and line breaks stand for characters.  Plain text is the literal text of
the tree in which these characters stand in their place:

* `Node.standsFor?` — the characters that a node stands for;
* `Node.expanded`, `Node.render_plain` — a tree with such nodes replaced, and its plain text;
* `Node.pieces`, `Node.plainText_eq_join` — plain text piece by piece, with what has been put in;
* `Form.HoldsNothing`, `Node.IsBuilt.content_eq_nil` — in a compound, nothing stands below such
  nodes;
* `Node.IsBuilt.text_eq_literalText` — hence only what has been put in is not in the literal text;
* `Node.plainText_expands` — the main statement.
-/

/-! ### Nodes that stand for characters -/

namespace Node

/-- The characters that a node stands for: those of an entity, as many spaces as a run of spaces
counts, one if it does not count them, and a line end. -/
def standsFor? (n : Node) : Option String :=
  match n.kind, n.data with
  | .entity, .entity _ text => some text
  | .entity, _ => some ""
  | .sp, .sp count => some (String.ofList (List.replicate count ' '))
  | .sp, _ => some " "
  | .lineBreak, _ => some "\n"
  | _, _ => none

mutual

/-- A tree in which characters stand in place of the nodes that stand for them. -/
def expanded : Node → Content Node
  | ⟨k, d, c, s⟩ =>
    match standsFor? ⟨k, d, c, s⟩ with
    | some text => .text text
    | none => .child ⟨k, d, expandedAll c, s⟩

/-- A content in which characters stand in place of the nodes that stand for them. -/
def expandedAll : List (Content Node) → List (Content Node)
  | [] => []
  | .text s :: rest => .text s :: expandedAll rest
  | .child n :: rest => expanded n :: expandedAll rest

end

/-- A piece of plain text. -/
structure Piece where
  text : String
  /-- Whether a node stands for it, so that it is not literal text. -/
  isInserted : Bool
deriving DecidableEq, Repr

mutual

/-- The plain text of a node, piece by piece. -/
def pieces : Node → List Piece
  | ⟨k, d, c, s⟩ =>
    match standsFor? ⟨k, d, c, s⟩ with
    | some text => [⟨text, true⟩]
    | none => piecesOf c

/-- The plain text of a content, piece by piece. -/
def piecesOf : List (Content Node) → List Piece
  | [] => []
  | .text s :: rest => ⟨s, false⟩ :: piecesOf rest
  | .child n :: rest => pieces n ++ piecesOf rest

end

variable {n m : Node} {content : List (Content Node)}

/-- A node is replaced by the characters that it stands for, or its content is gone through. -/
theorem expanded_eq (n : Node) :
    n.expanded = match n.standsFor? with
      | some text => .text text
      | none => .child { n with content := expandedAll n.content } := by
  obtain ⟨kind, data, content, hint⟩ := n
  rw [expanded]

/-- A node gives the piece that it stands for, or those of its content. -/
theorem pieces_eq (n : Node) :
    n.pieces = match n.standsFor? with
      | some text => [⟨text, true⟩]
      | none => piecesOf n.content := by
  obtain ⟨kind, data, content, hint⟩ := n
  rw [pieces]

end Node

/-! ### Rendering -/

theorem Output.write_andThen_write (s t : String) :
    (Output.write s).andThen (Output.write t) = Output.write (s ++ t) := rfl

namespace Node

variable {n m : Node} {content : List (Content Node)}

/-- **The table for plain text** writes what a node stands for, and otherwise its content. -/
theorem handler_plain (n : Node) (below : Output) :
    Handlers.plain.handler n.kind n below = match n.standsFor? with
      | some text => .write text
      | none => below := by
  obtain ⟨kind, data, content, hint⟩ := n
  -- three kinds have handlers of their own, which look at the data
  cases kind with
  | entity => cases data <;> rfl
  | sp => cases data <;> rfl
  | _ => rfl

theorem textOf_cons (piece : Content Node) (content : List (Content Node)) :
    textOf (piece :: content) = textOf [piece] ++ textOf content := by
  cases piece <;> simp [textOf]

/-- A content is rendered as the text that it expands to, if that is so for its children. -/
theorem renderContent_plain
    (hchildren : ∀ c ∈ Content.children content,
      Handlers.plain.render c = .write (textOf [c.expanded])) :
    Handlers.plain.renderContent content = .write (textOf (expandedAll content)) := by
  induction content with
  | nil => rw [Handlers.renderContent, expandedAll, textOf]; rfl
  | cons piece content ih =>
    cases piece with
    | text s =>
      rw [Handlers.renderContent, expandedAll, textOf, ih hchildren, Output.write_andThen_write]
    | child n =>
      rw [Content.children_cons_child, List.forall_mem_cons] at hchildren
      rw [Handlers.renderContent, expandedAll, textOf_cons, hchildren.1, ih hchildren.2,
        Output.write_andThen_write]

/-- **Rendering plain text** writes the literal text of the expanded tree, and never fails. -/
theorem render_plain (n : Node) : Handlers.plain.render n = .write (textOf [n.expanded]) := by
  induction n using Node.induction with
  | step n ih =>
    have hrender : Handlers.plain.render n
        = Handlers.plain.handler n.kind n (Handlers.plain.renderContent n.content) := by
      obtain ⟨kind, data, content, hint⟩ := n
      rw [Handlers.render]
    rw [hrender, handler_plain, expanded_eq, renderContent_plain ih]
    cases n.standsFor? with
    | some text => simp [textOf]
    | none => simp [textOf, text_eq]

/-- Nothing is replaced in a content if nothing is in its children. -/
theorem expandedAll_eq_self (hchildren : ∀ c ∈ Content.children content, c.expanded = .child c) :
    expandedAll content = content := by
  induction content with
  | nil => rw [expandedAll]
  | cons piece content ih =>
    cases piece with
    | text s => rw [expandedAll, ih hchildren]
    | child n =>
      rw [Content.children_cons_child, List.forall_mem_cons] at hchildren
      rw [expandedAll, hchildren.1, ih hchildren.2]

/-- A tree in which nothing stands for characters is not changed. -/
theorem expanded_eq_self (hn : ∀ m ∈ n.entered fun _ => false, m.standsFor? = none) :
    n.expanded = .child n := by
  induction n using Node.induction with
  | step n ih =>
    have hcontent : expandedAll n.content = n.content := expandedAll_eq_self fun c hc =>
      ih c hc fun m hm => hn m (mem_entered_all_of_child hc hm)
    rw [expanded_eq, hn n mem_entered_self, hcontent]
    obtain ⟨kind, data, content, hint⟩ := n
    rfl

/-! ### Pieces -/

/-- The text of an expanded content is that of its pieces, if that is so for its children. -/
theorem textOf_expandedAll
    (hchildren : ∀ c ∈ Content.children content,
      textOf [c.expanded] = String.join (c.pieces.map (·.text))) :
    textOf (expandedAll content) = String.join ((piecesOf content).map (·.text)) := by
  induction content with
  | nil => rw [expandedAll, textOf, piecesOf]; rfl
  | cons piece content ih =>
    cases piece with
    | text s =>
      rw [expandedAll, textOf, piecesOf, ih hchildren, List.map_cons, String.join_cons]
    | child n =>
      rw [Content.children_cons_child, List.forall_mem_cons] at hchildren
      rw [expandedAll, textOf_cons, piecesOf, hchildren.1, ih hchildren.2, List.map_append,
        String.join_append]

/-- **Plain text** is that of its pieces. -/
theorem plainText_eq_join (n : Node) : n.plainText = String.join (n.pieces.map (·.text)) := by
  rw [plainText, render_plain]
  induction n using Node.induction with
  | step n ih =>
    rw [expanded_eq, pieces_eq]
    cases n.standsFor? with
    | some text => simp [Output.write, textOf]
    | none => simpa [Output.write, textOf, text_eq] using textOf_expandedAll ih

/-- The literal text among pieces of plain text. -/
def literalText (pieces : List Piece) : String :=
  String.join ((pieces.filter (! ·.isInserted)).map (·.text))

/-- The literal text of pieces is collected piece by piece. -/
theorem literalText_append (front back : List Piece) :
    literalText (front ++ back) = literalText front ++ literalText back := by
  rw [literalText, List.filter_append, List.map_append, String.join_append]
  rfl

/-- The literal text of a content is what is left without the pieces put in, if that is so for its
children. -/
theorem literalText_piecesOf
    (hchildren : ∀ c ∈ Content.children content, c.text = literalText c.pieces) :
    textOf content = literalText (piecesOf content) := by
  induction content with
  | nil => rw [textOf, piecesOf]; rfl
  | cons piece content ih =>
    cases piece with
    | text s =>
      rw [textOf, piecesOf, ih hchildren]
      exact String.join_cons.symm
    | child n =>
      rw [Content.children_cons_child, List.forall_mem_cons] at hchildren
      rw [textOf, piecesOf, literalText_append, hchildren.1, ih hchildren.2]

end Node

/-! ### Compounds -/

namespace Form

variable {f : Form} {name : String} {before : List NodeKind}
variable {pieces : List (Content Element)} {content : List (Content Node)} {k : NodeKind}

/-- A form of elements in which nothing may stand but indentation. -/
structure HoldsNothing (f : Form) : Prop where
  model : f.model = .elements
  slots : f.slots = []
  takesMarkup : f.takesMarkup = false

/-- **What stands for characters** is empty. -/
theorem holdsNothing_of_mem_kinds (hk : k ∈ f.kinds) (hstands : k ∈ [.entity, .sp, .lineBreak]) :
    f.HoldsNothing := by
  have hform : f = .entity ∨ f = .space ∨ f = .mark := by
    cases f with
    | sect level =>
      have hlevels : ∀ x ∈ NodeKind.levels, x.2 ∉ [NodeKind.entity, .sp, .lineBreak] := by decide
      exact absurd hstands (hlevels _ (mem_levels_of_mem_kinds_sect hk))
    | internal level =>
      rw [List.mem_singleton.mp hk] at hstands
      exact absurd hstands (by decide)
    | _ => revert k; decide
  rcases hform with rfl | rfl | rfl <;> exact ⟨rfl, rfl, rfl⟩

/-- Indentation is left out, so nothing remains. -/
theorem HoldsNothing.content_eq_nil (hf : f.HoldsNothing)
    (hcontent : f.buildContent name before pieces = .ok content) : content = [] := by
  induction pieces generalizing content with
  | nil =>
    rw [buildContent_nil] at hcontent
    exact (Except.ok.inj hcontent).symm
  | cons piece pieces ih =>
    cases piece with
    | text s =>
      obtain ⟨kept, others, hkept, hothers, rfl⟩ := buildContent_text_eq_ok_iff.mp hcontent
      rw [hf.model] at hkept
      -- such a form keeps no text, and has no slot for a child
      rw [(ContentModel.of_keeps_elements hkept).1]
      exact ih hothers
    | child e =>
      obtain ⟨slot, -, -, hplace, -⟩ := buildContent_child_eq_ok_iff.mp hcontent
      obtain ⟨hmem, -⟩ := mem_slots_of_slot? hf.takesMarkup (place_eq_ok_iff.mp hplace).1
      rw [hf.slots] at hmem
      exact absurd hmem List.not_mem_nil

end Form

namespace Node

variable {n m : Node} {content : List (Content Node)}

/-- Nodes of three kinds stand for characters. -/
theorem kind_mem_of_standsFor? {text : String} (hn : n.standsFor? = some text) :
    n.kind ∈ [NodeKind.entity, .sp, .lineBreak] := by
  revert hn
  rw [standsFor?]
  split <;> simp_all

/-- **Nothing stands below** a node that stands for characters. -/
theorem IsBuilt.content_eq_nil {text : String} (hn : n.IsBuilt)
    (hstands : n.standsFor? = some text) :
    n.content = [] := by
  have hkind := kind_mem_of_standsFor? hstands
  rcases hn with ⟨f, hf⟩ | ⟨term, definition, rfl, -⟩
  · have hnothing := Form.holdsNothing_of_mem_kinds hf.kind_mem hkind
    obtain ⟨e, -, hbuild⟩ := hf
    obtain ⟨-, -, content, hcontent, -, rfl⟩ := Form.build_eq_ok_iff.mp hbuild
    rw [Form.node, hnothing.content_eq_nil hcontent, Form.arrange]
    split <;> rfl
  · exact absurd hkind (by simp [pair])

/-- **Only what has been put in** is not literal text. -/
theorem IsBuilt.text_eq_literalText (hn : n.IsBuilt) : n.text = literalText n.pieces := by
  induction n using Node.induction with
  | step n ih =>
    rw [text_eq, pieces_eq]
    cases hstands : n.standsFor? with
    | some text => rw [hn.content_eq_nil hstands, textOf]; rfl
    | none => exact literalText_piecesOf fun c hc => ih c hc (hn.child hc)

/-- **Plain text is the text of the expanded tree.**  In a compound it is literal text but for what
has been put in, which is nothing if no node of the tree stands for characters. -/
theorem plainText_expands (n : Node) :
    n.plainText = textOf [n.expanded]
      ∧ n.plainText = String.join (n.pieces.map (·.text))
      ∧ (∀ e root path, buildCompound e = .ok root → root.descend? path = some n →
        n.text = literalText n.pieces)
      ∧ ((∀ m ∈ n.entered fun _ => false, m.standsFor? = none) → n.text = n.plainText) := by
  have hplain : n.plainText = textOf [n.expanded] := congrArg Output.text (render_plain n)
  refine ⟨hplain, plainText_eq_join n, fun e root path hroot hpath => ?_, fun hn => ?_⟩
  · exact (IsBuilt.descend? (.inl ⟨_, builds_compound hroot⟩) hpath).text_eq_literalText
  · rw [hplain, expanded_eq_self hn, textOf, textOf, String.append_empty]

/-- A page with a line break and an entity in its description, and two spaces in its listing. -/
def spacedPage : Element :=
  let para : Element :=
    { name := "para"
      content := [.text "a", .child { name := "linebreak" }, .child { name := "copy" }, .text "b"] }
  let space : Element := { name := "sp", attributes := [⟨"value", "2"⟩] }
  let highlight : Element :=
    { name := "highlight"
      attributes := [⟨"class", "normal"⟩]
      content := [.text "c", .child space, .text "d"] }
  let line : Element := { name := "codeline", content := [.child highlight] }
  { name := "compounddef"
    attributes := [⟨"id", "a"⟩, ⟨"kind", "page"⟩]
    content :=
      [.child { name := "compoundname", content := [.text "p"] },
       .child { name := "detaileddescription", content := [.child para] },
       .child { name := "programlisting", content := [.child line] }] }

theorem plainText_expands_spacedPage :
    ∃ root name description listing, buildCompound spacedPage = .ok root
      ∧ root.descend? [0] = some name ∧ name.text = name.plainText
      ∧ root.descend? [1] = some description
      ∧ description.plainText = "a\n©b" ∧ description.text = "ab"
      ∧ root.descend? [2] = some listing
      ∧ listing.plainText = "c  d" ∧ listing.text = "cd" := by
  -- The page is built once, and what is asked of its three nodes is read off together.
  have hbuilt : (buildCompound spacedPage).toOption.any (fun root =>
      (root.descend? [0]).any (fun n => (n.entered fun _ => false).all (·.standsFor?.isNone))
        && (root.descend? [1]).any
          (·.pieces == [⟨"a", false⟩, ⟨"\n", true⟩, ⟨"©", true⟩, ⟨"b", false⟩])
        && (root.descend? [2]).any
          (·.pieces == [⟨"c", false⟩, ⟨"  ", true⟩, ⟨"d", false⟩])) = true := by
    decide +kernel
  obtain ⟨root, hroot, hnodes⟩ := exists_eq_ok_of_any hbuilt
  simp only [Bool.and_eq_true, Option.any_eq_true, beq_iff_eq] at hnodes
  obtain ⟨⟨⟨name, hname, hplain⟩, description, hdescription, hfirst⟩, listing, hlisting, hsecond⟩ :=
    hnodes
  have hnone : ∀ m ∈ name.entered fun _ => false, m.standsFor? = none := fun m hm =>
    Option.isNone_iff_eq_none.mp (List.all_eq_true.mp hplain m hm)
  obtain ⟨-, hdescribed, hdescriptionText, -⟩ := plainText_expands description
  obtain ⟨-, hlisted, hlistingText, -⟩ := plainText_expands listing
  refine ⟨root, name, description, listing, hroot, hname,
    (plainText_expands name).2.2.2 hnone, hdescription, ?_, ?_, hlisting, ?_, ?_⟩
  · rw [hdescribed, hfirst]
    decide
  · rw [hdescriptionText _ _ _ hroot hdescription, hfirst]
    decide
  · rw [hlisted, hsecond]
    decide
  · rw [hlistingText _ _ _ hroot hlisting, hsecond]
    decide

end Node

end DocGraph
