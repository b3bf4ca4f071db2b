import DocGraph.Schema.Draft

namespace DocGraph

/-!
# Building nodes

An element becomes a node if it and everything below it follows its form; otherwise the first
violation, in the order below, is the answer:

1. the name of the element and its attributes (`Form.checkAttributes`);
2. its content, piece by piece (`Form.walk`).  A child is built before it is asked whether it may
   occur again, so a violation within a child comes before one about the child;
3. the closing conditions of its form (`Form.finish`).

`Form.build` is the whole of it, and `buildCompound` builds a compound from the root of its tree.
-/

/-- Terms of a variable list, each with the definition after it. -/
def pairs : List Node → List Node
  | term :: definition :: rest =>
    { kind := .varListPair, content := [.child term, .child definition] } :: pairs rest
  | _ => []

namespace Form

/-- A violation that this form finds in an element with this name. -/
def violation (f : Form) (name : String) (defect : Defect) : Violation :=
  { element := name, builder := some f.builder, defect }

/-- An element has no attributes but those of its form, and meets their rules. -/
def checkAttributes (f : Form) (e : Element) : Except Violation Unit :=
  Violation.blame f.builder (AttributeRule.checkAll f.attributes e)

/-- The place of a child element, after children of these kinds, last one first.  In a variable list
terms and definitions alternate. -/
def place (f : Form) (before : List NodeKind) (tag : String) : Except Defect Slot :=
  let pending := before.head? = some .varListEntry
  if f = .variableList ∧ tag = NodeKind.varListEntry.tag ∧ pending then
    .error .consecutiveTerms
  else if f = .variableList ∧ tag = NodeKind.listItem.tag ∧ ¬ pending then
    .error .definitionWithoutTerm
  else
    match f.slot? tag with
    | some slot => .ok slot
    | none => .error (.unexpectedElement tag)

/-- The content of a node, from that of its element. -/
def arrange (f : Form) (content : List (Content Node)) : List (Content Node) :=
  if f = .variableList then (pairs (Content.children content)).map .child else content

/-- A node is finished if the closing conditions of its form hold. -/
def finish (f : Form) (e : Element) (draft : Draft) : Except Violation Node := do
  Violation.blame f.builder (f.closings.forM (draft.check e))
  return {
    kind := kindOf e.name
    data := draft.data
    content := f.arrange draft.content.toList }

mutual

/-- The node of an element with this form. -/
def build (f : Form) : Element → Except Violation Node
  | ⟨name, attributes, pieces⟩ =>
    match f.refuses? name with
    | some defect => .error { element := name, builder := f.refuser?, defect }
    | none => do
      f.checkAttributes ⟨name, attributes, pieces⟩
      let draft ← walk f name { data := f.start ⟨name, attributes, pieces⟩ } pieces
      f.finish ⟨name, attributes, pieces⟩ draft

/-- A node under construction, after the pieces of content of an element with this form and name. -/
def walk (f : Form) (name : String) (draft : Draft) :
    List (Content Element) → Except Violation Draft
  | [] => .ok draft
  | .text s :: rest =>
    match f.model.keeps s with
    | .error defect => .error (f.violation name defect)
    | .ok kept => walk f name (if kept then draft.addText s else draft) rest
  | .child e :: rest =>
    match f.place draft.before e.name with
    | .error defect => .error (f.violation name defect)
    | .ok slot => do
      let node ← build slot.form e
      match if slot.once then draft.pushOnce? node else some (draft.push node) with
      | none => throw (f.violation name (.duplicateElement e.name))
      | some draft => walk f name draft rest

end

end Form

/-- The node of a compound, from the root of its tree. -/
def buildCompound (e : Element) : Except Violation Node := Form.compound.build e

end DocGraph
