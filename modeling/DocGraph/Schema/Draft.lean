import DocGraph.Schema.Hoist

namespace DocGraph

/-!
# Nodes under construction

While the content of an element is read from left to right, the node that it becomes grows piece by
piece, and its data with it:

* `Draft` — a node under construction;
* `Draft.addText`, `Draft.push`, `Draft.pushOnce?` — the steps by which it grows.  Character data
  joins the character data before it, so the places of later children are those that they have in
  the end;
* `Draft.check` — whether a closing condition holds, by what has been taken from the children.
-/

/-- A node under construction. -/
structure Draft where
  data : NodeData
  content : Array (Content Node) := #[]
  /-- The kinds of the children so far, last one first. -/
  before : List NodeKind := []
  /-- The places of children that may not come again, by their kinds. -/
  slots : List (NodeKind × Nat) := []

namespace Draft

/-- The place of the child of a kind that may not come again. -/
def slot? (draft : Draft) (kind : NodeKind) : Option Nat := draft.slots.lookup kind

/-- Character data is added to the character data before it. -/
def addText (draft : Draft) (s : String) : Draft :=
  match draft.content.back? with
  | some (.text before) =>
    { draft with content := draft.content.pop.push (.text (before ++ s)) }
  | _ => { draft with content := draft.content.push (.text s) }

/-- A child is pushed, and the data takes from it what it says. -/
def push (draft : Draft) (n : Node) : Draft where
  data := draft.data.take { node := n, place := draft.content.size }
  content := draft.content.push (.child n)
  before := n.kind :: draft.before
  slots := draft.slots

/-- A child is pushed that may not come again, unless there is one of its kind. -/
def pushOnce? (draft : Draft) (n : Node) : Option Draft :=
  match draft.slot? n.kind with
  | some _ => none
  | none => some { draft.push n with slots := (n.kind, draft.content.size) :: draft.slots }

/-- Whether a closing condition holds of an element, once all its children are pushed. -/
def check (draft : Draft) (e : Element) : Form.Closing → Except Violation Unit
  | .present tag =>
    match draft.slot? (Form.kindOf tag) with
    | none => .error (e.violation (.missingElement tag))
    | some _ => .ok ()
  | .told tag =>
    if isBlankText draft.data.requiredText then
      match draft.slot? (Form.kindOf tag) with
      | none => .error (e.violation (.missingElement tag))
      | some _ => .error (e.violation (.emptyValue tag))
    else .ok ()
  | .named =>
    if isBlankText draft.data.requiredText then
      .error (e.violation (.missingElement NodeKind.name.tag))
    else .ok ()
  | .worded => if isBlankText e.text then .error (e.violation (.emptyValue e.name)) else .ok ()
  | .paired =>
    if draft.before.head? = some .varListEntry then .error (e.violation .unpairedTerm) else .ok ()
  | .flagged name => (AttributeRule.mk name .flag).check e

end Draft

end DocGraph
