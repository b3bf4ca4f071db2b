import DocGraph.Node.Basic

namespace DocGraph

/-!
# Tables of handlers

A renderer is a table of handlers by kind of node.  A handler is given a node and what the table
makes of its content, so no handler needs to know what it will find below:

* `Output` — the text written so far, and whether writing goes on;
* `Handler` — the output for a node, from the node and the output of its content;
* `Handlers` — the handlers of some kinds, and the one for all others;
* `Handlers.render`, `Handlers.renderContent` — what a table makes of a node and of a content.
  After a failure nothing more is written.
-/

/-- What has been written, and whether writing goes on. -/
structure Output where
  text : String := ""
  succeeded : Bool := true
deriving DecidableEq, Repr

namespace Output

/-- Write a text. -/
def write (s : String) : Output := ⟨s, true⟩

/-- Go on with more output, unless writing has failed. -/
def andThen (a b : Output) : Output := if a.succeeded then ⟨a.text ++ b.text, b.succeeded⟩ else a

end Output

/-- The output for a node, from the output of its content. -/
abbrev Handler := Node → Output → Output

namespace Handler

/-- The content alone. -/
def children : Handler := fun _ content => content

/-- Nothing at all. -/
def nothing : Handler := fun _ _ => {}

end Handler

/-- Handlers by kind of node. -/
structure Handlers where
  /-- The handlers that have been registered, last one first. -/
  handlers : List (NodeKind × Handler) := []
  /-- The handler of every other kind. -/
  fallback : Handler := Handler.children

namespace Handlers

/-- Register a handler in place of the one that a kind has. -/
def register (d : Handlers) (kind : NodeKind) (handler : Handler) : Handlers :=
  { d with handlers := (kind, handler) :: d.handlers.filter (·.1 ≠ kind) }

/-- Whether a kind has a handler of its own. -/
def isRegistered (d : Handlers) (kind : NodeKind) : Bool := d.handlers.any (·.1 = kind)

/-- The handler for nodes of a kind. -/
def handler (d : Handlers) (kind : NodeKind) : Handler :=
  (d.handlers.lookup kind).getD d.fallback

/-- The kinds with handlers of their own, in order. -/
def kinds (d : Handlers) : List NodeKind := NodeKind.all.filter d.isRegistered

/-- The kinds of a table, written out. -/
def listed (d : Handlers) : String :=
  "Dispatch \x7b kinds: [" ++ ", ".intercalate (d.kinds.map NodeKind.listed) ++ "] \x7d"

mutual

/-- What a table makes of a node. -/
def render (d : Handlers) : Node → Output
  | ⟨k, x, c, s⟩ => d.handler k ⟨k, x, c, s⟩ (renderContent d c)

/-- What a table makes of a content; character data is written as it is. -/
def renderContent (d : Handlers) : List (Content Node) → Output
  | [] => {}
  | .text s :: rest => (Output.write s).andThen (renderContent d rest)
  | .child n :: rest => (render d n).andThen (renderContent d rest)

end

/-- What a table makes of a node as if it were of another kind. -/
def renderAs (d : Handlers) (kind : NodeKind) (n : Node) : Output :=
  d.handler kind n (d.renderContent n.content)

end Handlers

end DocGraph
