import DocGraph.Node.Basic

namespace DocGraph

/-!
# Walking a tree

* `Visit` — what is met on the way: a node before and after everything below it, and character data;
* `Node.walk` — everything met in document order.  Nothing below a node that is pruned is met, but
  the node itself is left as it was entered;
* `Node.entered` — the nodes alone, each before those below it.
-/

/-- A step on the way through a tree. -/
inductive Visit where
  | enter (node : Node)
  | leave (node : Node)
  | text (s : String)

/-- The node that a step enters. -/
def Visit.entered? : Visit → Option Node
  | .enter n => some n
  | _ => none

namespace Node

mutual

/-- The steps through a tree, without those below the nodes that `prune` selects. -/
def walk (prune : Node → Bool) : Node → List Visit
  | ⟨k, d, c, s⟩ =>
    .enter ⟨k, d, c, s⟩
      :: ((if prune ⟨k, d, c, s⟩ then [] else walkAll prune c) ++ [.leave ⟨k, d, c, s⟩])

/-- The steps through a content. -/
def walkAll (prune : Node → Bool) : List (Content Node) → List Visit
  | [] => []
  | .text s :: rest => .text s :: walkAll prune rest
  | .child n :: rest => walk prune n ++ walkAll prune rest

end

/-- The nodes entered on the way. -/
def entered (prune : Node → Bool) (n : Node) : List Node :=
  (n.walk prune).filterMap Visit.entered?

end Node

end DocGraph
