import DocGraph.Node.Basic

namespace DocGraph

/-!
# Cutting program listings

* `Content.lineNumber?` — the number of a piece of a listing, if it is a numbered line;
* `Node.linesBetween?` — a listing with only the lines numbered within a range, or none if there
  are no such lines, as for every node that is no listing.
-/

/-- The number of a code line. -/
def Content.lineNumber? : Content Node → Option Nat
  | .text _ => none
  | .child n =>
    match n.data with
    | .codeLine d => d.number
    | _ => none

/-- The listing cut down to the lines numbered from `first` to `last`. -/
def Node.linesBetween? (n : Node) (first last : Nat) : Option Node :=
  if n.kind = .programListing then
    let lines := n.content.filter fun c => c.lineNumber?.any fun k => first ≤ k && k ≤ last
    if lines.isEmpty then none else some { n with content := lines, skipParagraph := false }
  else none

end DocGraph
