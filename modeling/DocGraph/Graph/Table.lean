import DocGraph.Graph.Basic

namespace DocGraph.Graph

/-!
# The table of permalinks

Each object has a line, with its collection, its id and its permalink, separated by tabs.
-/

/-- The line of an object. -/
def tableLine (g : Graph) (o : Object) (x : Nat) : String :=
  s!"{o.collection.name}\t{o.id}\t{g.permalink x}\n"

/-- The lines of all objects, in document order. -/
def table (g : Graph) : String :=
  String.join (g.objects.zipIdx.map fun (o, x) => g.tableLine o x)

end DocGraph.Graph
