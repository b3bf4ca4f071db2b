import DocGraph.Render.Handlers

namespace DocGraph

/-!
# Plain text

* `Handlers.plain` — the table that writes characters for entities, spaces and line breaks;
* `Node.plainText` — the text of a node under that table, as wanted for labels and titles.
-/

namespace Handler

/-- The text that an entity stands for. -/
def entity : Handler := fun n _ =>
  match n.data with
  | .entity _ text => .write text
  | _ => {}

/-- As many spaces as a run of spaces counts, one if it does not say. -/
def space : Handler := fun n _ =>
  match n.data with
  | .sp count => .write (String.ofList (List.replicate count ' '))
  | _ => .write " "

/-- A line end. -/
def lineBreak : Handler := fun _ _ => .write "\n"

end Handler

/-- The table for plain text. -/
def Handlers.plain : Handlers :=
  (({} : Handlers).register .entity Handler.entity |>.register .sp Handler.space).register
    .lineBreak Handler.lineBreak

/-- The text of a node, with entities, spaces and line breaks written out. -/
def Node.plainText (n : Node) : String := (Handlers.plain.render n).text

end DocGraph
