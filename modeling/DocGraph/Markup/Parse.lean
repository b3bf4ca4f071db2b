import DocGraph.Markup.Event

namespace DocGraph.Markup

/-!
# From events to the tree

* `Frame`, `Forest` — the elements still open, and the root once it is complete;
* `Forest.step` — one event.  Character data of adjacent events is one piece, and outside the root
  only blanks may stand;
* `treeOf`, `parse` — the root element of events and of bytes.  Whatever goes wrong first is
  the error.
-/

/-- An element under construction. -/
structure Frame where
  /-- The element as its start tag gives it. -/
  element : Element
  /-- Its content so far, last piece first. -/
  content : List (Content Element) := []

/-- The element, once it ends. -/
def Frame.complete (f : Frame) : Element := { f.element with content := f.content.reverse }

/-- More character data. -/
def Frame.addText (f : Frame) (s : String) : Frame :=
  match f.content with
  | .text s' :: rest => { f with content := .text (s' ++ s) :: rest }
  | content => { f with content := .text s :: content }

/-- One more child element. -/
def Frame.addChild (f : Frame) (e : Element) : Frame :=
  { f with content := .child e :: f.content }

/-- What has been read of a document. -/
structure Forest where
  /-- The open elements, innermost first. -/
  frames : List Frame := []
  /-- The first outermost element that ended. -/
  root : Option Element := none

namespace Forest

/-- A complete element joins its parent, or becomes the root. -/
def addElement (f : Forest) (e : Element) : Except Error Forest :=
  match f.frames with
  | parent :: outer => .ok { f with frames := parent.addChild e :: outer }
  | [] =>
    match f.root with
    | some _ => .error (.multipleRoots e.name)
    | none => .ok { f with root := some e }

/-- Character data joins the innermost open element. -/
def addText (f : Forest) (s : String) : Except Error Forest :=
  match f.frames with
  | innermost :: outer => .ok { f with frames := innermost.addText s :: outer }
  | [] => if isBlankText s then .ok f else .error (.textOutsideRoot (trimmed s))

/-- One event. -/
def step (f : Forest) : Event → Except Error Forest
  | .opened e => .ok { f with frames := ⟨e, []⟩ :: f.frames }
  | .closed =>
    match f.frames with
    | [] => .error .unbalancedClose
    | innermost :: outer => addElement { f with frames := outer } innermost.complete
  | .leaf e => f.addElement e
  | .text s => f.addText s
  | .skipped => .ok f

/-- The root, once everything has been read. -/
def finish (f : Forest) : Except Error Element :=
  match f.frames, f.root with
  | innermost :: _, _ => .error (.unclosedElement innermost.element.name)
  | [], some root => .ok root
  | [], none => .error .noRoot

end Forest

/-- The root element of events. -/
def treeOf (events : List Event) : Except Error Element := do
  (← events.foldlM Forest.step {}).finish

/-- The root element of a document. -/
def parse (bytes : List UInt8) : Except Error Element := do
  let stream := scan bytes
  let forest ← stream.events.foldlM Forest.step {}
  match stream.fault with
  | some e => throw e
  | none => forest.finish

end DocGraph.Markup
