import DocGraph.Markup.Content
import DocGraph.Text.Blank

namespace DocGraph

/-!
# Elements

The untyped tree of a document: names, attributes and content, as written.

* `Attribute`, `Element` — an element knows nothing of the schema and keeps all character data;
* `Element.attribute?`, `Element.inner`, `Element.text` — the views that builders read.  An
  attribute given twice counts where it stands first, and blank character data is no inner content;
* `Element.addText`, `Element.addChild`, `Element.addAttribute` — growing an element at its end.
-/

/-- An attribute and its value. -/
structure Attribute where
  name : String
  value : String
deriving DecidableEq, Repr

/-- An element. -/
structure Element where
  name : String
  attributes : List Attribute := []
  content : List (Content Element) := []

/-- Whether a piece of content is blank character data; the empty text is. -/
def Content.isBlankText {α : Type} : Content α → Bool
  | .text s => DocGraph.isBlankText s
  | .child _ => false

namespace Element

/-! ### Equality -/

mutual

/-- Whether two elements have the same name, attributes and content. -/
def same : Element → Element → Bool
  | ⟨n, a, c⟩, ⟨n', a', c'⟩ => n == n' && a == a' && sameContent c c'

/-- Whether two contents are the same piece by piece. -/
def sameContent : List (Content Element) → List (Content Element) → Bool
  | [], [] => true
  | .text s :: r, .text s' :: r' => s == s' && sameContent r r'
  | .child e :: r, .child e' :: r' => same e e' && sameContent r r'
  | _, _ => false

end

instance : BEq Element := ⟨same⟩

/-! ### Views -/

/-- The value of the first attribute with this name. -/
def attribute? (e : Element) (name : String) : Option String :=
  (e.attributes.find? (·.name == name)).map (·.value)

/-- The names of the attributes, in order. -/
def attributeNames (e : Element) : List String := e.attributes.map (·.name)

/-- The content that carries meaning: all but blank character data. -/
def inner (e : Element) : List (Content Element) := e.content.filter (! ·.isBlankText)

/-- The child elements, in order. -/
def children (e : Element) : List Element := Content.children e.content

/-- The first child element with this name. -/
def firstChild? (e : Element) (name : String) : Option Element :=
  e.children.find? (·.name == name)

/-- The character data of the element itself, without that of its children. -/
def text (e : Element) : String := Content.texts e.content

/-- Whether any character data is more than indentation. -/
def hasInnerText (e : Element) : Bool := e.inner.any (·.text?.isSome)

/-- Whether there is a child element with this name. -/
def hasChild (e : Element) (name : String) : Bool := (e.firstChild? name).isSome

/-- Whether the first child element with this name exists and holds character data only. -/
def hasTextChild (e : Element) (name : String) : Bool :=
  (e.firstChild? name).any (·.children.isEmpty)

/-! ### Growth -/

/-- Add character data at the end. -/
def addText (e : Element) (s : String) : Element :=
  { e with content := Content.appendText s e.content }

/-- Add a child element at the end. -/
def addChild (e child : Element) : Element := { e with content := e.content ++ [.child child] }

/-- Add an attribute at the end. -/
def addAttribute (e : Element) (name value : String) : Element :=
  { e with attributes := e.attributes ++ [⟨name, value⟩] }

end Element

end DocGraph
