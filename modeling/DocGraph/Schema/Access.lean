import DocGraph.Markup.Element
import DocGraph.Schema.Violation
import DocGraph.Text.Numeral

namespace DocGraph

/-!
# Typed access to elements

Reading values off an element, with a violation of that element where a value is absent or has the
wrong form.  No builder is named here; a builder names itself.

* `Element.string`, `Element.number`, `Element.boolean` — required attributes;
* `Element.childText` — the character data of a required child element;
* `parseBool` — the spellings of truth values.
-/

/-- Truth values as they are written. -/
def parseBool (value : String) : Option Bool :=
  match value with
  | "yes" | "true" => some true
  | "no" | "false" => some false
  | _ => none

/-- Numbers as they are written: blanks around them do not matter. -/
def parseNumber (type : Numeral.WordType) (value : String) : Option Int :=
  type.read? (trimmed value)

namespace Element

/-- A violation of this element. -/
def violation (e : Element) (defect : Defect) : Violation := { element := e.name, defect }

/-- The value of a required attribute. -/
def string (e : Element) (name : String) : Except Violation String :=
  match e.attribute? name with
  | some value => .ok value
  | none => .error (e.violation (.missingAttribute name))

/-- The number that a required attribute denotes. -/
def number (e : Element) (type : Numeral.WordType) (name : String) : Except Violation Int := do
  let value ← e.string name
  match parseNumber type value with
  | some n => return n
  | none => throw (e.violation (.invalidAttribute name value "a number"))

/-- The truth value that a required attribute denotes. -/
def boolean (e : Element) (name : String) : Except Violation Bool := do
  let value ← e.string name
  match parseBool value with
  | some b => return b
  | none => throw (e.violation (.invalidAttribute name value "`yes` or `no`"))

/-- The character data of the first child element with this name, which may hold nothing else. -/
def childText (e : Element) (name : String) : Except Violation String :=
  match e.firstChild? name with
  | none => .error (e.violation (.missingElement name))
  | some child =>
    match child.children with
    | [] => .ok child.text
    | other :: _ => .error (child.violation (.unexpectedElement other.name))

end Element

end DocGraph
