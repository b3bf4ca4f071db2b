import DocGraph.Node.Data
import DocGraph.Schema.Access

namespace DocGraph

/-!
# Rules for attributes

* `Demand`, `AttributeRule` — what the schema asks of an attribute;
* `AttributeRule.check`, `AttributeRule.checkAll` — whether an element meets one rule, or all of
  them and has no further attributes, and the violation if not;
* `Element.value`, `Element.filled?`, `Element.flag?`, `Element.natural?` … — the values of
  attributes that have been checked.  An absent or meaningless attribute reads as nothing.
-/

/-- What is asked of an attribute. -/
inductive Demand where
  /-- Nothing: it may be absent, and its text may be anything. -/
  | any
  /-- It has to be present and not empty. -/
  | filled
  /-- It denotes a number, unless it may be absent and is. -/
  | number (type : Numeral.WordType) (required : Bool)
  /-- It denotes a truth value, unless it is absent. -/
  | flag
  /-- It has to be present and name a kind of reference. -/
  | refKind
deriving DecidableEq, Repr

/-- An attribute of an element, and what is asked of it. -/
structure AttributeRule where
  name : String
  demand : Demand
deriving DecidableEq, Repr

namespace AttributeRule

/-- The value of an attribute that has to be present and not empty. -/
def checkFilled (name : String) (e : Element) : Except Violation String := do
  let value ← e.string name
  if value.isEmpty then throw (e.violation (.emptyValue s!"@{name}"))
  return value

/-- Whether an element meets a rule. -/
def check (r : AttributeRule) (e : Element) : Except Violation Unit :=
  match r.demand with
  | .any => .ok ()
  | .filled => do let _ ← checkFilled r.name e
  | .number type required =>
    if required || (e.attribute? r.name).isSome then do let _ ← e.number type r.name
    else .ok ()
  | .flag =>
    if (e.attribute? r.name).isSome then do let _ ← e.boolean r.name
    else .ok ()
  | .refKind => do
    let value ← checkFilled r.name e
    if (RefKind.ofName? value).isNone then
      throw (e.violation (.invalidAttribute r.name value "`compound` or `member`"))

/-- An element has no attributes but those of the rules, and meets the rules in order. -/
def checkAll (rules : List AttributeRule) (e : Element) : Except Violation Unit :=
  match e.attributeNames.find? fun name => rules.all (·.name != name) with
  | some unknown => .error (e.violation (.unexpectedAttribute unknown))
  | none => rules.forM (·.check e)

end AttributeRule

/-! ### Reading checked attributes -/

namespace Element

/-- The text of an attribute. -/
def value (e : Element) (name : String) : String := (e.attribute? name).getD ""

/-- The text of an attribute, where an empty text is none. -/
def filled? (e : Element) (name : String) : Option String :=
  (e.attribute? name).filter (! ·.isEmpty)

/-- The truth value of an attribute. -/
def flag? (e : Element) (name : String) : Option Bool := (e.attribute? name).bind parseBool

/-- The truth value of an attribute, false where it is absent. -/
def flag (e : Element) (name : String) : Bool := (e.flag? name).getD false

/-- The number of an attribute, as a word of the given number of bits without sign. -/
def natural? (e : Element) (name : String) (bits : Nat := 32) : Option Nat :=
  ((e.attribute? name).bind (parseNumber (.unsigned bits))).map Int.toNat

/-- The number of an attribute, as a word of 32 bits with a sign. -/
def integer? (e : Element) (name : String) : Option Int :=
  (e.attribute? name).bind (parseNumber (.signed 32))

end Element

end DocGraph
