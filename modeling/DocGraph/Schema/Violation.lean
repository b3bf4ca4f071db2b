import DocGraph.Report.Basic

namespace DocGraph

/-!
# Schema violations

A well-formed document that does not follow the schema is refused at its first violation, since
dropping what is not understood would lose documentation unnoticed:

* `Defect` — what about an element is wrong;
* `Violation` — the element, the builder that refused it, and the defect;
* `Violation.rejectedBy`, `Violation.blame` — names the builder.  The innermost builder understood
  the problem, so the first one named stays.
-/

/-- What about an element violates the schema. -/
inductive Defect where
  /-- A child element that may not stand here. -/
  | unexpectedElement (name : String)
  /-- An attribute that the schema does not define. -/
  | unexpectedAttribute (name : String)
  /-- Character data where only elements may stand. -/
  | unexpectedText (text : String)
  /-- A required attribute is absent. -/
  | missingAttribute (name : String)
  /-- A required child element is absent. -/
  | missingElement (name : String)
  /-- A required value is present but empty; attributes are marked by an at sign. -/
  | emptyValue (key : String)
  /-- An attribute value that denotes nothing of the expected type. -/
  | invalidAttribute (name value expected : String)
  /-- A child element that may occur once occurs again. -/
  | duplicateElement (name : String)
  /-- A definition in a variable list that follows no term. -/
  | definitionWithoutTerm
  /-- Two terms in a variable list with no definition between them. -/
  | consecutiveTerms
  /-- A variable list whose last term has no definition. -/
  | unpairedTerm
  /-- A document whose root is another element. -/
  | unexpectedRoot (expected : String)
deriving DecidableEq, Repr

/-- The refusal of an element. -/
structure Violation where
  element : String
  builder : Option String := none
  defect : Defect
deriving DecidableEq, Repr

namespace Violation

/-- Name the builder that refused the element, unless an inner one has been named. -/
def rejectedBy (v : Violation) (builder : String) : Violation :=
  { v with builder := v.builder <|> some builder }

/-- A check that names a builder where it fails. -/
def blame {α : Type} (builder : String) (check : Except Violation α) : Except Violation α :=
  check.mapError (·.rejectedBy builder)

/-- The wording of a violation. -/
def message (v : Violation) : String :=
  let e := v.element
  match v.defect with
  | .unexpectedElement n => s!"unexpected element `{n}` in `{e}`"
  | .unexpectedAttribute n => s!"unexpected attribute `{n}` on `{e}`"
  | .unexpectedText t => s!"unexpected text `{t}` in `{e}`"
  | .missingAttribute n => s!"missing required attribute `{n}` on `{e}`"
  | .missingElement n => s!"missing required element `{n}` in `{e}`"
  | .emptyValue k => s!"required value `{k}` of `{e}` is empty"
  | .invalidAttribute n v _ => s!"invalid value `{v}` for `{e}/@{n}`"
  | .duplicateElement n => s!"element `{n}` may occur only once in `{e}`"
  | .definitionWithoutTerm => s!"`listitem` without a term in `{e}`"
  | .consecutiveTerms => s!"consecutive `varlistentry` elements in `{e}`"
  | .unpairedTerm => s!"`varlistentry` without a definition in `{e}`"
  | .unexpectedRoot r => s!"expected root element `{r}`, found `{e}`"

/-- Advice that depends on the defect alone. -/
def advice : Defect → List Remark
  | .invalidAttribute _ _ expected => [.help s!"expected {expected}"]
  | .definitionWithoutTerm | .consecutiveTerms | .unpairedTerm =>
    [.help "each `varlistentry` must be immediately followed by its `listitem`"]
  | .unexpectedElement _ | .unexpectedAttribute _ =>
    [.help "this Doxygen output may be from an unsupported version"]
  | _ => []

/-- The builder, if one is named, and then the advice. -/
def remarks (v : Violation) : List Remark :=
  (v.builder.map fun b => Remark.note s!"rejected by the {b}").toList ++ advice v.defect

instance : Reportable Violation where
  message := message
  remarks := remarks

end Violation

end DocGraph
