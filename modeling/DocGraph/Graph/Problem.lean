import DocGraph.Report.Basic
import DocGraph.Node.Data
import DocGraph.Object.Basic

namespace DocGraph

/-!
# Problems of linking

None of them is fatal: each makes the documentation a little poorer, and is reported so that its
cause may be mended.

* `LinkProblem` — the problems, by the ids of the objects involved;
* `LinkProblem.withSource` — an unresolved reference, with the compound in which it stands.
-/

/-- A problem of linking. -/
inductive LinkProblem where
  /-- Nothing is known by the id that a reference names. -/
  | unresolvedReference (source : Option String) (target : String) (kind : RefKind)
  /-- The permalink of an object belongs to an earlier one, so another was assigned. -/
  | duplicatePermalink (id holder permalink assigned : String)
  /-- An object lists a child that has another parent. -/
  | multipleParents (child parent claimant : String)
  /-- An object would become its own ancestor. -/
  | parentCycle (parent child : String)
  /-- An object lists one of another collection as related. -/
  | crossCollectionChild (parent child : String) (expected found : Collection)
deriving DecidableEq, Repr

namespace LinkProblem

/-- An unresolved reference from a compound; other warnings stay as they are. -/
def withSource (w : LinkProblem) (id : String) : LinkProblem :=
  match w with
  | .unresolvedReference _ target kind => .unresolvedReference (some id) target kind
  | w => w

/-- The wording of a warning. -/
def message : LinkProblem → String
  | .unresolvedReference _ target kind => s!"unresolved {kind.name} reference `{target}`"
  | .duplicatePermalink id _ permalink _ =>
    s!"permalink `{permalink}` of `{id}` is already taken"
  | .multipleParents child _ _ => s!"`{child}` has more than one parent"
  | .parentCycle parent child => s!"`{child}` cannot be a child of `{parent}`"
  | .crossCollectionChild parent child _ found =>
    s!"child `{child}` of `{parent}` is one of the {found.name}"

/-- What is said of a relation that is not kept. -/
def omitted : Remark := .help "the relationship will be omitted from the hierarchy"

/-- What is said below a warning. -/
def remarks : LinkProblem → List Remark
  | .unresolvedReference source _ _ =>
    (source.map fun s => Remark.note s!"referenced from `{s}`").toList
      ++ [.help "the reference will be rendered as plain text"]
  | .duplicatePermalink _ holder _ assigned =>
    [.note s!"already assigned to `{holder}`", .help s!"`{assigned}` will be used instead"]
  | .multipleParents _ parent claimant =>
    [.note s!"first claimed by `{parent}`", .note s!"ignoring claim by `{claimant}`"]
  | .parentCycle _ child => [.note s!"`{child}` would become its own ancestor", omitted]
  | .crossCollectionChild _ _ expected _ =>
    [.note s!"expected one of the {expected.name}", omitted]

instance : Reportable LinkProblem where
  level _ := .warning
  message := message
  remarks := remarks

end LinkProblem

end DocGraph
