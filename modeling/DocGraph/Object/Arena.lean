import DocGraph.Document
import DocGraph.Object.Basic

namespace DocGraph

/-!
# The objects of a document

* `Omission` — why a compound has no object: nothing shows its kind, or its id has been used;
* `identify` — the objects of compounds in order, or the reason why one has none;
* `Arena`, `Arena.ofDocument` — the objects of a document, in order.  Objects are known by their
  place in this order from here on;
* `Arena.lookup?`, `Arena.node?` — the object with an id, and the compound of an object.

Places are numbers of 32 bits in the program, which takes it that no project has 2^32 objects: even
the largest ones have some tens of thousands.  The same is assumed here, where places are natural
numbers; in a document with as many objects or more, two of them would have the same place there.
-/

/-- Why a compound has no object. -/
inductive Omission where
  /-- Its kind belongs to no collection. -/
  | unsupportedKind (id kind : String)
  /-- An earlier compound has its id. -/
  | duplicateId (id : String)
deriving DecidableEq, Repr

namespace Omission

/-- The wording of a warning. -/
def message : Omission → String
  | .unsupportedKind id kind => s!"unsupported compound kind `{kind}` of `{id}`"
  | .duplicateId id => s!"duplicate compound `{id}`"

/-- What is said below a warning. -/
def remarks : Omission → List Remark
  | .unsupportedKind .. => [.help "the compound will be omitted from the documentation"]
  | .duplicateId _ =>
    [.note "only the first occurrence is kept",
     .help "was the same compound file provided more than once?"]

instance : Reportable Omission where
  level _ := .warning
  message := message
  remarks := remarks

end Omission

/-- What becomes of compounds that stand from `place` on, when objects have the ids `taken`. -/
def identify (p : PermalinkStyle) (place : Nat) (taken : List String) :
    List Node → List (Except Omission Object)
  | [] => []
  | n :: rest =>
    match n.asCompound? with
    | none => identify p (place + 1) taken rest
    | some d =>
      match ObjectKind.ofCompound? d with
      | none => .error (.unsupportedKind d.id d.kind) :: identify p (place + 1) taken rest
      | some kind =>
        if taken.contains d.id then
          .error (.duplicateId d.id) :: identify p (place + 1) taken rest
        else
          .ok (Object.ofCompound p d kind place) :: identify p (place + 1) (d.id :: taken) rest

/-- The objects of a document. -/
structure Arena where
  document : Document
  objects : List Object

namespace Arena

/-- The objects of a document, and the warnings about compounds that have none. -/
def ofDocument (p : PermalinkStyle) (d : Document) : Arena × List Omission :=
  let all := identify p 0 [] d.compounds
  let warnings := all.filterMap fun
    | .error w => some w
    | .ok _ => none
  (⟨d, all.filterMap Except.toOption⟩, warnings)

/-- The place of the object with an id. -/
def lookup? (a : Arena) (id : String) : Option Nat := a.objects.findIdx? (·.id == id)

/-- The compound that an object stands for. -/
def node? (a : Arena) (place : Nat) : Option Node :=
  a.objects[place]?.bind fun o => a.document.compound? o.compound

end Arena

end DocGraph
