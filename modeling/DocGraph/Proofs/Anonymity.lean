import DocGraph.Object.Basic
import DocGraph.Proofs.RefIds
import DocGraph.Proofs.Scopes

namespace DocGraph

/-!
# Anonymous scopes

A scope without a name begins with an at sign.  Two places ask for it: the kind of a namespace reads
what stands behind the last `::` of its name, be it in brackets, and the label of a class or
namespace reads its last scope, whatever the kind is:

* `lastScope`, `Anonymity.Agrees` — the last scope of a name, and what it is for the two to agree;
* `cutLast?_append_left`, `afterLast_of_scopes` — what stands behind the last `::`, from the last
  scope;
* `EndsAlike`, `hasAnonymousEnd_eq_iff` — names whose end is marked like their last scope;
* `Anonymity.agrees_iff` — the main statement.
-/

/-- The innermost scope of a name. -/
def lastScope (name : String) : String := (scopesOf name).getLast?.getD name

/-! ### The last separator -/

section

variable {sep cs before after scope : List Char} {scopes left : List (List Char)}

/-- What is put in front does not change where the last separator is. -/
theorem cutLast?_append_left (front : List Char) (h : cutLast? sep cs = some (before, after)) :
    cutLast? sep (front ++ cs) = some (front ++ before, after) := by
  induction front with
  | nil => exact h
  | cons c front ih => rw [List.cons_append, cutLast?, ih]; rfl

/-- The last of the joined texts stands behind a separator. -/
theorem intercalate_append_singleton (hleft : left ≠ []) :
    sep.intercalate (left ++ [scope]) = sep.intercalate left ++ (sep ++ scope) := by
  induction left with
  | nil => exact absurd rfl hleft
  | cons first left ih =>
    cases left with
    | nil => simp [List.intercalate_cons_cons]
    | cons second left =>
      rw [List.cons_append, List.cons_append, List.intercalate_cons_cons, ← List.cons_append,
        ih (by simp), List.intercalate_cons_cons, List.append_assoc, List.append_assoc,
        List.append_assoc]

/-- A separator in the last scope is the last one of the text. -/
theorem afterLast_of_infix (hsep : scopeSeparator <:+: scope) (front : List Char) :
    afterLast scopeSeparator (front ++ scope) = afterLast scopeSeparator scope := by
  cases hcut : cutLast? scopeSeparator scope with
  | none => exact absurd hsep (cutLast?_eq_none_iff.mp hcut)
  | some cut =>
    rw [afterLast, afterLast, hcut, cutLast?_append_left front hcut]
    rfl

/-- Behind the separator in front of a scope stands the scope, less a colon at its beginning, which
belongs to a later separator. -/
theorem afterLast_separator_append (hsep : ¬ scopeSeparator <:+: scope) (front : List Char) :
    afterLast scopeSeparator (front ++ (scopeSeparator ++ scope))
      = if scope.head? = some ':' then scope.tail else scope := by
  by_cases hcolon : scope.head? = some ':'
  · obtain ⟨rest, rfl⟩ := List.head?_eq_some_iff.mp hcolon
    -- of three colons the last two are the separator
    have hcut : cutLast? scopeSeparator (front ++ (scopeSeparator ++ ':' :: rest))
        = some (front ++ [':'], rest) := by
      have hshift : front ++ (scopeSeparator ++ ':' :: rest)
          = front ++ [':'] ++ (scopeSeparator ++ rest) := by
        simp [scopeSeparator]
      rw [hshift]
      exact cutLast?_append hsep
    rw [if_pos hcolon, afterLast, hcut]
    rfl
  · have hcut : cutLast? scopeSeparator (front ++ (scopeSeparator ++ scope))
        = some (front, scope) := by
      refine cutLast?_append fun hwithin => ?_
      rcases List.infix_cons_iff.mp hwithin with hpre | hwithin
      · obtain ⟨rest, rfl⟩ : [':'] <+: scope := (List.cons_prefix_cons.mp hpre).2
        exact hcolon rfl
      · exact hsep hwithin
    rw [if_neg hcolon, afterLast, hcut]
    rfl

/-- A text without separator is all that is behind the last one. -/
theorem afterLast_of_not_infix (hsep : ¬ sep <:+: cs) : afterLast sep cs = cs := by
  rw [afterLast, cutLast?_eq_none_iff.mpr hsep]
  rfl

/-- **What stands behind the last separator** of a text, from its last scope. -/
theorem afterLast_of_scopes {depth : Nat} (hscopes : scopesFrom depth [] cs = left ++ [scope]) :
    afterLast scopeSeparator cs
      = if scopeSeparator <:+: scope then afterLast scopeSeparator scope
        else if left ≠ [] ∧ scope.head? = some ':' then scope.tail else scope := by
  have hcs := intercalate_scopesFrom depth cs
  rw [hscopes] at hcs
  rcases eq_or_ne left [] with rfl | hleft
  · obtain rfl : scope = cs := by simpa using hcs
    split
    case isTrue => rfl
    case isFalse hsep => simpa using afterLast_of_not_infix hsep
  -- With scopes on the left, the last separator is inside the scope, overlaps it, or precedes it.
  · rw [intercalate_append_singleton hleft] at hcs
    split
    case isTrue hsep =>
      rw [← hcs, ← List.append_assoc]
      exact afterLast_of_infix hsep _
    case isFalse hsep =>
      rw [← hcs, afterLast_separator_append hsep]
      simp [hleft]

end

/-! ### Names -/

section

variable {name : String}

/-- What stands behind the last `::` of a name begins with an at sign if its last scope does.  The
two are the same but where the last scope has a `::` in brackets, or where it begins with a colon,
as after a run of three. -/
def EndsAlike (name : String) : Prop :=
  (scopeSeparator <:+: (lastScope name).toList →
    ((lastScope name).toList.head? = some '@'
      ↔ (afterLast scopeSeparator (lastScope name).toList).head? = some '@'))
    ∧ (¬ scopeSeparator <:+: (lastScope name).toList → 2 ≤ (scopesOf name).length →
      ¬ [':', '@'] <+: (lastScope name).toList)

/-- A name has a last scope. -/
theorem exists_scopesOf_eq_append (name : String) :
    ∃ left, scopesOf name = left ++ [lastScope name] := by
  have hne : scopesOf name ≠ [] := by
    obtain ⟨first, others, heq⟩ := exists_scopesFrom_eq_cons 0 name.toList
    simp [scopesOf, heq]
  refine ⟨(scopesOf name).dropLast, ?_⟩
  rw [lastScope, List.getLast?_eq_some_getLast hne, Option.getD_some,
    List.dropLast_append_getLast hne]

/-- The marker of an anonymous scope is its first character. -/
theorem isAnonymous_eq_true_iff {scope : String} :
    isAnonymous scope = true ↔ scope.toList.head? = some '@' := decide_eq_true_iff

/-- **Where a namespace is anonymous by its end**, it is so by its last scope. -/
theorem hasAnonymousEnd_iff :
    (hasAnonymousEnd name = true ↔ isAnonymous (lastScope name) = true) ↔ EndsAlike name := by
  obtain ⟨left, hleft⟩ := exists_scopesOf_eq_append name
  have hscopes : scopesFrom 0 [] name.toList
      = left.map String.toList ++ [(lastScope name).toList] := by
    rw [← toList_scopesOf, hleft, List.map_append, List.map_singleton]
  have hend : hasAnonymousEnd name = true
      ↔ (afterLast scopeSeparator name.toList).head? = some '@' := decide_eq_true_iff
  rw [hend, isAnonymous_eq_true_iff, afterLast_of_scopes hscopes, EndsAlike, hleft]
  generalize (lastScope name).toList = scope
  -- a separator in the last scope is one in brackets, and the last of the name
  by_cases hsep : scopeSeparator <:+: scope
  · rw [if_pos hsep]
    simp only [hsep, true_imp_iff, not_true_eq_false, false_imp_iff, and_true]
    exact iff_comm
  · rw [if_neg hsep]
    simp only [hsep, false_imp_iff, not_false_eq_true, true_imp_iff, true_and]
    have hseveral : 2 ≤ (left ++ [lastScope name]).length ↔ left ≠ [] := by
      rw [List.length_append, List.length_singleton, ← List.length_pos_iff]
      omega
    rw [hseveral]
    simp only [ne_eq, List.map_eq_nil_iff]
    by_cases hcolon : left ≠ [] ∧ scope.head? = some ':'
    · obtain ⟨rest, rfl⟩ := List.head?_eq_some_iff.mp hcolon.2
      have hmarked : [':', '@'] <+: ':' :: rest ↔ rest.head? = some '@' := by
        rw [List.cons_prefix_cons, List.head?_eq_some_iff]
        exact ⟨fun ⟨_, others, h⟩ => ⟨others, h.symm⟩, fun ⟨others, h⟩ => ⟨rfl, others, h.symm⟩⟩
      rw [if_pos hcolon, hmarked]
      simp [hcolon.1]
    · rw [if_neg hcolon]
      refine iff_of_true Iff.rfl fun hleft hmarked => hcolon ⟨hleft, ?_⟩
      obtain ⟨rest, rfl⟩ := hmarked
      rfl

end

/-! ### Objects -/

namespace Anonymity

variable {d : CompoundDef} {kind : ObjectKind} {a : Bool}

/-- The notions of an anonymous scope agree for an object of a kind. -/
structure Agrees (d : CompoundDef) (kind : ObjectKind) : Prop where
  /-- It is flagged if it is a namespace whose last scope begins with an at sign. -/
  flag : kind = .namespaceLike true
    ↔ kind.collection = .namespaces ∧ (lastScope d.name).toList.head? = some '@'
  /-- Its label says so if it is flagged, and is its last scope if not. -/
  label : Object.labelOf d kind
    = if kind = .namespaceLike true then "anonymous namespace" else lastScope d.name
  /-- No other label says so. -/
  flag_of_label : Object.labelOf d kind = "anonymous namespace" → kind = .namespaceLike true

/-- The label of a class or namespace is its last scope, or says that it is anonymous. -/
theorem labelOf_eq (hkind : kind.collection = .classes ∨ kind.collection = .namespaces) :
    Object.labelOf d kind
      = if (lastScope d.name).toList.head? = some '@' then "anonymous namespace"
        else lastScope d.name := by
  have hlabel : ∀ scope : String, (if isAnonymous scope then "anonymous namespace" else scope)
      = if scope.toList.head? = some '@' then "anonymous namespace" else scope := fun scope =>
    if_congr isAnonymous_eq_true_iff rfl rfl
  cases kind with
  | classLike keyword => exact hlabel _
  | namespaceLike a => exact hlabel _
  | _ => simp [ObjectKind.collection] at hkind

/-- No scope with an at sign is called like that. -/
theorem head?_ne_of_eq {scope : String} (hscope : scope = "anonymous namespace") :
    scope.toList.head? ≠ some '@' := by
  rw [hscope]
  decide

/-- For a class there is no flag, so its label must never say that it is anonymous. -/
theorem agrees_classLike_iff {keyword : String} :
    Agrees d (.classLike keyword) ↔ (lastScope d.name).toList.head? ≠ some '@'
      ∧ lastScope d.name ≠ "anonymous namespace" := by
  have hlabel : Object.labelOf d (.classLike keyword) = _ := labelOf_eq (.inl rfl)
  constructor
  · rintro ⟨-, -, honly⟩
    rw [hlabel] at honly
    refine ⟨fun hmarked => ?_, fun hcalled => ?_⟩
    -- a class-like compound with the marker would be labelled a namespace
    · rw [if_pos hmarked] at honly
      cases honly rfl
    · rw [if_neg (head?_ne_of_eq hcalled)] at honly
      cases honly hcalled
  · rintro ⟨hunmarked, hcalled⟩
    rw [if_neg hunmarked] at hlabel
    exact ⟨iff_of_false nofun fun h => hunmarked h.2, hlabel,
      fun h => absurd (hlabel.symm.trans h) hcalled⟩

/-- For a namespace the flag has to tell the marker, and no name may read like the label of those
without. -/
theorem agrees_namespaceLike_iff :
    Agrees d (.namespaceLike a)
      ↔ (a = true ↔ (lastScope d.name).toList.head? = some '@')
        ∧ lastScope d.name ≠ "anonymous namespace" := by
  have hlabel : Object.labelOf d (.namespaceLike a) = _ := labelOf_eq (.inr rfl)
  have hflagged : ObjectKind.namespaceLike a = .namespaceLike true ↔ a = true := by simp
  have hcollection : (ObjectKind.namespaceLike a).collection = .namespaces := rfl
  constructor
  · rintro ⟨hflag, -, honly⟩
    rw [hflagged, iff_true_intro hcollection, true_and] at hflag
    -- An object so called has no marker, and is then labelled so only when flagged.
    refine ⟨hflag, fun hcalled => ?_⟩
    have hunmarked := head?_ne_of_eq hcalled
    rw [hlabel, if_neg hunmarked, hflagged] at honly
    exact hunmarked (hflag.mp (honly hcalled))
  · rintro ⟨hflag, hcalled⟩
    refine ⟨by rw [hflagged, iff_true_intro hcollection, true_and, hflag], ?_, fun h => ?_⟩
    · rw [hlabel]
      exact if_congr (by rw [hflagged, hflag]) rfl rfl
    · rw [hflagged, hflag]
      -- without a marker the label is the name itself, which `hcalled` rules out
      by_contra hunmarked
      rw [hlabel, if_neg hunmarked] at h
      exact hcalled h

/-- **The notions of an anonymous scope agree** for the objects of classes whose last scope has a
name, and of namespaces whose end is marked like their last scope, unless one is named in the words
of the label. -/
theorem agrees_iff (hkind : ObjectKind.ofCompound? d = some kind)
    (hscoped : kind.collection = .classes ∨ kind.collection = .namespaces) :
    Agrees d kind ↔ lastScope d.name ≠ "anonymous namespace"
      ∧ (kind.isClass = true → (lastScope d.name).toList.head? ≠ some '@')
      ∧ (kind.isClass = false → EndsAlike d.name) := by
  cases kind with
  | classLike keyword =>
    rw [agrees_classLike_iff, and_comm]
    simp [ObjectKind.isClass]
  | namespaceLike a =>
    -- the flag of a namespace is read off the end of its name
    have ha : a = hasAnonymousEnd d.name := by
      unfold ObjectKind.ofCompound? at hkind
      split at hkind <;> cases hkind
      rfl
    rw [agrees_namespaceLike_iff, ha, ← isAnonymous_eq_true_iff, hasAnonymousEnd_iff, and_comm]
    simp [ObjectKind.isClass]
  | _ => simp [ObjectKind.collection] at hscoped

/-- An anonymous namespace within another one. -/
def innerNamespace : CompoundDef where
  id := "namespaceouter_1_1@0"
  kind := "namespace"
  name := "outer::@0"

theorem agrees_iff_innerNamespace :
    ObjectKind.ofCompound? innerNamespace = some (.namespaceLike true)
      ∧ (ObjectKind.namespaceLike true).collection = .namespaces
      ∧ Agrees innerNamespace (.namespaceLike true) := by
  have hkind : ObjectKind.ofCompound? innerNamespace = some (.namespaceLike true) := by decide
  have hscoped : (ObjectKind.namespaceLike true).collection = .namespaces := rfl
  refine ⟨hkind, hscoped, (agrees_iff hkind (.inr hscoped)).mpr ⟨by decide, nofun, fun _ => ?_⟩⟩
  have hscope : (lastScope innerNamespace.name).toList = ['@', '0'] := by decide
  rw [EndsAlike, hscope]
  exact ⟨fun h => absurd h (by decide), fun _ _ => by decide⟩

/-- An anonymous union in a class. -/
def innerUnion : CompoundDef where
  id := "unionA_1_1@1"
  kind := "union"
  name := "A::@1"

/-- A namespace with an at sign in the template arguments of its name. -/
def argumentNamespace : CompoundDef where
  id := "namespacea_3_01b_1_1@c_01_4"
  kind := "namespace"
  name := "a<b::@c>"

/-- The union is labelled as a namespace, and the namespace flagged as anonymous and labelled by its
name. -/
theorem not_agrees_innerUnion :
    (ObjectKind.ofCompound? innerUnion = some (.classLike "union")
        ∧ Object.labelOf innerUnion (.classLike "union") = "anonymous namespace"
        ∧ ¬ Agrees innerUnion (.classLike "union"))
      ∧ ObjectKind.ofCompound? argumentNamespace = some (.namespaceLike true)
      ∧ Object.labelOf argumentNamespace (.namespaceLike true) = "a<b::@c>"
      ∧ ¬ Agrees argumentNamespace (.namespaceLike true) := by
  refine ⟨⟨by decide, by decide, fun h => ?_⟩, by decide, by decide, fun h => ?_⟩
  · exact absurd (h.flag_of_label (by decide)) (by decide)
  · exact absurd (h.flag.mp rfl).2 (by decide)

end Anonymity

end DocGraph
