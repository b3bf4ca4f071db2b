import DocGraph.Graph.Hierarchy
import DocGraph.Proofs.Identity
import Mathlib.Data.Set.Basic
import Mathlib.Logic.Relation

namespace DocGraph

/-!
# Objects in no order

Objects are linked by their places, but what they say of each other names ids.  The following speaks
of ids alone, so it is the same in whichever order the compounds come:

* `Object.unplaced`, `Roster`, `Arena.roster` — the objects of a document, apart from their places;
* `Roster.Claims`, `Roster.Derives` — which object claims which as a child, and which class derives
  from which, as far as the claims lead somewhere;
* `Roster.Address` — the permalink that an object should have, given its claimants;
* `Roster.IsForest`, `Roster.Undisputed` — claims of which no two are in conflict;
* `Arena.claims_iff`, `Arena.derives_iff` — the same relations by places;
* `Arena.refusal?`, `Arena.filterMap_claimsOf` — the warnings about claims that lead nowhere.
-/

/-! ### Rosters -/

/-- An object, apart from the place of its compound. -/
def Object.unplaced (o : Object) : Object := { o with compound := 0 }

/-- Objects without places, in no order. -/
abbrev Roster := Set Object

namespace Roster

variable {r : Roster}

/-- The object with the id `p` claims the one with the id `x` as its child. -/
def Claims (r : Roster) (p x : String) : Prop :=
  ∃ o ∈ r, o.id = p ∧ x ∈ o.childIds ∧ ∃ o' ∈ r, o'.id = x ∧ o'.collection = o.collection

/-- A class derives from another, as one of the two says. -/
def Derives (r : Roster) (derived base : String) : Prop :=
  base ≠ derived ∧ ∃ d ∈ r, ∃ b ∈ r, d.id = derived ∧ b.id = base
    ∧ d.collection = .classes ∧ b.collection = .classes
    ∧ (base ∈ d.baseIds ∨ derived ∈ b.derivedIds)

/-- The permalink that the object with an id should have.  That of an object which nests lies
beneath the one of an object that claims it. -/
inductive Address (r : Roster) : String → String → Prop
  | top {o : Object} : o ∈ r → (o.kind.nests = true → ∀ p, ¬ r.Claims p o.id) →
      Address r o.id o.skeleton
  | beneath {o : Object} {p above : String} : o ∈ r → o.kind.nests = true → r.Claims p o.id →
      Address r p above → Address r o.id s!"{above}/{o.segment}"

/-- No object is claimed by two others, or by itself through others. -/
structure IsForest (r : Roster) : Prop where
  claimant_unique : ∀ {p q x}, r.Claims p x → r.Claims q x → p = q
  acyclic : ∀ x, ¬ Relation.TransGen r.Claims x x

/-- Nothing that objects say of each other is in conflict. -/
structure Undisputed (r : Roster) : Prop extends IsForest r where
  acyclic_derives : ∀ x, ¬ Relation.TransGen r.Derives x x
  address_injective : ∀ {x y s}, r.Address x s → r.Address y s → x = y

end Roster

namespace Arena

variable {a : Arena} {o : Object} {x y : Nat} {id : String}

/-- The objects of a document without their places. -/
def roster (a : Arena) : Roster := {o | o ∈ a.objects.map Object.unplaced}

/-- The roster forgets the places of objects. -/
theorem mem_roster_iff :
    o ∈ a.roster ↔ ∃ (x : Nat) (o' : Object), a.objects[x]? = some o' ∧ o'.unplaced = o := by
  rw [roster, Set.mem_ofPred_eq, List.mem_map]
  simp only [List.mem_iff_getElem?]
  constructor
  · rintro ⟨o', ⟨x, hx⟩, rfl⟩
    exact ⟨x, o', hx, rfl⟩
  · rintro ⟨x, o', hx, rfl⟩
    exact ⟨o', ⟨x, hx⟩, rfl⟩

theorem unplaced_mem_roster (ho : a.objects[x]? = some o) : o.unplaced ∈ a.roster :=
  mem_roster_iff.mpr ⟨x, o, ho, rfl⟩

/-! ### Ids and places -/

theorem idOf_eq (ho : a.objects[x]? = some o) : a.idOf x = o.id := by
  rw [idOf, ho, Option.map_some, Option.getD_some]

/-- The look-up of the id of an object yields the object. -/
theorem lookup?_idOf (hn : (a.objects.map (·.id)).Nodup) (hx : x < a.objects.length) :
    a.lookup? (a.idOf x) = some x :=
  (lookup?_eq_some_iff hn).mpr ⟨_, List.getElem?_eq_getElem hx, (idOf_eq (by simp)).symm⟩

/-- No two objects have the same id. -/
theorem idOf_injective (hn : (a.objects.map (·.id)).Nodup) (hx : x < a.objects.length)
    (hy : y < a.objects.length) (hid : a.idOf x = a.idOf y) : x = y := by
  have hxy := lookup?_idOf hn hx
  rw [hid, lookup?_idOf hn hy] at hxy
  exact (Option.some.inj hxy).symm

/-- What the look-up of an id yields has the id. -/
theorem idOf_of_lookup? (hn : (a.objects.map (·.id)).Nodup) (hx : a.lookup? id = some x) :
    id = a.idOf x := by
  obtain ⟨o, ho, rfl⟩ := (lookup?_eq_some_iff hn).mp hx
  exact (idOf_eq ho).symm

/-- The place of the object with an id. -/
def placeOf (a : Arena) (id : String) : Nat := (a.lookup? id).getD 0

/-- The place of an object can be told from its id. -/
theorem placeOf_idOf (hn : (a.objects.map (·.id)).Nodup) (hx : x < a.objects.length) :
    a.placeOf (a.idOf x) = x := by
  rw [placeOf, lookup?_idOf hn hx, Option.getD_some]

/-! ### Claims that lead somewhere -/

theorem claimant_lt {c : Claim} (hc : c ∈ a.claims) : c.claimant < a.objects.length := by
  obtain ⟨o, ho, -⟩ := mem_claimsOf_iff.mp hc
  exact (List.getElem?_eq_some_iff.mp ho).1

theorem lt_of_resolve {c : Claim} (hx : a.resolve c = .ok x) : x < a.objects.length := by
  unfold resolve at hx
  split at hx
  · simp at hx
  · rename_i y hy
    have hlt := lookup?_lt hy
    split at hx
    · split at hx
      · exact Except.ok.inj hx ▸ hlt
      · simp at hx
    · exact Except.ok.inj hx ▸ hlt

section

variable {c : Claim} {k : Collection} (hn : (a.objects.map (·.id)).Nodup)
include hn

/-- **A claim leads to the object** that has the id, if it is in the collection of the claimant. -/
theorem resolve_eq_ok_iff (ho : a.objects[c.claimant]? = some o) :
    a.resolve c = .ok x
      ↔ ∃ o', a.objects[x]? = some o' ∧ o'.id = c.target ∧ o'.collection = o.collection := by
  unfold resolve
  cases hl : a.lookup? c.target with
  | none =>
    refine iff_of_false (by simp) ?_
    rintro ⟨o', ho', hid, -⟩
    exact lookup?_eq_none_iff.mp hl o' (List.mem_of_getElem? ho') hid
  | some y =>
    obtain ⟨o', ho', hid⟩ := (lookup?_eq_some_iff hn).mp hl
    dsimp only
    rw [collectionOf?_eq_some_iff.mpr ⟨o, ho, rfl⟩, collectionOf?_eq_some_iff.mpr ⟨o', ho', rfl⟩]
    dsimp only
    constructor
    · intro hx
      split at hx
      · rename_i hk
        obtain rfl := Except.ok.inj hx
        exact ⟨o', ho', hid, hk⟩
      · simp at hx
    -- ids are distinct, so the object found is the one meant
    · rintro ⟨o'', ho'', hid', hk⟩
      have hxl : a.lookup? c.target = some x := (lookup?_eq_some_iff hn).mpr ⟨o'', ho'', hid'⟩
      obtain rfl : y = x := Option.some.inj (hl.symm.trans hxl)
      obtain rfl : o' = o'' := Option.some.inj (ho'.symm.trans ho'')
      rw [if_pos hk]

/-- **Claims by places.** -/
theorem claims_iff {p x : String} :
    a.roster.Claims p x
      ↔ ∃ c ∈ a.claims, ∃ y, a.resolve c = .ok y ∧ a.idOf c.claimant = p ∧ a.idOf y = x := by
  constructor
  -- objects of the roster stand at places, and claims are made between these
  · rintro ⟨o, ho, rfl, hx, o', ho', rfl, hk⟩
    obtain ⟨i, o, hi, rfl⟩ := mem_roster_iff.mp ho
    obtain ⟨j, o', hj, rfl⟩ := mem_roster_iff.mp ho'
    refine ⟨⟨i, o'.id⟩, mem_claimsOf_iff.mpr ⟨o, hi, hx⟩, j, ?_, (idOf_eq hi).trans rfl,
      (idOf_eq hj).trans rfl⟩
    exact (resolve_eq_ok_iff (o := o) hn hi).mpr ⟨o', hj, rfl, hk⟩
  · rintro ⟨c, hc, y, hy, rfl, rfl⟩
    obtain ⟨o, ho, htarget⟩ := mem_claimsOf_iff.mp hc
    obtain ⟨o', ho', hid, hk⟩ := (resolve_eq_ok_iff hn ho).mp hy
    refine ⟨_, unplaced_mem_roster ho, (idOf_eq ho).symm, ?_, _, unplaced_mem_roster ho',
      (idOf_eq ho').symm, hk⟩
    rw [idOf_eq ho', hid]
    exact htarget

/-- A relation between classes that one end lists, by places. -/
theorem exists_mem_classClaims_iff {ids : Object → List String} {x y : Nat} :
    (∃ c ∈ a.classClaims ids, c.claimant = x ∧ a.resolve c = .ok y)
      ↔ ∃ o o', a.objects[x]? = some o ∧ a.objects[y]? = some o' ∧ o.collection = .classes
        ∧ o'.collection = .classes ∧ o'.id ∈ ids o := by
  constructor
  · rintro ⟨c, hc, rfl, hy⟩
    obtain ⟨o, ho, hclass, htarget⟩ := mem_classClaims_iff.mp hc
    obtain ⟨o', ho', hid, hk⟩ := (resolve_eq_ok_iff hn ho).mp hy
    exact ⟨o, o', ho, ho', hclass, hk.trans hclass, hid ▸ htarget⟩
  · rintro ⟨o, o', ho, ho', hclass, hclass', htarget⟩
    refine ⟨⟨x, o'.id⟩, mem_classClaims_iff.mpr ⟨o, ho, hclass, htarget⟩, rfl, ?_⟩
    exact (resolve_eq_ok_iff hn ho).mpr ⟨o', ho', rfl, hclass'.trans hclass.symm⟩

/-- **Relations between classes by places.** -/
theorem derives_iff {d b : String} :
    a.roster.Derives d b
      ↔ ∃ x y, (y, x) ∈ a.inheritance.1.edges ∧ a.idOf x = d ∧ a.idOf y = b := by
  simp only [mem_edges_inheritance_iff, exists_mem_classClaims_iff hn]
  constructor
  · rintro ⟨hne, od, hd, ob, hb, rfl, rfl, hdclass, hbclass, hlisted⟩
    obtain ⟨x, od, hx, rfl⟩ := mem_roster_iff.mp hd
    obtain ⟨y, ob, hy, rfl⟩ := mem_roster_iff.mp hb
    refine ⟨x, y, ⟨?_, ?_⟩, (idOf_eq hx).trans rfl, (idOf_eq hy).trans rfl⟩
    · rintro rfl
      obtain rfl := Option.some.inj (hx.symm.trans hy)
      exact hne rfl
    -- either end may list the other
    · rcases hlisted with hlisted | hlisted
      · exact Or.inl ⟨od, ob, hx, hy, hdclass, hbclass, hlisted⟩
      · exact Or.inr ⟨ob, od, hy, hx, hbclass, hdclass, hlisted⟩
  · rintro ⟨x, y, ⟨hne, hlisted⟩, rfl, rfl⟩
    have hclasses : ∃ od ob, a.objects[x]? = some od ∧ a.objects[y]? = some ob
        ∧ od.collection = .classes ∧ ob.collection = .classes
        ∧ (ob.id ∈ od.baseIds ∨ od.id ∈ ob.derivedIds) := by
      rcases hlisted with ⟨od, ob, hx, hy, hd, hb, hlisted⟩ | ⟨ob, od, hy, hx, hb, hd, hlisted⟩
      · exact ⟨od, ob, hx, hy, hd, hb, Or.inl hlisted⟩
      · exact ⟨od, ob, hx, hy, hd, hb, Or.inr hlisted⟩
    obtain ⟨od, ob, hx, hy, hd, hb, hlisted⟩ := hclasses
    rw [idOf_eq hx, idOf_eq hy]
    refine ⟨fun hid => hne ?_, _, unplaced_mem_roster hx, _, unplaced_mem_roster hy, rfl, rfl,
      hd, hb, hlisted⟩
    have hplaces := (lookup?_eq_some_iff hn).mpr ⟨_, hy, hid⟩
    rw [(lookup?_eq_some_iff hn).mpr ⟨_, hx, rfl⟩] at hplaces
    exact (Option.some.inj hplaces).symm

end

/-! ### Claims that lead nowhere -/

/-- The collection of the object with an id. -/
def homeOf? (a : Arena) (id : String) : Option Collection := (a.lookup? id).bind a.collectionOf?

/-- The warning that what an object says of an id leads nowhere. -/
def refusal? (a : Arena) (o : Object) (target : String) : Option LinkProblem :=
  match a.homeOf? target with
  | none => some (.unresolvedReference (some o.id) target .compound)
  | some k =>
    if k = o.collection then none else some (.crossCollectionChild o.id target o.collection k)

/-- The collection of an id is that of the object in the roster that has it. -/
theorem homeOf?_eq_some_iff (hn : (a.objects.map (·.id)).Nodup) {k : Collection} :
    a.homeOf? id = some k ↔ ∃ o ∈ a.roster, o.id = id ∧ o.collection = k := by
  simp only [homeOf?, Option.bind_eq_some_iff, lookup?_eq_some_iff hn, collectionOf?_eq_some_iff]
  constructor
  · rintro ⟨x, ⟨o, ho, hid⟩, o', ho', hk⟩
    obtain rfl := Option.some.inj (ho.symm.trans ho')
    exact ⟨_, unplaced_mem_roster ho, hid, hk⟩
  · rintro ⟨_, hr, hid, hk⟩
    obtain ⟨x, o, ho, rfl⟩ := mem_roster_iff.mp hr
    exact ⟨x, ⟨o, ho, hid⟩, o, ho, hk⟩

section

variable {a' : Arena} (hn : (a.objects.map (·.id)).Nodup) (hn' : (a'.objects.map (·.id)).Nodup)
include hn hn'

/-- So the roster tells it. -/
theorem homeOf?_eq_of_roster_eq (hr : a.roster = a'.roster) : a.homeOf? = a'.homeOf? := by
  funext id
  refine Option.ext fun k => ?_
  rw [homeOf?_eq_some_iff hn, homeOf?_eq_some_iff hn', hr]

/-- Whether a claim leads somewhere does not depend on the order of objects. -/
theorem refusal?_eq_of_roster_eq (hr : a.roster = a'.roster) : a.refusal? = a'.refusal? := by
  funext o target
  rw [refusal?, refusal?, homeOf?_eq_of_roster_eq hn hn' hr]

end

end Arena

/-- The problem that there is instead of a result. -/
def problem? {ε α : Type} : Except ε α → Option ε
  | .error w => some w
  | .ok _ => none

section

variable {ε α : Type} {w : ε} {x : α} {rest : List (Except ε α)}

@[simp] theorem filterMap_problem?_error_cons :
    (.error w :: rest).filterMap problem? = w :: rest.filterMap problem? := rfl

@[simp] theorem filterMap_problem?_ok_cons :
    (.ok x :: rest).filterMap problem? = rest.filterMap problem? := rfl

/-- Failures alone are all problems. -/
theorem filterMap_problem?_map_error (ws : List ε) :
    (ws.map (.error : ε → Except ε α)).filterMap problem? = ws := by
  induction ws with
  | nil => rfl
  | cons w ws ih => rw [List.map_cons, filterMap_problem?_error_cons, ih]

/-- There are as many results and problems as there are outcomes. -/
theorem length_toOption_add_length_problem? (outcomes : List (Except ε α)) :
    (outcomes.filterMap Except.toOption).length + (outcomes.filterMap problem?).length
      = outcomes.length := by
  induction outcomes with
  | nil => rfl
  | cons outcome outcomes ih =>
    cases outcome with
    | error w =>
      have hresults : (.error w :: outcomes).filterMap Except.toOption
          = outcomes.filterMap Except.toOption := rfl
      rw [hresults, filterMap_problem?_error_cons, List.length_cons, List.length_cons, ← ih]
      rfl
    | ok x =>
      have hresults : (.ok x :: outcomes).filterMap Except.toOption
          = x :: outcomes.filterMap Except.toOption := rfl
      rw [hresults, filterMap_problem?_ok_cons, List.length_cons, List.length_cons, ← ih]
      omega

end

namespace Arena

variable {a : Arena} {o : Object}

/-- Why a claim leads nowhere is told by the claimant and the id that it names. -/
theorem problem?_resolve {c : Claim} (ho : a.objects[c.claimant]? = some o) :
    problem? (a.resolve c) = a.refusal? o c.target := by
  unfold resolve refusal? homeOf?
  cases hl : a.lookup? c.target with
  | none => simp [problem?, idOf_eq ho]
  | some x =>
    obtain ⟨k, hk⟩ := exists_collectionOf? (lookup?_lt hl)
    dsimp only
    rw [Option.bind_some, collectionOf?_eq_some_iff.mpr ⟨o, ho, rfl⟩, hk, idOf_eq ho]
    dsimp only
    split <;> rfl

end Arena

/-- The places of a list's entries, which are of no use. -/
theorem flatMap_zipIdx_fst {α β : Type} (l : List α) (f : α → List β) :
    (l.zipIdx.flatMap fun e => f e.1) = l.flatMap f := by
  conv_rhs => rw [← List.zipIdx_map_fst 0 l, List.flatMap_map]

namespace Arena

/-- **The claims that lead nowhere**, object after object. -/
theorem filterMap_claimsOf (a : Arena) (ids : Object → List String) :
    (a.claimsOf ids).filterMap (fun c => problem? (a.resolve c))
      = a.objects.flatMap fun o => (ids o).filterMap (a.refusal? o) := by
  rw [← flatMap_zipIdx_fst, claimsOf, List.filterMap_flatMap]
  refine List.flatMap_congr fun e he => ?_
  rw [List.filterMap_map]
  exact List.filterMap_congr fun id _ => problem?_resolve (mem_zipIdx_objects.mp he)

end Arena

end DocGraph
