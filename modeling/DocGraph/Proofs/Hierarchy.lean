import DocGraph.Graph.Hierarchy
import DocGraph.Proofs.Inheritance
import Mathlib.Data.List.Perm.Subperm
import Mathlib.Logic.Relation

namespace DocGraph.Hierarchy

/-!
# Hierarchies without cycles

A hierarchy is a list of links.  What follows is about any such list, however it came about.

* `IsParent` — the relation that the links are, the inverse of which has the children;
* `Acyclic`, `ParentsAcyclic` — no object is above itself, by any of its parents or by the first;
* `Lineage` — the walk from an object to the root above it, which need not end;
* `ParentsAcyclic.lineage` — in a hierarchy without cycles every walk ends, and `chain` is what it
  passes: as many steps as there are links are enough;
* `transGen_append` — what a further link adds to the relation "above".
-/

variable {h : Hierarchy} {p c x y : Nat} {ps : List Nat}

/-! ### Parents and children -/

/-- A link leads from `p` to `c`. -/
def IsParent (h : Hierarchy) (p c : Nat) : Prop := ⟨p, c⟩ ∈ h

@[simp] theorem not_isParent_nil : ¬ IsParent [] p c := List.not_mem_nil

/-- The children of an object are those of which it is a parent. -/
theorem mem_children : c ∈ h.children p ↔ h.IsParent p c := by
  simp only [children, List.mem_map, List.mem_filter, beq_iff_eq, IsParent]
  constructor
  · rintro ⟨l, ⟨hl, rfl⟩, rfl⟩
    exact hl
  · intro hl
    exact ⟨_, ⟨hl, rfl⟩, rfl⟩

/-- Where no link is made twice, no child is listed twice. -/
theorem nodup_children (hn : h.Nodup) (p : Nat) : (h.children p).Nodup := by
  refine nodup_map_filter hn (·.parent) (·.child) ?_ p
  rintro ⟨q, c⟩ ⟨q', c'⟩ rfl rfl
  rfl

theorem isParent_of_parent? (hp : h.parent? c = some p) : h.IsParent p c := by
  obtain ⟨l, hl, rfl⟩ := Option.map_eq_some_iff.mp hp
  have hc : l.child = c := by simpa using List.find?_some hl
  subst hc
  exact List.mem_of_find?_eq_some hl

/-- Where there is no first parent, there is none at all. -/
theorem parent?_eq_none_iff : h.parent? c = none ↔ ∀ p, ¬ h.IsParent p c := by
  simp only [parent?, Option.map_eq_none_iff, List.find?_eq_none, beq_iff_eq, IsParent]
  constructor
  · intro hnone p hl
    exact hnone _ hl rfl
  · rintro hnone l hl rfl
    exact hnone l.parent hl

/-- Links accepted later do not change a parent. -/
theorem parent?_append (h₁ h₂ : Hierarchy) (x : Nat) :
    parent? (h₁ ++ h₂) x = (h₁.parent? x).or (h₂.parent? x) := by
  simp only [parent?, List.find?_append]
  cases h₁.find? (·.child == x) <;> rfl

/-- **A parent stays the first one**, whatever links follow. -/
theorem parent?_append_of_eq_some {h₂ : Hierarchy} (hp : h.parent? c = some p) :
    parent? (h ++ h₂) c = some p := by
  rw [parent?_append, hp, Option.some_or]

/-- The first link on an object leads to its parent. -/
theorem parent?_append_singleton (hnone : h.parent? c = none) :
    parent? (h ++ [⟨p, c⟩]) c = some p := by
  rw [parent?_append, hnone, Option.none_or]
  simp [parent?]

/-- Where the links have been made child after child, the first of a child leads to its parent. -/
theorem parent?_flatMap (f : Nat → List Nat) (xs : List Nat) (x : Nat) :
    parent? (xs.flatMap fun y => (f y).map (⟨·, y⟩)) x
      = if x ∈ xs then (f x).head? else none := by
  induction xs with
  | nil => rfl
  | cons y xs ih =>
    rw [List.flatMap_cons, parent?_append, ih]
    by_cases hyx : y = x
    · subst hyx
      cases hf : f y <;> simp [parent?]
    · have hnone : parent? ((f y).map (⟨·, y⟩)) x = none := by simp [parent?, hyx]
      rw [hnone, Option.none_or]
      simp [Ne.symm hyx]

/-! ### Going up -/

/-- The objects above `x`, from its parent to the root. -/
inductive Lineage (h : Hierarchy) : Nat → List Nat → Prop
  | root {x : Nat} : h.parent? x = none → Lineage h x []
  | step {x p : Nat} {ps : List Nat} : h.parent? x = some p → Lineage h p ps → Lineage h x (p :: ps)

/-- No object is above itself. -/
def Acyclic (h : Hierarchy) : Prop := ∀ x, ¬ Relation.TransGen h.IsParent x x

theorem acyclic_nil : Acyclic [] := fun _ hxx => by
  obtain ⟨_, hlink, _⟩ := Relation.TransGen.head'_iff.mp hxx
  exact not_isParent_nil hlink

/-- No object is above itself, going from parent to parent.  Of the links on an object only the
first counts here. -/
def ParentsAcyclic (h : Hierarchy) : Prop :=
  ∀ x, ¬ Relation.TransGen (fun p c => h.parent? c = some p) x x

/-- Where no way leads back at all, none leads back by first parents. -/
theorem Acyclic.parentsAcyclic (ha : h.Acyclic) : h.ParentsAcyclic := fun x hxx =>
  ha x (Relation.TransGen.mono (fun _ _ hp => isParent_of_parent? hp) x x hxx)

/-- Every walk that ends does so at a root, from which links lead back. -/
theorem Lineage.exists_root (hl : h.Lineage x ps) :
    ∃ r, h.parent? r = none ∧ Relation.ReflTransGen h.IsParent r x := by
  induction hl with
  | @root x hroot => exact ⟨x, hroot, Relation.ReflTransGen.refl⟩
  | step hp _ ih =>
    obtain ⟨r, hroot, hr⟩ := ih
    exact ⟨r, hroot, hr.tail (isParent_of_parent? hp)⟩

/-- A chain that ends before its steps do has reached the root. -/
theorem lineage_of_length_lt {steps : Nat} (hlt : (h.chainFrom steps x).length < steps) :
    h.Lineage x (h.chainFrom steps x) := by
  induction steps generalizing x with
  | zero => simp at hlt
  | succ steps ih =>
    rw [chainFrom] at hlt ⊢
    cases hp : h.parent? x with
    | none => exact Lineage.root hp
    | some p =>
      rw [hp] at hlt
      exact Lineage.step hp (ih (by simpa using hlt))

/-- With steps enough, the chain is the whole walk. -/
theorem Lineage.chainFrom_eq (hl : h.Lineage x ps) {steps : Nat} (hle : ps.length ≤ steps) :
    h.chainFrom steps x = ps := by
  -- The steps are enough for the whole lineage, so the walk ends at the root by itself.
  induction hl generalizing steps with
  | root hp =>
    cases steps with
    | zero => rfl
    | succ steps => rw [chainFrom, hp]
  | step hp _ ih =>
    cases steps with
    | zero => simp at hle
    | succ steps =>
      rw [chainFrom, hp]
      simpa using ih (by simpa using hle)

/-- What a walk passes is above its start. -/
theorem transGen_parent?_of_mem_chainFrom {steps : Nat} (hy : y ∈ h.chainFrom steps x) :
    Relation.TransGen (fun p c => h.parent? c = some p) y x := by
  induction steps generalizing x with
  | zero => simp [chainFrom] at hy
  | succ steps ih =>
    rw [chainFrom] at hy
    cases hp : h.parent? x with
    | none => simp [hp] at hy
    | some p =>
      rw [hp] at hy
      rcases List.mem_cons.mp hy with rfl | hy
      · exact Relation.TransGen.single hp
      · exact (ih hy).tail hp

/-- Every object of a chain is above the one that it begins at. -/
theorem transGen_of_mem_chainFrom {steps : Nat} (hy : y ∈ h.chainFrom steps x) :
    Relation.TransGen h.IsParent y x :=
  Relation.TransGen.mono (fun _ _ hp => isParent_of_parent? hp) y x
    (transGen_parent?_of_mem_chainFrom hy)

/-- Whatever has a child is the parent in some link. -/
theorem mem_parents_of_transGen (hyx : Relation.TransGen h.IsParent y x) :
    y ∈ h.map (·.parent) := by
  obtain ⟨c, hyc, _⟩ := Relation.TransGen.head'_iff.mp hyx
  exact List.mem_map.mpr ⟨_, hyc, rfl⟩

namespace ParentsAcyclic

/-- A walk meets no object twice. -/
theorem nodup_chainFrom (ha : h.ParentsAcyclic) (steps x : Nat) :
    (x :: h.chainFrom steps x).Nodup := by
  induction steps generalizing x with
  | zero => simp [chainFrom]
  | succ steps ih =>
    have hx : x ∉ h.chainFrom (steps + 1) x :=
      fun hx => ha x (transGen_parent?_of_mem_chainFrom hx)
    refine List.nodup_cons.mpr ⟨hx, ?_⟩
    rw [chainFrom]
    cases h.parent? x with
    | none => exact List.nodup_nil
    | some p => exact ih p

/-- **Every walk ends**, after no more steps than there are links. -/
theorem lineage (ha : h.ParentsAcyclic) (x : Nat) :
    h.Lineage x (h.chain x) ∧ (h.chain x).length ≤ h.length := by
  -- with one step more than there are links, the walk has to end before its steps do
  have hsub : h.chainFrom (h.length + 1) x ⊆ h.map (·.parent) :=
    fun y hy => mem_parents_of_transGen (transGen_of_mem_chainFrom hy)
  have hlen : (h.chainFrom (h.length + 1) x).length ≤ h.length := by
    simpa using ((List.nodup_cons.mp (ha.nodup_chainFrom _ x)).2.subperm hsub).length_le
  have hl : h.Lineage x (h.chainFrom (h.length + 1) x) := lineage_of_length_lt (by omega)
  rw [chain, hl.chainFrom_eq hlen]
  exact ⟨hl, hlen⟩

end ParentsAcyclic

namespace Acyclic

/-- **The chain of parents is the whole way up.** -/
theorem lineage (ha : h.Acyclic) (x : Nat) : h.Lineage x (h.chain x) :=
  (ha.parentsAcyclic.lineage x).1

/-- Where all objects have places below `n`, a walk has at most `n` steps. -/
theorem length_chain_le (ha : h.Acyclic) {n : Nat} (hn : ∀ p c, h.IsParent p c → p < n) (x : Nat) :
    (h.chain x).length ≤ n := by
  have hsub : h.chain x ⊆ List.range n := by
    intro y hy
    obtain ⟨c, hyc, _⟩ := Relation.TransGen.head'_iff.mp (transGen_of_mem_chainFrom hy)
    exact List.mem_range.mpr (hn y c hyc)
  simpa [chain] using
    ((List.nodup_cons.mp (ha.parentsAcyclic.nodup_chainFrom _ x)).2.subperm hsub).length_le

end Acyclic

/-- Among objects that have one parent each (all those for which `P` holds), a walk passes
everything above its start. -/
theorem Lineage.mem_of_transGen {P : Nat → Prop} (hl : h.Lineage x ps) (hx : P x)
    (hP : ∀ p c, h.IsParent p c → P c → P p ∧ h.parent? c = some p)
    (hyx : Relation.TransGen h.IsParent y x) : y ∈ ps := by
  induction hl with
  | root hroot =>
    obtain ⟨p, _, hpx⟩ := Relation.TransGen.tail'_iff.mp hyx
    exact absurd hpx (parent?_eq_none_iff.mp hroot p)
  | step hp _ ih =>
    -- the last link on the way goes to the only parent, which is the next of the lineage
    obtain ⟨q, hyq, hqx⟩ := Relation.TransGen.tail'_iff.mp hyx
    obtain ⟨hq, hparent⟩ := hP q _ hqx hx
    rw [hp, Option.some.injEq] at hparent
    subst hparent
    rcases Relation.reflTransGen_iff_eq_or_transGen.mp hyq with rfl | hyq
    · exact List.mem_cons_self
    · exact List.mem_cons_of_mem _ (ih hq hyq)

/-! ### A further link -/

/-- One more link gives one object one more parent. -/
theorem isParent_append_singleton :
    IsParent (h ++ [⟨p, c⟩]) x y ↔ h.IsParent x y ∨ x = p ∧ y = c := by
  simp [IsParent]

/-- A way down that a further link opens uses it, so it passes `p` and then `c`. -/
theorem transGen_append (hxy : Relation.TransGen (IsParent (h ++ [⟨p, c⟩])) x y) :
    Relation.TransGen h.IsParent x y
      ∨ Relation.ReflTransGen h.IsParent x p ∧ Relation.ReflTransGen h.IsParent c y := by
  -- A way takes the new link at most once in effect: before it to `p`, and behind it from `c`.
  induction hxy with
  | single hlink =>
    rcases isParent_append_singleton.mp hlink with hlink | ⟨rfl, rfl⟩
    · exact Or.inl (Relation.TransGen.single hlink)
    · exact Or.inr ⟨Relation.ReflTransGen.refl, Relation.ReflTransGen.refl⟩
  | tail _ hlink ih =>
    rcases isParent_append_singleton.mp hlink with hlink | ⟨rfl, rfl⟩
    · rcases ih with hxy | ⟨hxp, hcy⟩
      · exact Or.inl (hxy.tail hlink)
      · exact Or.inr ⟨hxp, hcy.tail hlink⟩
    · rcases ih with hxy | ⟨hxp, _⟩
      · exact Or.inr ⟨hxy.to_reflTransGen, Relation.ReflTransGen.refl⟩
      · exact Or.inr ⟨hxp, Relation.ReflTransGen.refl⟩

end DocGraph.Hierarchy
