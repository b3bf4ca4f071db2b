import DocGraph.Proofs.PermalinkOrder

namespace DocGraph

/-!
# Permalinks beneath others

The permalink of an object that nests begins with that of its parent, which may nest as well.  What
is to be shown of permalinks is shown along the parents:

* `Arena.nesting_induction` — what an object inherits from the parent beneath which it nests, all
  objects have;
* `Arena.permalink_cases` — a permalink is the one wanted, or a number stands behind that;
* `Arena.permalink_induction` — what permalinks at the top have, what is passed on to permalinks
  beneath, and what numbers do not take away, all permalinks have.
-/

namespace Arena

variable {a : Arena} {h : Hierarchy} {x p : Nat} {o : Object}

/-- **What is inherited from the parent** beneath which an object nests, all objects have. -/
theorem nesting_induction (hs : a.Sound h) {P : Nat → Prop}
    (step : ∀ x, (∀ p, a.nestingParent? h x = some p → P p) → P x) (x : Nat) : P x := by
  -- by induction on the depth, which is less for the parent
  induction hdepth : a.depth h x using Nat.strongRecOn generalizing x with
  | ind depth ih =>
    apply step
    intro p hp
    have hless := depth_lt_of_nestingParent? hs hp
    exact ih (a.depth h p) (hdepth ▸ hless) p rfl

/-- The permalink wanted, in terms of the links. -/
theorem wanted_eq (ho : a.objects[x]? = some o) :
    a.toGraph.1.wanted x = (a.nestingParent? a.link.1 x).elim o.skeleton fun p =>
      s!"{a.toGraph.1.permalink p}/{o.segment}" := by
  have ho : a.toGraph.1.objects[x]? = some o := ho
  have hparent : a.toGraph.1.nestingParent? a.toGraph.1.hierarchy x
      = a.nestingParent? a.link.1 x := rfl
  rw [Graph.wanted, ho, hparent]
  cases a.nestingParent? a.link.1 x <;> rfl

/-- A permalink is the one wanted, or a number stands behind that. -/
theorem permalink_cases (hs : a.Sound a.link.1) (hx : x < a.objects.length) :
    a.toGraph.1.permalink x = a.toGraph.1.wanted x
      ∨ ∃ n, a.toGraph.1.permalink x = numbered (a.toGraph.1.wanted x) n := by
  by_cases hfree : a.toGraph.1.FreeFor x (a.toGraph.1.wanted x)
  · left
    exact permalink_eq_wanted hs hx hfree
  · right
    obtain ⟨n, -, heq, -⟩ := permalink_eq_numbered hs hx hfree
    exact ⟨n, heq⟩

/-- There are no permalinks but those of objects. -/
theorem permalink_eq_empty (hx : a.objects.length ≤ x) : a.toGraph.1.permalink x = "" := by
  have hnone : a.toGraph.1.permalinks.find? (·.2 == x) = none := by
    rw [List.find?_eq_none]
    intro e he
    have hplace : e.2 ∈ a.toGraph.1.permalinks.map (·.2) := List.mem_map_of_mem he
    rw [places_permalinks, mem_servingOrder] at hplace
    simp only [beq_iff_eq]
    omega
  rw [Graph.permalink, Permalinks.of?, hnone]
  rfl

/-- **What permalinks have in common**, and the permalinks wanted: what those at the top have, what
those beneath inherit, and what is not lost to numbers. -/
theorem permalink_induction (hs : a.Sound a.link.1) {P : Nat → String → Prop}
    (top : ∀ x o, a.objects[x]? = some o → P x o.skeleton)
    (beneath : ∀ x o p s, a.objects[x]? = some o → a.nestingParent? a.link.1 x = some p → P p s →
      P x s!"{s}/{o.segment}")
    (renamed : ∀ x s n, P x s → P x (numbered s n)) (hx : x < a.objects.length) :
    P x (a.toGraph.1.wanted x) ∧ P x (a.toGraph.1.permalink x) := by
  induction x using nesting_induction hs with
  | step x ih =>
    obtain ⟨o, ho⟩ : ∃ o, a.objects[x]? = some o := ⟨_, List.getElem?_eq_getElem hx⟩
    -- What is wanted comes from the permalink above, and what is assigned from what is wanted.
    have hwanted : P x (a.toGraph.1.wanted x) := by
      rw [wanted_eq ho]
      cases hp : a.nestingParent? a.link.1 x with
      | none => exact top x o ho
      | some p => exact beneath x o p _ ho hp (ih p hp (lt_of_nestingParent? hs hp)).2
    refine ⟨hwanted, ?_⟩
    rcases permalink_cases hs hx with heq | ⟨n, heq⟩
    · rw [heq]
      exact hwanted
    · rw [heq]
      exact renamed x _ n hwanted

end Arena

end DocGraph
