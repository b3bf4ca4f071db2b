import DocGraph.Proofs.Consistency

namespace DocGraph

/-!
# The order in which relations are recorded

The parent of a class is the first of its bases that is open to it, so their order counts.  It is
that of recording:

* `Inheritance.find?_bases_add`, `Inheritance.bases_prefix` — what is recorded later stands later;
* `Arena.find?_bases_recordBases` — the bases that a class lists itself are recorded as they stand;
* `Arena.bases_inheritance_prefix` — what others say of it comes after them;
* `Arena.parent?_link_of_listed` — hence the parent is the first base listed that is open.
-/

/-! ### One relation more -/

/-- The first result with a property is that of a member before which there is none. -/
theorem find?_filterMap_append_cons {α β : Type} {f : α → Option β} {P : β → Bool} {x : α} {y : β}
    {before after : List α} (hx : f x = some y) (hy : P y = true)
    (hbefore : ∀ x' ∈ before, ∀ z, f x' = some z → P z = false) :
    ((before ++ x :: after).filterMap f).find? P = some y := by
  have hnone : (before.filterMap f).find? P = none := by
    rw [List.find?_eq_none]
    intro z hz
    obtain ⟨x', hx', hz⟩ := List.mem_filterMap.mp hz
    rw [hbefore x' hx' z hz]
    exact Bool.false_ne_true
  rw [List.filterMap_append, List.filterMap_cons_some hx, List.find?_append, hnone,
    List.find?_cons_of_pos hy, Option.none_or]

namespace Inheritance

variable {g g' : Inheritance} {base derived x : Nat}

/-- **Recording a relation** adds a base at the end, unless it is there. -/
theorem find?_bases_add (P : Nat → Bool) :
    ((g.add base derived).bases x).find? P
      = ((g.bases x).find? P).or
        (if derived = x ∧ base ≠ derived ∧ P base = true then some base else none) := by
  by_cases hknown : base = derived ∨ (base, derived) ∈ g.edges
  · rw [add, if_pos hknown]
    by_cases hnew : derived = x ∧ base ≠ derived ∧ P base = true
    · -- the base is there already, so the search ends before its end
      obtain ⟨rfl, hne, hP⟩ := hnew
      have hmem : base ∈ g.bases derived := mem_bases.mpr (hknown.resolve_left hne)
      have hsome : ((g.bases derived).find? P).isSome = true :=
        List.find?_isSome.mpr ⟨base, hmem, hP⟩
      obtain ⟨b, hb⟩ := Option.isSome_iff_exists.mp hsome
      rw [hb, Option.some_or]
    · rw [if_neg hnew, Option.or_none]
  · have hne : base ≠ derived := fun heq => hknown (Or.inl heq)
    rw [add, if_neg hknown]
    unfold bases
    rw [List.filter_append, List.map_append, List.find?_append]
    congr 1
    by_cases hx : derived = x
    · by_cases hP : P base = true <;> simp [hx, hP, hx ▸ hne]
    · simp [hx]

/-- A relation is recorded at the end, if at all. -/
theorem edges_prefix_add (g : Inheritance) (base derived : Nat) :
    g.edges <+: (g.add base derived).edges := by
  unfold add
  split
  · exact List.prefix_refl _
  · exact List.prefix_append _ _

/-- What is recorded later comes later among the bases. -/
theorem bases_prefix (hfirst : g.edges <+: g'.edges) (x : Nat) : g.bases x <+: g'.bases x :=
  (hfirst.filter _).map _

end Inheritance

namespace Arena

variable {a : Arena} {o : Object} {x y : Nat}

/-! ### The bases that a class lists -/

/-- The relations of a class and the bases that it lists are recorded first. -/
def recordBases (a : Arena) (claims : List Claim) (g : Inheritance × List LinkProblem) :
    Inheritance × List LinkProblem :=
  a.recordClaims (fun claimant x => (x, claimant)) claims g

/-- The base that a claim of `x` is about. -/
def ownBase? (a : Arena) (x : Nat) (c : Claim) : Option Nat :=
  if c.claimant = x then (a.resolve c).toOption.filter (· ≠ x) else none

/-- **Claims on bases** are recorded in order: the first base with a property is the first of those
claimed. -/
theorem find?_bases_recordBases (P : Nat → Bool) (claims : List Claim)
    (g : Inheritance × List LinkProblem) :
    ((a.recordBases claims g).1.bases x).find? P
      = ((g.1.bases x).find? P).or ((claims.filterMap (a.ownBase? x)).find? P) := by
  induction claims generalizing g with
  | nil => simp [recordBases, recordClaims]
  | cons c claims ih =>
    unfold recordBases at ih ⊢
    rw [recordClaims, List.foldl_cons]
    refine (ih _).trans ?_
    -- A claim of another class, of nothing or of the class itself adds no base to `x`.
    cases hx : a.resolve c with
    | error w =>
      have hnone : a.ownBase? x c = none := by simp [ownBase?, hx, Except.toOption]
      rw [List.filterMap_cons_none hnone]
    | ok y =>
      show (((g.1.add y c.claimant).bases x).find? P).or _ = _
      rw [Inheritance.find?_bases_add, Option.or_assoc]
      congr 1
      by_cases hown : c.claimant = x ∧ y ≠ c.claimant
      · obtain ⟨hclaimant, hne⟩ := hown
        have hsome : a.ownBase? x c = some y := by
          simp [ownBase?, hx, Except.toOption, hclaimant, hclaimant ▸ hne]
        rw [List.filterMap_cons_some hsome, List.find?_cons]
        by_cases hP : P y = true <;> simp [hclaimant, hclaimant ▸ hne, hP]
      · have hnone : a.ownBase? x c = none := by
          by_cases hclaimant : c.claimant = x
          · have heq : y = x := by
              by_contra hne
              exact hown ⟨hclaimant, fun h => hne (h.trans hclaimant)⟩
            simp [ownBase?, hx, Except.toOption, hclaimant, heq]
          · simp [ownBase?, hclaimant]
        rw [List.filterMap_cons_none hnone, if_neg fun h => hown ⟨h.1, h.2.1⟩, Option.none_or]

/-- The relations that classes list as derived come after all others. -/
theorem edges_recordClaims_prefix {edge : Nat → Nat → Nat × Nat} {claims : List Claim}
    {g : Inheritance × List LinkProblem} :
    g.1.edges <+: (a.recordClaims edge claims g).1.edges := by
  refine List.foldlRecOn
    (motive := fun (s : Inheritance × List LinkProblem) => g.1.edges <+: s.1.edges)
    claims _ (List.prefix_refl _) fun s hs c _ => ?_
  dsimp only
  split
  · exact hs.trans (Inheritance.edges_prefix_add _ _ _)
  · exact hs

/-- **The bases that a class lists** come before those that list the class. -/
theorem bases_inheritance_prefix (a : Arena) (x : Nat) :
    (a.recordBases (a.classClaims (·.baseIds)) ({}, [])).1.bases x <+: a.inheritance.1.bases x :=
  Inheritance.bases_prefix edges_recordClaims_prefix x

/-- What stands at one place only comes of the entry there. -/
theorem flatMap_zipIdx_single {α β : Type} {f : α × Nat → List β} {l : List α} {e : α} {i k : Nat}
    (he : l[i]? = some e) (hf : ∀ e' j, j ≠ k + i → f (e', j) = []) :
    (l.zipIdx k).flatMap f = f (e, k + i) := by
  induction l generalizing i k with
  | nil => simp at he
  | cons e' l ih =>
    rw [List.zipIdx_cons, List.flatMap_cons]
    -- The entry stands first, and the rest yields nothing; or the first yields nothing.
    cases i with
    | zero =>
      obtain rfl : e' = e := by simpa using he
      have hrest : (l.zipIdx (k + 1)).flatMap f = [] := by
        rw [List.flatMap_eq_nil_iff]
        rintro ⟨e'', j⟩ hj
        have hle := (List.mem_zipIdx hj).1
        apply hf
        omega
      rw [hrest, List.append_nil, Nat.add_zero]
    | succ i =>
      have hfirst : f (e', k) = [] := hf e' k (by omega)
      have hothers : ∀ e'' j, j ≠ k + 1 + i → f (e'', j) = [] := fun e'' j hj => hf e'' j (by omega)
      rw [hfirst, List.nil_append, ih (i := i) (by simpa using he) hothers]
      congr 2
      omega

/-- The bases that a class claims are those that it lists. -/
theorem filterMap_ownBase? (ho : a.objects[x]? = some o) (hclass : o.collection = .classes) :
    (a.classClaims (·.baseIds)).filterMap (a.ownBase? x)
      = o.baseIds.filterMap fun id => a.ownBase? x ⟨x, id⟩ := by
  have hkind : o.kind.isClass = true := (ObjectKind.isClass_iff o.kind).mpr hclass
  unfold classClaims claimsOf
  rw [List.filterMap_flatMap, flatMap_zipIdx_single ho]
  · dsimp only
    rw [Nat.zero_add, if_pos hkind, List.filterMap_map]
    rfl
  -- the claims of other objects are not about `x`
  · intro o' j hj
    have hne : j ≠ x := by omega
    rw [List.filterMap_map, List.filterMap_eq_nil_iff]
    intro id _
    exact if_neg hne

/-- **The parent of a class** is the first of the bases it lists that is open to it, if any is. -/
theorem parent?_link_of_listed (ha : a.IsWrapped) (ho : a.objects[x]? = some o)
    (hclass : o.collection = .classes)
    (hy : (o.baseIds.filterMap fun id => a.ownBase? x ⟨x, id⟩).find?
      (! a.inheritance.1.isAncestor x ·) = some y) :
    a.link.1.parent? x = some y := by
  have hx : x ∈ a.classes := mem_classes_iff.mpr (collectionOf?_eq_some_iff.mpr ⟨o, ho, hclass⟩)
  obtain ⟨others, hothers⟩ := a.bases_inheritance_prefix x
  have hown := a.find?_bases_recordBases (x := x) (! a.inheritance.1.isAncestor x ·)
    (a.classClaims (·.baseIds)) ({}, [])
  rw [filterMap_ownBase? ho hclass, hy] at hown
  rw [parent?_link_of_class ha hx, openBases, List.head?_filter, ← hothers, List.find?_append, hown]
  rfl

end Arena

end DocGraph
