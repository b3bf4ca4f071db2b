import DocGraph.Graph.Hierarchy
import DocGraph.Proofs.Inheritance

namespace DocGraph

/-!
# What objects claim

* `Object.IsWrapped`, `Arena.IsWrapped` — objects as they are made of compounds; those of a document
  are (`Arena.ofDocument_isWrapped`).  Classes among them claim no children;
* `Arena.collectionOf?_of_resolve` — a claim leads to an object in the collection of its claimant;
* `Arena.mem_edges_inheritance_iff` — which relations between classes are recorded, from whichever
  end they are listed.
-/

/-! ### Objects made of compounds -/

/-- An object that has been made of a compound. -/
def Object.IsWrapped (o : Object) : Prop :=
  ∃ p d kind place, o = Object.ofCompound p d kind place

/-- Classes list no compounds as nested in them. -/
theorem Object.IsWrapped.childIds_eq_nil {o : Object} (ho : o.IsWrapped)
    (hc : o.collection = .classes) : o.childIds = [] := by
  obtain ⟨p, d, kind, place, rfl⟩ := ho
  cases kind <;> simp_all [Object.ofCompound, Object.collection, ObjectKind.collection,
    Object.childKinds]

/-- Classes are the objects of one collection. -/
theorem ObjectKind.isClass_iff (k : ObjectKind) : k.isClass = true ↔ k.collection = .classes := by
  cases k <;> simp [isClass, collection]

/-- What is identified is made of a compound, in the style given. -/
theorem exists_of_mem_identify {p : PermalinkStyle} {place : Nat} {taken : List String}
    {nodes : List Node} {o : Object} (ho : .ok o ∈ identify p place taken nodes) :
    ∃ d kind place, o = Object.ofCompound p d kind place := by
  induction nodes generalizing place taken with
  | nil => simp [identify] at ho
  | cons n nodes ih =>
    -- Three tests pass a node over; what remains heads the list of outcomes.
    rw [identify] at ho
    split at ho
    · exact ih ho
    · rename_i d _
      split at ho
      · exact ih (by simpa using ho)
      · rename_i kind _
        split at ho
        · exact ih (by simpa using ho)
        · rcases List.mem_cons.mp ho with ho | ho
          · exact ⟨d, kind, place, Except.ok.inj ho⟩
          · exact ih ho

namespace Arena

variable {a : Arena} {x y : Nat} {k : Collection}

/-- An arena of objects that have been made of compounds. -/
def IsWrapped (a : Arena) : Prop := ∀ o ∈ a.objects, o.IsWrapped

/-- Every object stands for a compound. -/
theorem exists_of_mem_objects {p : PermalinkStyle} {d : Document} {o : Object}
    (ho : o ∈ (ofDocument p d).1.objects) :
    ∃ c kind place, o = Object.ofCompound p c kind place := by
  obtain ⟨e, he, heo⟩ := List.mem_filterMap.mp ho
  cases e with
  | error w => simp [Except.toOption] at heo
  | ok o' =>
    obtain rfl : o' = o := by simpa [Except.toOption] using heo
    exact exists_of_mem_identify he

/-- The objects of a document are made of its compounds. -/
theorem ofDocument_isWrapped (p : PermalinkStyle) (d : Document) :
    (ofDocument p d).1.IsWrapped :=
  fun _ ho => ⟨p, exists_of_mem_objects ho⟩

/-! ### Places and collections -/

/-- Objects, and nothing else, have a collection. -/
theorem collectionOf?_eq_some_iff :
    a.collectionOf? x = some k ↔ ∃ o, a.objects[x]? = some o ∧ o.collection = k := by
  simp [collectionOf?]

/-- What has a collection is a place of an object. -/
theorem lt_of_collectionOf? (hx : a.collectionOf? x = some k) : x < a.objects.length := by
  obtain ⟨o, ho, _⟩ := collectionOf?_eq_some_iff.mp hx
  exact (List.getElem?_eq_some_iff.mp ho).1

theorem exists_collectionOf? (hx : x < a.objects.length) : ∃ k, a.collectionOf? x = some k :=
  ⟨_, collectionOf?_eq_some_iff.mpr ⟨_, List.getElem?_eq_getElem hx, rfl⟩⟩

/-- What has been looked up is a place of an object. -/
theorem lookup?_lt {id : String} (hx : a.lookup? id = some x) : x < a.objects.length := by
  obtain ⟨hlt, _⟩ := List.findIdx?_eq_some_iff_getElem.mp hx
  exact hlt

/-- Objects are paired with their places. -/
theorem mem_zipIdx_objects {o : Object} :
    (o, x) ∈ a.objects.zipIdx ↔ a.objects[x]? = some o := by
  simp [List.mem_zipIdx_iff_getElem?]

theorem mem_places_iff {P : Object → Bool} :
    x ∈ (a.objects.zipIdx.filter (P ·.1)).map (·.2) ↔ ∃ o, a.objects[x]? = some o ∧ P o := by
  rw [List.mem_map]
  constructor
  · rintro ⟨⟨o, i⟩, ho, rfl⟩
    obtain ⟨ho, hP⟩ := List.mem_filter.mp ho
    exact ⟨o, mem_zipIdx_objects.mp ho, hP⟩
  · rintro ⟨o, ho, hP⟩
    exact ⟨(o, x), List.mem_filter.mpr ⟨mem_zipIdx_objects.mpr ho, hP⟩, rfl⟩

/-- The places of some objects are in document order. -/
theorem pairwise_places (a : Arena) (P : Object → Bool) :
    ((a.objects.zipIdx.filter (P ·.1)).map (·.2)).Pairwise (· < ·) := by
  have hsub : ((a.objects.zipIdx.filter (P ·.1)).map (·.2)).Sublist
      (List.range a.objects.length) := by
    simpa [List.range_eq_range'] using
      (List.filter_sublist (p := (P ·.1)) (l := a.objects.zipIdx)).map Prod.snd
  exact List.pairwise_lt_range.sublist hsub

/-- The places of classes. -/
theorem mem_classes_iff : x ∈ a.classes ↔ a.collectionOf? x = some .classes := by
  rw [classes, mem_places_iff (P := fun o => o.kind.isClass), collectionOf?_eq_some_iff]
  exact exists_congr fun o => and_congr_right fun _ => ObjectKind.isClass_iff o.kind

/-- No class is listed twice. -/
theorem nodup_classes (a : Arena) : a.classes.Nodup :=
  (a.pairwise_places fun o => o.kind.isClass).imp Nat.ne_of_lt

/-! ### Claims -/

/-- Claims are made by objects, of the ids that they give. -/
theorem mem_claimsOf_iff {ids : Object → List String} {c : Claim} :
    c ∈ a.claimsOf ids ↔ ∃ o, a.objects[c.claimant]? = some o ∧ c.target ∈ ids o := by
  rw [claimsOf, List.mem_flatMap]
  constructor
  · rintro ⟨⟨o, i⟩, ho, hc⟩
    obtain ⟨id, hid, rfl⟩ := List.mem_map.mp hc
    exact ⟨o, mem_zipIdx_objects.mp ho, hid⟩
  · rintro ⟨o, ho, hid⟩
    exact ⟨(o, c.claimant), mem_zipIdx_objects.mpr ho, List.mem_map.mpr ⟨c.target, hid, rfl⟩⟩

/-- No class claims a child. -/
theorem IsWrapped.claimant_of_mem_claims (ha : a.IsWrapped) {c : Claim} (hc : c ∈ a.claims) :
    ∃ k, a.collectionOf? c.claimant = some k ∧ k ≠ .classes := by
  obtain ⟨o, ho, hid⟩ := mem_claimsOf_iff.mp hc
  refine ⟨o.collection, collectionOf?_eq_some_iff.mpr ⟨o, ho, rfl⟩, fun hclass => ?_⟩
  rw [(ha o (List.mem_of_getElem? ho)).childIds_eq_nil hclass] at hid
  simp at hid

/-- A claim leads to an object in the collection of the claimant. -/
theorem collectionOf?_of_resolve {c : Claim} (hc : a.collectionOf? c.claimant = some k)
    (hx : a.resolve c = .ok x) : a.collectionOf? x = some k := by
  unfold resolve at hx
  split at hx
  · simp at hx
  · rename_i y hy
    obtain ⟨k', hk'⟩ := exists_collectionOf? (lookup?_lt hy)
    -- the object found is taken only if it is of the collection of the claimant
    rw [hc, hk'] at hx
    simp only at hx
    split at hx
    · rename_i hk
      obtain rfl := Except.ok.inj hx
      rw [hk', hk]
    · simp at hx

/-- What is wrong with a claim that leads nowhere. -/
theorem eq_of_resolve_eq_error {c : Claim} {w : LinkProblem} (hw : a.resolve c = .error w) :
    (∃ source, w = .unresolvedReference source c.target .compound)
      ∨ ∃ expected found,
        w = .crossCollectionChild (a.idOf c.claimant) c.target expected found := by
  unfold resolve at hw
  split at hw
  · exact Or.inl ⟨_, (Except.error.inj hw).symm⟩
  · split at hw
    · split at hw
      · simp at hw
      · exact Or.inr ⟨_, _, (Except.error.inj hw).symm⟩
    · simp at hw

/-! ### Relations between classes -/

end Arena

/-- A relation is added unless it is one of a class to itself. -/
theorem Inheritance.mem_edges_add_iff {g : Inheritance} {base derived b d : Nat} :
    (b, d) ∈ (g.add base derived).edges
      ↔ (b, d) ∈ g.edges ∨ b ≠ d ∧ (b, d) = (base, derived) := by
  unfold Inheritance.add
  split
  -- The edge is refused: it is there already, or from an object to itself.
  · rename_i h
    refine ⟨Or.inl, ?_⟩
    rintro (hmem | ⟨hne, heq⟩)
    · exact hmem
    · obtain ⟨rfl, rfl⟩ := Prod.mk.inj heq
      exact h.resolve_left hne
  · rename_i h
    rw [not_or] at h
    rw [List.mem_append, List.mem_singleton]
    constructor
    · rintro (hmem | heq)
      · exact Or.inl hmem
      · obtain ⟨rfl, rfl⟩ := Prod.mk.inj heq
        exact Or.inr ⟨h.1, rfl⟩
    · rintro (hmem | ⟨_, heq⟩)
      · exact Or.inl hmem
      · exact Or.inr heq

/-- A relation that is there already is not added again. -/
theorem Inheritance.nodup_edges_add {g : Inheritance} (hg : g.edges.Nodup) (base derived : Nat) :
    (g.add base derived).edges.Nodup := by
  unfold Inheritance.add
  split
  · exact hg
  · rename_i h
    rw [not_or] at h
    refine List.nodup_append.mpr ⟨hg, by simp, ?_⟩
    rintro e he e' he' rfl
    exact h.2 (List.mem_singleton.mp he' ▸ he)

namespace Arena

variable {a : Arena} {b d : Nat} {edge : Nat → Nat → Nat × Nat}

/-- Claims add the relations that they resolve to, and nothing else. -/
theorem mem_edges_recordClaims_iff {claims : List Claim} {g : Inheritance × List LinkProblem} :
    (b, d) ∈ (a.recordClaims edge claims g).1.edges
      ↔ (b, d) ∈ g.1.edges
        ∨ b ≠ d ∧ ∃ c ∈ claims, ∃ x, a.resolve c = .ok x ∧ (b, d) = edge c.claimant x := by
  induction claims generalizing g with
  | nil => simp [recordClaims]
  | cons c claims ih =>
    rw [recordClaims, List.foldl_cons]
    -- the first claim only changes what the others start from
    refine (ih (g := _)).trans ?_
    cases hx : a.resolve c with
    | error w => simp [hx]
    | ok x =>
      simp only [Inheritance.mem_edges_add_iff]
      constructor
      · rintro ((hmem | ⟨hne, heq⟩) | ⟨hne, c', hc', y, hy, heq⟩)
        · exact Or.inl hmem
        · exact Or.inr ⟨hne, c, by simp, x, hx, heq⟩
        · exact Or.inr ⟨hne, c', by simp [hc'], y, hy, heq⟩
      · rintro (hmem | ⟨hne, c', hc', y, hy, heq⟩)
        · exact Or.inl (Or.inl hmem)
        · rcases List.mem_cons.mp hc' with rfl | hc'
          · rw [hx] at hy
            obtain rfl := Except.ok.inj hy
            exact Or.inl (Or.inr ⟨hne, heq⟩)
          · exact Or.inr ⟨hne, c', hc', y, hy, heq⟩

/-- Hence no relation is recorded twice. -/
theorem nodup_edges_recordClaims {claims : List Claim} {g : Inheritance × List LinkProblem}
    (hg : g.1.edges.Nodup) : (a.recordClaims edge claims g).1.edges.Nodup := by
  refine List.foldlRecOn (motive := fun (g : Inheritance × List LinkProblem) => g.1.edges.Nodup)
    claims _ hg fun g hg c _ => ?_
  dsimp only
  split
  · exact Inheritance.nodup_edges_add hg _ _
  · exact hg

/-- A claim of a class on another object, by its base list or by its list of derived classes. -/
theorem mem_classClaims_iff {ids : Object → List String} {c : Claim} :
    c ∈ a.classClaims ids
      ↔ ∃ o, a.objects[c.claimant]? = some o ∧ o.collection = .classes ∧ c.target ∈ ids o := by
  rw [classClaims, mem_claimsOf_iff]
  refine exists_congr fun o => and_congr_right fun _ => ?_
  rw [Object.collection, ← ObjectKind.isClass_iff]
  by_cases hclass : o.kind.isClass <;> simp [hclass]

/-- **The relations recorded** are those that a class lists at one of the two ends. -/
theorem mem_edges_inheritance_iff :
    (b, d) ∈ a.inheritance.1.edges
      ↔ b ≠ d ∧ ((∃ c ∈ a.classClaims (·.baseIds), c.claimant = d ∧ a.resolve c = .ok b)
        ∨ ∃ c ∈ a.classClaims (·.derivedIds), c.claimant = b ∧ a.resolve c = .ok d) := by
  rw [inheritance, mem_edges_recordClaims_iff, mem_edges_recordClaims_iff]
  simp only [List.not_mem_nil, false_or, Prod.mk.injEq]
  constructor
  · rintro (⟨hne, c, hc, x, hx, rfl, rfl⟩ | ⟨hne, c, hc, x, hx, rfl, rfl⟩)
    · exact ⟨hne, Or.inl ⟨c, hc, rfl, hx⟩⟩
    · exact ⟨hne, Or.inr ⟨c, hc, rfl, hx⟩⟩
  · rintro ⟨hne, ⟨c, hc, rfl, hx⟩ | ⟨c, hc, rfl, hx⟩⟩
    · exact Or.inl ⟨hne, c, hc, b, hx, rfl, rfl⟩
    · exact Or.inr ⟨hne, c, hc, d, hx, rfl, rfl⟩

/-- Relations are recorded between classes only, and never of a class with itself. -/
theorem classes_of_mem_edges (hbd : (b, d) ∈ a.inheritance.1.edges) :
    b ≠ d ∧ a.collectionOf? b = some .classes ∧ a.collectionOf? d = some .classes := by
  obtain ⟨hne, ⟨c, hc, rfl, hx⟩ | ⟨c, hc, rfl, hx⟩⟩ := mem_edges_inheritance_iff.mp hbd
  all_goals
    obtain ⟨o, ho, hclass, _⟩ := mem_classClaims_iff.mp hc
    have hclaimant := collectionOf?_eq_some_iff.mpr ⟨o, ho, hclass⟩
    have hfound := collectionOf?_of_resolve hclaimant hx
  · exact ⟨hne, hfound, hclaimant⟩
  · exact ⟨hne, hclaimant, hfound⟩

/-- Each relation is recorded once. -/
theorem nodup_edges_inheritance (a : Arena) : a.inheritance.1.edges.Nodup :=
  nodup_edges_recordClaims (nodup_edges_recordClaims List.nodup_nil)

end Arena

end DocGraph
