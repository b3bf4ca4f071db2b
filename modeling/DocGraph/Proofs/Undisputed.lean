import DocGraph.Proofs.Disputes
import DocGraph.Proofs.Nesting

namespace DocGraph

/-!
# Linking without conflicts

Where nothing that objects say of each other is in conflict, what linking yields can be told without
going through its steps, and that nothing is in conflict can be told by the warnings.

* `Arena.warnings_toGraph` — all warnings, by what they are about;
* `Arena.inversions_eq_nil_iff` — no class is kept from its base if and only if derivation is
  acyclic;
* `Arena.address_permalink`, `Arena.eq_permalink_of_address` — where permalinks are not in conflict,
  that of an object is its address;
* `Arena.quiet_toGraph_iff` — no conflict is reported if and only if there is none;
* `Arena.warnings_of_undisputed` — the warnings that remain, object after object.
-/

namespace Arena

variable {a : Arena} {b d p x y : Nat}

/-! ### Warnings by what they are about -/

/-- There is a warning for each claim that leads nowhere, and for no other. -/
theorem warnings_recordClaims (a : Arena) (edge : Nat → Nat → Nat × Nat) (claims : List Claim)
    (g : Inheritance × List LinkProblem) :
    (a.recordClaims edge claims g).2
      = g.2 ++ claims.filterMap fun c => problem? (a.resolve c) := by
  induction claims generalizing g with
  | nil => simp [recordClaims]
  | cons c claims ih =>
    rw [recordClaims, List.foldl_cons]
    refine (ih _).trans ?_
    cases hr : a.resolve c <;> simp [hr, problem?]

/-- The warnings about relations that classes list. -/
theorem warnings_inheritance (a : Arena) :
    a.inheritance.2
      = (a.classClaims (·.baseIds)).filterMap (fun c => problem? (a.resolve c))
        ++ (a.classClaims (·.derivedIds)).filterMap fun c => problem? (a.resolve c) := by
  rw [inheritance, warnings_recordClaims, warnings_recordClaims, List.nil_append]

/-- **All warnings of linking**: about claims on children, about relations that classes list, about
bases that derive from a class, and about permalinks. -/
theorem warnings_toGraph (ha : a.IsWrapped) :
    a.toGraph.2 = a.linkChildren.warnings ++ a.inheritance.2 ++ a.inversions
      ++ (a.servingOrder a.link.1).filterMap a.toGraph.1.renaming? := by
  have hwarnings : a.toGraph.2
      = a.link.2.2 ++ (a.served a.link.1 (a.servingOrder a.link.1)).2 := rfl
  rw [hwarnings, warnings_link, warnings_served (sound_link ha) (List.append_nil _).symm]

/-- Every object gets the permalink wanted if and only if no renaming is reported. -/
theorem renamings_eq_nil_iff :
    (a.servingOrder a.link.1).filterMap a.toGraph.1.renaming? = []
      ↔ ∀ x, x < a.objects.length → a.toGraph.1.FreeFor x (a.toGraph.1.wanted x) := by
  simp only [List.filterMap_eq_nil_iff, mem_servingOrder, Graph.renaming?, Option.map_eq_none_iff,
    Graph.earlier?_eq_none_iff]

/-- Bases that derive from a class, and permalinks that are taken, are conflicts. -/
theorem quiet_inversions_iff : Quiet a.inversions ↔ a.inversions = [] := by
  refine quiet_iff_eq_nil fun w hw => ?_
  obtain ⟨x, -, hx⟩ := List.mem_flatMap.mp hw
  obtain ⟨b, -, rfl⟩ := List.mem_map.mp hx
  rfl

/-- Every renaming is a conflict. -/
theorem quiet_renamings_iff :
    Quiet ((a.servingOrder a.link.1).filterMap a.toGraph.1.renaming?)
      ↔ (a.servingOrder a.link.1).filterMap a.toGraph.1.renaming? = [] := by
  refine quiet_iff_eq_nil fun w hw => ?_
  obtain ⟨x, -, hx⟩ := List.mem_filterMap.mp hw
  obtain ⟨y, -, rfl⟩ := Option.map_eq_some_iff.mp hx
  rfl

/-! ### Classes and their bases -/

section

variable (hn : (a.objects.map (·.id)).Nodup)
include hn

/-- Derivation by ids is derivation by places. -/
theorem transGen_derives_iff (hx : x < a.objects.length) (hy : y < a.objects.length) :
    Relation.TransGen a.roster.Derives (a.idOf x) (a.idOf y)
      ↔ a.inheritance.1.DerivesFrom x y := by
  constructor
  · intro hxy
    -- Ids are distinct, so a way by ids is one by places.
    have hplaces : a.inheritance.1.DerivesFrom (a.placeOf (a.idOf x)) (a.placeOf (a.idOf y)) := by
      refine hxy.lift a.placeOf fun d b hdb => ?_
      obtain ⟨z, w, hedge, rfl, rfl⟩ := (derives_iff hn).mp hdb
      obtain ⟨-, hw, hz⟩ := classes_of_mem_edges hedge
      show (a.placeOf _, a.placeOf _) ∈ a.inheritance.1.edges
      rw [placeOf_idOf hn (lt_of_collectionOf? hz), placeOf_idOf hn (lt_of_collectionOf? hw)]
      exact hedge
    rwa [placeOf_idOf hn hx, placeOf_idOf hn hy] at hplaces
  · exact fun hxy => hxy.lift a.idOf fun z w hedge => (derives_iff hn).mpr ⟨z, w, hedge, rfl, rfl⟩

/-- **No class is kept from one of its bases** if and only if none derives from itself. -/
theorem inversions_eq_nil_iff :
    a.inversions = [] ↔ ∀ id, ¬ Relation.TransGen a.roster.Derives id id := by
  have hclosed : a.inversions = []
      ↔ ∀ b x, (b, x) ∈ a.inheritance.1.edges → ¬ a.inheritance.1.DerivesFrom b x := by
    simp only [inversions, List.flatMap_eq_nil_iff, List.map_eq_nil_iff, closedBases,
      List.filter_eq_nil_iff, Inheritance.mem_bases, Inheritance.isAncestor_iff]
    constructor
    · intro hnone b x hedge hbx
      obtain ⟨hne, -, hx⟩ := classes_of_mem_edges hedge
      exact hnone x (mem_classes_iff.mpr hx) b hedge ⟨hne.symm, hbx⟩
    · exact fun hnone x _ b hedge hbx => hnone b x hedge hbx.2
  rw [hclosed]
  constructor
  · intro hnone id hid
    -- the first relation on the way from a class to itself leads to a base that derives from it
    obtain ⟨base, hfirst, hback⟩ := Relation.TransGen.head'_iff.mp hid
    obtain ⟨x, b, hedge, rfl, rfl⟩ := (derives_iff hn).mp hfirst
    obtain ⟨hne, hb, hx⟩ := classes_of_mem_edges hedge
    have hbl := lt_of_collectionOf? hb
    have hxl := lt_of_collectionOf? hx
    rcases Relation.reflTransGen_iff_eq_or_transGen.mp hback with heq | hback
    · exact hne (idOf_injective hn hbl hxl heq.symm)
    · exact hnone b x hedge ((transGen_derives_iff hn hbl hxl).mp hback)
  · intro hnone b x hedge hbx
    obtain ⟨-, hb, hx⟩ := classes_of_mem_edges hedge
    have hcycle :=
      (transGen_derives_iff hn (lt_of_collectionOf? hb) (lt_of_collectionOf? hx)).mpr hbx
    exact hnone _ (hcycle.head ((derives_iff hn).mpr ⟨x, b, hedge, rfl, rfl⟩))

/-! ### Permalinks -/

/-- The parent beneath whose permalink that of an object lies is its claimant. -/
theorem nestingParent?_link_iff (hf : a.roster.IsForest) {o : Object}
    (ho : a.objects[x]? = some o) :
    a.nestingParent? a.link.1 x = some p
      ↔ o.kind.nests = true ∧ p < a.objects.length ∧ a.roster.Claims (a.idOf p) o.id := by
  have hx : x < a.objects.length := (List.getElem?_eq_some_iff.mp ho).1
  rw [nestingParent?_eq ho]
  by_cases hnests : o.kind.nests = true
  -- objects that nest are no classes, so their parents come of claims
  · have hclass : x ∉ a.classes := by
      rw [mem_classes_iff, collectionOf?_eq_some_iff]
      rintro ⟨o', ho', hclass⟩
      obtain rfl := Option.some.inj (ho.symm.trans ho')
      rw [Object.collection, ← ObjectKind.isClass_iff] at hclass
      cases hk : o.kind <;> simp [hk, ObjectKind.nests, ObjectKind.isClass] at hnests hclass
    rw [if_pos hnests, parent?_link_iff hn hf hx hclass, idOf_eq ho]
    exact (and_iff_right hnests).symm
  · rw [if_neg hnests]
    exact iff_of_false (by simp) fun h => hnests h.1

/-- **The permalink wanted is an address** if the permalinks above are. -/
theorem address_wanted (hf : a.roster.IsForest) (hx : x < a.objects.length)
    (habove : ∀ p, a.nestingParent? a.link.1 x = some p →
      a.roster.Address (a.idOf p) (a.toGraph.1.permalink p)) :
    a.roster.Address (a.idOf x) (a.toGraph.1.wanted x) := by
  obtain ⟨o, ho⟩ : ∃ o, a.objects[x]? = some o := ⟨_, List.getElem?_eq_getElem hx⟩
  have hroster := unplaced_mem_roster ho
  rw [idOf_eq ho]
  rw [wanted_eq ho]
  cases hp : a.nestingParent? a.link.1 x with
  | some p =>
    obtain ⟨hnests, -, hclaims⟩ := (nestingParent?_link_iff hn hf ho).mp hp
    exact Roster.Address.beneath (o := o.unplaced) hroster hnests hclaims (habove p hp)
  -- no claim can be on it, since that would be a parent to nest beneath
  | none =>
    refine Roster.Address.top (o := o.unplaced) hroster fun hnests id hclaims => ?_
    obtain ⟨c, hc, y, hy, rfl, hid⟩ := (claims_iff hn).mp hclaims
    rw [(nestingParent?_link_iff hn hf ho).mpr ⟨hnests, claimant_lt hc, hclaims⟩] at hp
    simp at hp

/-- **Each object has its address as its permalink** where no two have the same address. -/
theorem address_permalink (ha : a.IsWrapped) (hu : a.roster.Undisputed)
    (hx : x < a.objects.length) :
    a.toGraph.1.FreeFor x (a.toGraph.1.wanted x)
      ∧ a.roster.Address (a.idOf x) (a.toGraph.1.permalink x) := by
  have hs := sound_link ha
  -- by induction on the objects served, each of which finds its address free
  suffices hserved : ∀ before after, a.servingOrder a.link.1 = before ++ after → ∀ x ∈ before,
      a.toGraph.1.FreeFor x (a.toGraph.1.wanted x)
        ∧ a.roster.Address (a.idOf x) (a.toGraph.1.permalink x) from
    hserved _ [] (List.append_nil _).symm x (mem_servingOrder.mpr hx)
  intro before
  induction before using List.reverseRecOn with
  | nil => simp
  | append_singleton before x ih =>
    intro after hsplit
    have hsplit : a.servingOrder a.link.1 = before ++ x :: after := by simpa using hsplit
    refine List.forall_mem_append.mpr ⟨ih _ hsplit, List.forall_mem_singleton.mpr ?_⟩
    have hx : x < a.objects.length := by
      rw [← mem_servingOrder (a := a) (h := a.link.1), hsplit]
      simp
    have hwanted : a.roster.Address (a.idOf x) (a.toGraph.1.wanted x) := by
      refine address_wanted hn hu.toIsForest hx fun p hp => (ih _ hsplit p ?_).2
      exact (mem_before_iff hsplit).mpr
        ⟨lt_of_nestingParent? hs hp, Or.inl (depth_lt_of_nestingParent? hs hp)⟩
    have hfree : a.toGraph.1.FreeFor x (a.toGraph.1.wanted x) := by
      intro y hy hyx heq
      have haddress := (ih _ hsplit y ((mem_before_iff hsplit).mpr ⟨hy, hyx⟩)).2
      rw [heq] at haddress
      obtain rfl := idOf_injective hn hy hx (hu.address_injective haddress hwanted)
      exact hyx.asymm hyx
    refine ⟨hfree, ?_⟩
    rw [permalink_eq_wanted hs hx hfree]
    exact hwanted

/-- The permalink of an object where all have the permalinks wanted. -/
theorem permalinkOf?_of_mem_roster
    (hpermalink : ∀ x, x < a.objects.length → a.toGraph.1.permalink x = a.toGraph.1.wanted x)
    {o : Object} (ho : o ∈ a.roster) :
    ∃ x o', a.objects[x]? = some o' ∧ o'.unplaced = o
      ∧ a.toGraph.1.permalinkOf? o.id
        = some ((a.nestingParent? a.link.1 x).elim o.skeleton fun p =>
          s!"{a.toGraph.1.permalink p}/{o.segment}") := by
  obtain ⟨x, o', ho', rfl⟩ := mem_roster_iff.mp ho
  have hx : x < a.objects.length := (List.getElem?_eq_some_iff.mp ho').1
  have hlookup : a.lookup? o'.id = some x := (lookup?_eq_some_iff hn).mpr ⟨o', ho', rfl⟩
  refine ⟨x, o', ho', rfl, ?_⟩
  show (a.lookup? o'.id).map a.toGraph.1.permalink = _
  rw [hlookup, Option.map_some, hpermalink x hx, wanted_eq ho']
  rfl

/-- **An address is the permalink** of its object where all have the permalinks wanted. -/
theorem eq_permalink_of_address (hf : a.roster.IsForest)
    (hpermalink : ∀ x, x < a.objects.length → a.toGraph.1.permalink x = a.toGraph.1.wanted x)
    {id s : String} (haddress : a.roster.Address id s) : a.toGraph.1.permalinkOf? id = some s := by
  induction haddress with
  | @top o ho hfree =>
    obtain ⟨x, o, ho', rfl, hof⟩ := permalinkOf?_of_mem_roster hn hpermalink ho
    have hnone : a.nestingParent? a.link.1 x = none := by
      by_contra hsome
      obtain ⟨p, hp⟩ := Option.ne_none_iff_exists'.mp hsome
      obtain ⟨hnests, -, hclaims⟩ := (nestingParent?_link_iff hn hf ho').mp hp
      exact hfree hnests _ hclaims
    rw [hof, hnone, Option.elim_none]
  | @beneath o p above ho hnests hclaims _ ih =>
    obtain ⟨x, o, ho', rfl, hof⟩ := permalinkOf?_of_mem_roster hn hpermalink ho
    obtain ⟨c, hc, y, hy, rfl, hid⟩ := (claims_iff hn).mp hclaims
    have hp := (nestingParent?_link_iff hn hf ho').mpr ⟨hnests, claimant_lt hc, hclaims⟩
    -- the permalink of the claimant is the address above, by induction
    have habove : a.toGraph.1.permalink c.claimant = above := by
      have hof : (a.lookup? (a.idOf c.claimant)).map a.toGraph.1.permalink = some above := ih
      rw [lookup?_idOf hn (claimant_lt hc), Option.map_some] at hof
      exact Option.some.inj hof
    rw [hof, hp, Option.elim_some, ← habove]

/-- **The permalink by the id of an object** is told by the claims alone. -/
theorem permalinkOf?_eq_some_iff (ha : a.IsWrapped) (hu : a.roster.Undisputed) {id s : String} :
    a.toGraph.1.permalinkOf? id = some s ↔ a.roster.Address id s := by
  constructor
  · intro hof
    obtain ⟨x, hx, rfl⟩ := Option.map_eq_some_iff.mp hof
    obtain rfl := idOf_of_lookup? hn hx
    exact (address_permalink hn ha hu (lookup?_lt hx)).2
  · refine eq_permalink_of_address hn hu.toIsForest fun x hx => ?_
    exact permalink_eq_wanted (sound_link ha) hx (address_permalink hn ha hu hx).1

/-! ### Reports of conflicts -/

/-- Where each object gets the permalink wanted, no two have the same address. -/
theorem address_injective_of_free (hf : a.roster.IsForest)
    (hpermalink : ∀ x, x < a.objects.length → a.toGraph.1.permalink x = a.toGraph.1.wanted x)
    {id id' s : String} (hid : a.roster.Address id s) (hid' : a.roster.Address id' s) :
    id = id' := by
  -- both have the permalink `s`, which belongs to one object only
  have hof := eq_permalink_of_address hn hf hpermalink hid
  have hof' := eq_permalink_of_address hn hf hpermalink hid'
  obtain ⟨x, hx, rfl⟩ := Option.map_eq_some_iff.mp hof
  obtain ⟨y, hy, heq⟩ := Option.map_eq_some_iff.mp hof'
  obtain rfl := permalink_injective (lookup?_lt hx) (lookup?_lt hy) heq.symm
  exact (idOf_of_lookup? hn hx).trans (idOf_of_lookup? hn hy).symm

/-- **A conflict is reported if and only if there is one.** -/
theorem quiet_toGraph_iff (ha : a.IsWrapped) : Quiet a.toGraph.2 ↔ a.roster.Undisputed := by
  -- The lists of bases give no conflicts, so three parts of linking are left.
  have hinheritance : Quiet a.inheritance.2 := by
    rw [warnings_inheritance, quiet_append]
    exact ⟨a.quiet_filterMap_resolve _, a.quiet_filterMap_resolve _⟩
  rw [warnings_toGraph ha, quiet_append, quiet_append, quiet_append, quiet_linkChildren_iff hn ha,
    quiet_inversions_iff, inversions_eq_nil_iff hn, quiet_renamings_iff, renamings_eq_nil_iff]
  constructor
  · rintro ⟨⟨⟨hf, -⟩, hderives⟩, hfree⟩
    have hpermalink : ∀ x, x < a.objects.length →
        a.toGraph.1.permalink x = a.toGraph.1.wanted x :=
      fun x hx => permalink_eq_wanted (sound_link ha) hx (hfree x hx)
    exact ⟨hf, hderives, fun hid hid' => address_injective_of_free hn hf hpermalink hid hid'⟩
  · intro hu
    exact ⟨⟨⟨hu.toIsForest, hinheritance⟩, hu.acyclic_derives⟩,
      fun x hx => (address_permalink hn ha hu hx).1⟩

/-- **What is reported where nothing is in conflict**: what objects say of ids that lead nowhere. -/
theorem warnings_of_undisputed (ha : a.IsWrapped) (hu : a.roster.Undisputed) :
    a.toGraph.2 = (a.objects.flatMap fun o => o.childIds.filterMap (a.refusal? o))
      ++ ((a.objects.flatMap fun o =>
          (if o.kind.isClass then o.baseIds else []).filterMap (a.refusal? o))
        ++ a.objects.flatMap fun o =>
          (if o.kind.isClass then o.derivedIds else []).filterMap (a.refusal? o)) := by
  have hs : a.Heeded a.claims a.linkChildren :=
    heeded_of_isForest hn hu.toIsForest (List.Subset.refl _)
  have hrenamings : (a.servingOrder a.link.1).filterMap a.toGraph.1.renaming? = [] :=
    renamings_eq_nil_iff.mpr fun x hx => (address_permalink hn ha hu hx).1
  rw [warnings_toGraph ha, hs.reported, (inversions_eq_nil_iff hn).mpr hu.acyclic_derives,
    hrenamings, List.append_nil, List.append_nil, warnings_inheritance, claims, classClaims,
    classClaims, filterMap_claimsOf, filterMap_claimsOf, filterMap_claimsOf]

end

end Arena

end DocGraph
