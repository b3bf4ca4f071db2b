import DocGraph.Proofs.Consistency
import DocGraph.Proofs.Roster

namespace DocGraph

/-!
# Disputes over children

Whether claims on children are in conflict does not depend on the order in which they are decided
on, and is reported if and only if they are.

* `LinkProblem.isConflict`, `Quiet` — warnings of which the order of objects decides who gets them;
* `Arena.Heeded` — the invariant while nothing of the kind is reported: the links are those of the
  claims so far, and each claim that leads somewhere has been granted;
* `Arena.Heeded.step`, `Arena.heeded_of_quiet`, `Arena.heeded_of_isForest` — it is kept as long as
  no conflict is reported, and none is where each object has one claimant and none is above itself;
* `Arena.quiet_linkChildren_iff` — hence the claims are a forest if and only if no conflict is
  reported;
* `Graph.parentOf?`, `Arena.parentOf?_eq_some_iff` — in a forest the parent is the claimant.
-/

/-! ### Warnings about conflicts -/

/-- Whether a warning is about two objects that are after the same, or an object above itself. -/
def LinkProblem.isConflict : LinkProblem → Bool
  | .duplicatePermalink .. | .multipleParents .. | .parentCycle .. => true
  | _ => false

/-- No conflict is among the warnings. -/
def Quiet (warnings : List LinkProblem) : Prop := ∀ w ∈ warnings, w.isConflict = false

/-- A list of warnings is quiet if both of its parts are. -/
theorem quiet_append {u v : List LinkProblem} : Quiet (u ++ v) ↔ Quiet u ∧ Quiet v :=
  List.forall_mem_append

/-- Where all warnings are about conflicts, to be quiet is to have none. -/
theorem quiet_iff_eq_nil {warnings : List LinkProblem}
    (hconflict : ∀ w ∈ warnings, w.isConflict = true) : Quiet warnings ↔ warnings = [] := by
  constructor
  · intro hquiet
    refine List.eq_nil_iff_forall_not_mem.mpr fun w hw => ?_
    have hw' := (hconflict w hw).symm.trans (hquiet w hw)
    simp at hw'
  · rintro rfl
    simp [Quiet]

/-- The parent of the object with an id, by its id as well. -/
def Graph.parentOf? (g : Graph) (id : String) : Option String :=
  (g.lookup? id).bind fun x => (g.hierarchy.parent? x).map g.idOf

namespace Arena

variable {a : Arena} {p x : Nat} {c : Claim} {s : Progress} {done : List Claim}

/-- That a claim leads nowhere is no conflict. -/
theorem isConflict_of_resolve {w : LinkProblem} (hw : a.resolve c = .error w) :
    w.isConflict = false := by
  rcases eq_of_resolve_eq_error hw with ⟨source, rfl⟩ | ⟨expected, found, rfl⟩
  · rfl
  · rfl

/-- Claims that lead nowhere are quiet, however many there are. -/
theorem quiet_filterMap_resolve (a : Arena) (claims : List Claim) :
    Quiet (claims.filterMap fun c => problem? (a.resolve c)) := by
  intro w hw
  obtain ⟨c, -, hc⟩ := List.mem_filterMap.mp hw
  cases hr : a.resolve c with
  | ok x => simp [hr, problem?] at hc
  | error w' =>
    obtain rfl : w' = w := by simpa [hr, problem?] using hc
    exact isConflict_of_resolve hr

/-! ### Claims one after the other -/

/-- What there is after decisions on some claims. -/
def decided (a : Arena) (done : List Claim) : Progress := done.foldl (Progress.step a) {}

theorem decided_append_singleton (a : Arena) (done : List Claim) (c : Claim) :
    a.decided (done ++ [c]) = (a.decided done).step a c := by
  rw [decided, List.foldl_append]
  rfl

/-- What holds after decisions on some claims if no conflict has been reported. -/
structure Heeded (a : Arena) (done : List Claim) (s : Progress) : Prop where
  /-- Every link is that of a claim. -/
  claimed : ∀ {p x}, s.links.IsParent p x → ∃ c ∈ done, c.claimant = p ∧ a.resolve c = .ok x
  /-- Every claim that leads somewhere has been granted. -/
  granted : ∀ c ∈ done, ∀ x, a.resolve c = .ok x → s.links.parent? x = some c.claimant
  /-- The others have been reported. -/
  reported : s.warnings = done.filterMap fun c => problem? (a.resolve c)

/-- Before the first claim nothing has been granted or reported. -/
theorem heeded_nil (a : Arena) : a.Heeded [] {} where
  claimed hlink := absurd hlink Hierarchy.not_isParent_nil
  granted := by simp
  reported := rfl

/-- A claim on a child that has been granted already changes nothing. -/
theorem Heeded.repeat (hs : a.Heeded done s) (hx : a.resolve c = .ok x)
    (hp : s.links.parent? x = some c.claimant) : a.Heeded (done ++ [c]) s where
  claimed hlink := by
    obtain ⟨c', hc', hlink⟩ := hs.claimed hlink
    exact ⟨c', List.mem_append_left _ hc', hlink⟩
  granted := by
    refine List.forall_mem_append.mpr ⟨hs.granted, List.forall_mem_singleton.mpr fun y hy => ?_⟩
    obtain rfl := Except.ok.inj (hx.symm.trans hy)
    exact hp
  reported := by simp [hs.reported, hx, problem?]

/-- A claim on a child without a parent adds a link. -/
theorem Heeded.accept (hs : a.Heeded done s) (hx : a.resolve c = .ok x)
    (hp : s.links.parent? x = none) :
    a.Heeded (done ++ [c]) { s with links := s.links ++ [⟨c.claimant, x⟩] } where
  claimed hlink := by
    rcases Hierarchy.isParent_append_singleton.mp hlink with hlink | ⟨rfl, rfl⟩
    · obtain ⟨c', hc', hlink⟩ := hs.claimed hlink
      exact ⟨c', List.mem_append_left _ hc', hlink⟩
    · exact ⟨c, by simp, rfl, hx⟩
  granted := by
    refine List.forall_mem_append.mpr ⟨fun c' hc' y hy => ?_,
      List.forall_mem_singleton.mpr fun y hy => ?_⟩
    · exact Hierarchy.parent?_append_of_eq_some (hs.granted c' hc' y hy)
    · obtain rfl := Except.ok.inj (hx.symm.trans hy)
      exact Hierarchy.parent?_append_singleton hp
  reported := by simp [hs.reported, hx, problem?]

/-- A claim that leads nowhere is reported. -/
theorem Heeded.report (hs : a.Heeded done s) {w : LinkProblem} (hw : a.resolve c = .error w) :
    a.Heeded (done ++ [c]) { s with warnings := s.warnings ++ [w] } where
  claimed hlink := by
    obtain ⟨c', hc', hlink⟩ := hs.claimed hlink
    exact ⟨c', List.mem_append_left _ hc', hlink⟩
  granted := by
    refine List.forall_mem_append.mpr ⟨hs.granted, List.forall_mem_singleton.mpr fun y hy => ?_⟩
    rw [hw] at hy
    simp at hy
  reported := by simp [hs.reported, hw, problem?]

/-- What stands in the way of a claim on `x`: another parent, or that the claimant is `x` itself or
below it. -/
def Obstructed (h : Hierarchy) (claimant x : Nat) : Prop :=
  (∃ q, h.parent? x = some q ∧ q ≠ claimant)
    ∨ h.parent? x = none ∧ (x = claimant ∨ x ∈ h.chain claimant)

/-- All that can become of a claim. -/
theorem decide_cases (a : Arena) (h : Hierarchy) (c : Claim) :
    (∃ w, a.resolve c = .error w ∧ a.decide h c = .refused w)
      ∨ ∃ x, a.resolve c = .ok x
        ∧ (h.parent? x = some c.claimant ∧ a.decide h c = .repeated
          ∨ h.parent? x = none ∧ a.decide h c = .accepted x
          ∨ Obstructed h c.claimant x ∧ ∃ w, w.isConflict = true ∧ a.decide h c = .refused w) := by
  unfold decide
  cases hr : a.resolve c with
  | error w => exact Or.inl ⟨w, rfl, rfl⟩
  | ok x =>
    refine Or.inr ⟨x, rfl, ?_⟩
    dsimp only
    -- A parent that is there decides alone; only without one is the cycle looked for.
    cases hp : h.parent? x with
    | some q =>
      dsimp only
      split
      · rename_i hq
        exact Or.inl ⟨congrArg some hq, rfl⟩
      · rename_i hq
        exact Or.inr (Or.inr ⟨Or.inl ⟨q, hp, hq⟩, _, rfl, rfl⟩)
    | none =>
      dsimp only
      split
      · rename_i hcycle
        refine Or.inr (Or.inr ⟨Or.inr ⟨hp, ?_⟩, _, rfl, rfl⟩)
        simpa using hcycle
      · exact Or.inr (Or.inl ⟨rfl, rfl⟩)

/-- **Deciding on a claim** keeps to the claims unless it reports a conflict. -/
theorem Heeded.step (hs : a.Heeded done s)
    (hd : ∀ w, a.decide s.links c = .refused w → w.isConflict = false) :
    a.Heeded (done ++ [c]) (s.step a c) := by
  unfold Progress.step
  -- A claim leads nowhere, is met already, is accepted, or is in conflict, which `hd` excludes.
  rcases a.decide_cases s.links c with ⟨w, hw, hdecide⟩ | ⟨x, hx, hdecide⟩
  · rw [hdecide]
    exact hs.report hw
  · rcases hdecide with ⟨hp, hdecide⟩ | ⟨hp, hdecide⟩ | ⟨-, w, hconflict, hdecide⟩
    · rw [hdecide]
      exact hs.repeat hx hp
    · rw [hdecide]
      exact hs.accept hx hp
    · rw [hd w hdecide] at hconflict
      simp at hconflict

/-- **All claims are heeded** as long as no conflict is reported. -/
theorem heeded_of_quiet (hquiet : Quiet (a.decided done).warnings) :
    a.Heeded done (a.decided done) := by
  induction done using List.reverseRecOn with
  | nil => exact a.heeded_nil
  | append_singleton done c ih =>
    rw [decided_append_singleton] at hquiet ⊢
    -- warnings stay, so nothing was reported before this claim either
    have hbefore : Quiet (a.decided done).warnings := by
      unfold Progress.step at hquiet
      split at hquiet
      · exact hquiet
      · exact hquiet
      · exact (quiet_append.mp hquiet).1
    refine (ih hbefore).step fun w hw => hquiet w ?_
    simp [Progress.step, hw]

/-! ### Claims that are a forest -/

section

variable (hn : (a.objects.map (·.id)).Nodup)
include hn

/-- A claim that leads somewhere is one on a compound, whatever the places are. -/
theorem claims_of_mem_claims (hc : c ∈ a.claims) (hx : a.resolve c = .ok x) :
    a.roster.Claims (a.idOf c.claimant) (a.idOf x) :=
  (claims_iff hn).mpr ⟨c, hc, x, hx, rfl, rfl⟩

/-- A way down by links is one by claims. -/
theorem Heeded.transGen_claims (hs : a.Heeded done s) (hdone : done ⊆ a.claims)
    (hpx : Relation.TransGen s.links.IsParent p x) :
    Relation.TransGen a.roster.Claims (a.idOf p) (a.idOf x) := by
  refine hpx.lift a.idOf fun q y hlink => ?_
  obtain ⟨c, hc, rfl, hy⟩ := hs.claimed hlink
  exact claims_of_mem_claims hn (hdone hc) hy

/-- **In a forest no claim is obstructed.** -/
theorem not_obstructed_of_isForest (hf : a.roster.IsForest) (hs : a.Heeded done s)
    (hdone : done ⊆ a.claims) (hc : c ∈ a.claims) (hx : a.resolve c = .ok x) :
    ¬ Obstructed s.links c.claimant x := by
  have hclaims := claims_of_mem_claims hn hc hx
  -- another parent would be a second claimant, and a way up from the claimant a cycle
  rintro (⟨q, hq, hne⟩ | ⟨-, rfl | hchain⟩)
  · obtain ⟨c', hc', rfl, hx'⟩ := hs.claimed (Hierarchy.isParent_of_parent? hq)
    have hid := hf.claimant_unique (claims_of_mem_claims hn (hdone hc') hx') hclaims
    exact hne (idOf_injective hn (claimant_lt (hdone hc')) (claimant_lt hc) hid)
  · exact hf.acyclic _ (Relation.TransGen.single hclaims)
  · have habove := Hierarchy.transGen_of_mem_chainFrom hchain
    exact hf.acyclic _ ((hs.transGen_claims hn hdone habove).tail hclaims)

/-- **In a forest, no claim meets with a conflict**, so each is granted. -/
theorem heeded_of_isForest (hf : a.roster.IsForest) (hdone : done ⊆ a.claims) :
    a.Heeded done (a.decided done) := by
  induction done using List.reverseRecOn with
  | nil => exact a.heeded_nil
  | append_singleton done c ih =>
    have hbefore : done ⊆ a.claims := fun c' hc' => hdone (List.mem_append_left _ hc')
    have hc : c ∈ a.claims := hdone (by simp)
    rw [decided_append_singleton]
    refine (ih hbefore).step fun w hw => ?_
    -- In a forest nothing obstructs a claim, so a refusal comes from its names.
    rcases a.decide_cases (a.decided done).links c with ⟨w', hw', hdecide⟩ | ⟨x, hx, hdecide⟩
    · obtain rfl := Decision.refused.inj (hdecide.symm.trans hw)
      exact isConflict_of_resolve hw'
    · rcases hdecide with ⟨-, hdecide⟩ | ⟨-, hdecide⟩ | ⟨hobstructed, -⟩
      · simp [hdecide] at hw
      · simp [hdecide] at hw
      · exact absurd hobstructed (not_obstructed_of_isForest hn hf (ih hbefore) hbefore hc hx)

/-- Claims that have all been granted are a forest. -/
theorem Heeded.isForest (ha : a.IsWrapped) (hs : a.Heeded a.claims a.linkChildren) :
    a.roster.IsForest where
  claimant_unique hp hq := by
    obtain ⟨c, hc, y, hy, rfl, rfl⟩ := (claims_iff hn).mp hp
    obtain ⟨c', hc', y', hy', rfl, hid⟩ := (claims_iff hn).mp hq
    obtain rfl := idOf_injective hn (lt_of_resolve hy') (lt_of_resolve hy) hid
    have hparent := (hs.granted c hc y' hy).symm.trans (hs.granted c' hc' y' hy')
    rw [Option.some.inj hparent]
  acyclic x hxx := by
    -- places make a way up by claims one by links, which are acyclic
    refine (sound_link ha).acyclic (a.placeOf x) (hxx.lift a.placeOf fun p y hpy => ?_)
    obtain ⟨c, hc, z, hz, rfl, rfl⟩ := (claims_iff hn).mp hpy
    show a.link.1.IsParent (a.placeOf _) (a.placeOf _)
    rw [placeOf_idOf hn (claimant_lt hc), placeOf_idOf hn (lt_of_resolve hz), link_eq_append]
    exact List.mem_append_left _ (Hierarchy.isParent_of_parent? (hs.granted c hc z hz))

/-- **A conflict over children is reported** if and only if there is one. -/
theorem quiet_linkChildren_iff (ha : a.IsWrapped) :
    Quiet a.linkChildren.warnings ↔ a.roster.IsForest := by
  constructor
  · intro hquiet
    have hs : a.Heeded a.claims a.linkChildren := heeded_of_quiet hquiet
    exact hs.isForest hn ha
  · intro hf
    have hs := heeded_of_isForest hn hf (List.Subset.refl a.claims)
    have hwarnings : a.linkChildren.warnings = _ := hs.reported
    rw [hwarnings]
    exact a.quiet_filterMap_resolve a.claims

/-! ### Parents in a forest -/

/-- **The parent of an object** that is no class is the one that claims it. -/
theorem parent?_link_iff (hf : a.roster.IsForest) (hx : x < a.objects.length)
    (hclass : x ∉ a.classes) :
    a.link.1.parent? x = some p
      ↔ p < a.objects.length ∧ a.roster.Claims (a.idOf p) (a.idOf x) := by
  have hs : a.Heeded a.claims a.linkChildren := heeded_of_isForest hn hf (List.Subset.refl _)
  -- Links of classes add no parent to what is no class.
  have hnone : a.classLinks.parent? x = none :=
    Hierarchy.parent?_eq_none_iff.mpr fun q hlink => hclass (isParent_classLinks_iff.mp hlink).1
  rw [link_eq_append, Hierarchy.parent?_append, hnone, Option.or_none]
  constructor
  · intro hp
    obtain ⟨c, hc, rfl, hx⟩ := hs.claimed (Hierarchy.isParent_of_parent? hp)
    exact ⟨claimant_lt hc, claims_of_mem_claims hn hc hx⟩
  · rintro ⟨hp, hclaims⟩
    obtain ⟨c, hc, y, hy, hpid, hyid⟩ := (claims_iff hn).mp hclaims
    obtain rfl := idOf_injective hn (claimant_lt hc) hp hpid
    obtain rfl := idOf_injective hn (lt_of_resolve hy) hx hyid
    exact hs.granted c hc y hy

/-- **The parent by its id** is told by the claims alone. -/
theorem parentOf?_eq_some_iff (hf : a.roster.IsForest) {p id : String}
    (hhome : a.homeOf? id ≠ some .classes) :
    a.toGraph.1.parentOf? id = some p ↔ a.roster.Claims p id := by
  -- Not a class, so its parents come from claims alone.
  have hclass : ∀ x, a.lookup? id = some x → x ∉ a.classes := by
    intro x hx hmem
    apply hhome
    rw [homeOf?, hx, Option.bind_some]
    exact mem_classes_iff.mp hmem
  have hparent : a.toGraph.1.parentOf? id
      = (a.lookup? id).bind fun x => (a.link.1.parent? x).map a.idOf := rfl
  rw [hparent, Option.bind_eq_some_iff]
  constructor
  · rintro ⟨x, hx, hp⟩
    obtain ⟨q, hq, rfl⟩ := Option.map_eq_some_iff.mp hp
    obtain rfl := idOf_of_lookup? hn hx
    exact ((parent?_link_iff hn hf (lookup?_lt hx) (hclass x hx)).mp hq).2
  · intro hclaims
    obtain ⟨c, hc, x, hx, rfl, rfl⟩ := (claims_iff hn).mp hclaims
    have hlookup := lookup?_idOf hn (lt_of_resolve hx)
    refine ⟨x, hlookup, Option.map_eq_some_iff.mpr ⟨c.claimant, ?_, rfl⟩⟩
    exact (parent?_link_iff hn hf (lt_of_resolve hx) (hclass x hlookup)).mpr
      ⟨claimant_lt hc, hclaims⟩

end

end Arena

end DocGraph
