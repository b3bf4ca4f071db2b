import DocGraph.Proofs.Claims
import DocGraph.Proofs.Hierarchy

namespace DocGraph

/-!
# Linking, one act at a time

Linking is a run of small acts, and what holds after each of them holds throughout:

* `LinkAct`, `Arena.perform`, `Arena.linkActs` — the acts, what each does, and all of them in order;
  `Arena.link_eq_after` says that to link is to perform them;
* `Arena.Sound` — the invariant: links stay within a collection, those of classes are relations that
  lie on no cycle, and other objects have one parent each and are not above themselves;
* `Arena.Sound.append` — what a further link needs for the links to stay sound;
* `Arena.Sound.step`, `Arena.Sound.addBase`, `Arena.sound_after` — each act sees to that, so the
  invariant holds whenever linking is interrupted;
* `Arena.Sound.acyclic` — and it rules cycles out altogether;
* `LinkProblem.isRenaming`, `Arena.isRenaming_of_mem_link` — warnings about permalinks are not made
  by linking;
* `Arena.link_acyclic` — the main statement.
-/

/-- One act of linking. -/
inductive LinkAct where
  /-- Decide on a claim on a child. -/
  | decide (c : Claim)
  /-- Report what was wrong with the relations that classes list. -/
  | report (warnings : List LinkProblem)
  /-- Make a class a child of one of its bases, unless the base derives from it. -/
  | addBase (derived base : Nat)

namespace Arena

variable {a : Arena} {h : Hierarchy} {p c x y : Nat} {k : Collection}

/-- What an act does to the links and warnings so far. -/
def perform (a : Arena) (s : Progress) : LinkAct → Progress
  | .decide c => s.step a c
  | .report warnings => { s with warnings := s.warnings ++ warnings }
  | .addBase derived base => s.addBase a a.inheritance.1 derived base

/-- All acts of linking, in order. -/
def linkActs (a : Arena) : List LinkAct :=
  a.claims.map .decide ++ .report a.inheritance.2 ::
    a.classes.flatMap fun x => (a.inheritance.1.bases x).map (.addBase x)

/-- What there is after some acts. -/
def after (a : Arena) (acts : List LinkAct) : Progress := acts.foldl a.perform {}

/-- To link is to perform all acts. -/
theorem link_eq_after (a : Arena) :
    a.link = ((a.after a.linkActs).links, a.inheritance.1, (a.after a.linkActs).warnings) := by
  have hafter : a.after a.linkActs = a.linkClasses a.inheritance.1
      { a.linkChildren with warnings := a.linkChildren.warnings ++ a.inheritance.2 } := by
    rw [after, linkActs, List.foldl_append, List.foldl_map, List.foldl_cons, List.foldl_flatMap]
    simp only [List.foldl_map]
    rfl
  rw [hafter]
  rfl

/-- **What every act keeps holds whenever linking is interrupted.** -/
theorem after_induction {P : Progress → Prop} (hinit : P {})
    (hdecide : ∀ s c, c ∈ a.claims → P s → P (s.step a c))
    (hreport : ∀ s, P s → P { s with warnings := s.warnings ++ a.inheritance.2 })
    (hbase : ∀ s derived base, (base, derived) ∈ a.inheritance.1.edges → P s →
      P (s.addBase a a.inheritance.1 derived base))
    {done rest : List LinkAct} (hacts : a.linkActs = done ++ rest) : P (a.after done) := by
  refine List.foldlRecOn (motive := P) done a.perform hinit fun s hs act hact => ?_
  -- an act that has been performed is one of all, so it is about a claim or a recorded relation
  have hact : act ∈ a.linkActs := by
    rw [hacts]
    exact List.mem_append_left _ hact
  simp only [linkActs, List.mem_append, List.mem_map, List.mem_cons, List.mem_flatMap] at hact
  rcases hact with ⟨c, hc, rfl⟩ | rfl | ⟨x, -, b, hb, rfl⟩
  · exact hdecide s c hc hs
  · exact hreport s hs
  · exact hbase s x b (Inheritance.mem_bases.mp hb) hs

/-! ### The invariant -/

/-- What holds of the links at any time. -/
structure Sound (a : Arena) (h : Hierarchy) : Prop where
  sameCollection : ∀ {p c}, h.IsParent p c →
    ∃ k, a.collectionOf? p = some k ∧ a.collectionOf? c = some k
  ofClass : ∀ {p c}, h.IsParent p c → a.collectionOf? c = some .classes →
    (p, c) ∈ a.inheritance.1.edges ∧ ¬ a.inheritance.1.DerivesFrom p c
  ofOther : ∀ {p c}, h.IsParent p c → a.collectionOf? c ≠ some .classes → h.parent? c = some p
  acyclicOther : ∀ {x}, a.collectionOf? x ≠ some .classes → ¬ Relation.TransGen h.IsParent x x

/-- Nothing is wrong before the first act. -/
theorem sound_nil (a : Arena) : a.Sound [] where
  sameCollection hlink := absurd hlink Hierarchy.not_isParent_nil
  ofClass hlink := absurd hlink Hierarchy.not_isParent_nil
  ofOther hlink := absurd hlink Hierarchy.not_isParent_nil
  acyclicOther {x} _ := Hierarchy.acyclic_nil x

namespace Sound

/-- A child is in the collection of its parent. -/
theorem collectionOf?_eq (hs : a.Sound h) (hpc : h.IsParent p c) :
    a.collectionOf? p = a.collectionOf? c := by
  obtain ⟨k, hp, hc⟩ := hs.sameCollection hpc
  rw [hp, hc]

/-- Going down leaves no collection. -/
theorem collectionOf?_eq_of_reflTransGen (hs : a.Sound h)
    (hyx : Relation.ReflTransGen h.IsParent y x) : a.collectionOf? y = a.collectionOf? x := by
  induction hyx with
  | refl => rfl
  | tail _ hlink ih => rw [ih, hs.collectionOf?_eq hlink]

theorem lt_of_isParent (hs : a.Sound h) (hpc : h.IsParent p c) : p < a.objects.length := by
  obtain ⟨_, hp, _⟩ := hs.sameCollection hpc
  exact lt_of_collectionOf? hp

/-- A class derives from every class above it. -/
theorem derivesFrom_of_transGen (hs : a.Sound h) (hx : a.collectionOf? x = some .classes)
    (hyx : Relation.TransGen h.IsParent y x) : a.inheritance.1.DerivesFrom x y := by
  induction hyx with
  | single hlink => exact Relation.TransGen.single (hs.ofClass hlink hx).1
  | tail _ hlink ih =>
    have hz := (hs.collectionOf?_eq hlink).trans hx
    exact Relation.TransGen.head (hs.ofClass hlink hx).1 (ih hz)

/-- **No object is above itself.**  A link on a cycle of classes would lead to a class from which
its base derives. -/
theorem acyclic (hs : a.Sound h) : h.Acyclic := by
  intro x hxx
  by_cases hx : a.collectionOf? x = some .classes
  · -- the first link of the cycle leads from `x` to `c`, and the rest from `c` back to `x`
    obtain ⟨c, hxc, hcx⟩ := Relation.TransGen.head'_iff.mp hxx
    have hc := (hs.collectionOf?_eq hxc).symm.trans hx
    obtain ⟨hedge, hfree⟩ := hs.ofClass hxc hc
    rcases Relation.reflTransGen_iff_eq_or_transGen.mp hcx with rfl | hcx
    · exact (classes_of_mem_edges hedge).1 rfl
    · exact hfree (hs.derivesFrom_of_transGen hx hcx)
  · exact hs.acyclicOther hx hxx

/-- **Walks end**, and have no more steps than there are objects. -/
theorem lineage_chain (hs : a.Sound h) (x : Nat) :
    h.Lineage x (h.chain x) ∧ (h.chain x).length ≤ a.objects.length :=
  ⟨hs.acyclic.lineage x, hs.acyclic.length_chain_le (fun _ _ hpc => hs.lt_of_isParent hpc) x⟩

/-- The chain of an object that is no class holds all that is above it. -/
theorem mem_chain_of_transGen (hs : a.Sound h) (hx : a.collectionOf? x ≠ some .classes)
    (hyx : Relation.TransGen h.IsParent y x) : y ∈ h.chain x := by
  refine (hs.acyclic.lineage x).mem_of_transGen (P := fun z => a.collectionOf? z ≠ some .classes)
    hx (fun p c hpc hc => ?_) hyx
  exact ⟨fun hp => hc ((hs.collectionOf?_eq hpc).symm.trans hp), hs.ofOther hpc hc⟩

end Sound

/-! ### Each act keeps it -/

/-- When a claim is accepted. -/
theorem decide_eq_accepted_iff {c : Claim} :
    a.decide h c = .accepted x
      ↔ a.resolve c = .ok x ∧ h.parent? x = none ∧ x ≠ c.claimant ∧ x ∉ h.chain c.claimant := by
  -- A claim passes three tests: its object is found, has no parent, and is not above the claimant.
  unfold decide
  cases hr : a.resolve c with
  | error w => simp
  | ok child =>
    rw [Except.ok.injEq]
    dsimp only
    constructor
    · intro hd
      split at hd
      · split at hd <;> simp at hd
      · rename_i hnone
        split at hd
        · simp at hd
        · rename_i hcycle
          obtain rfl := Decision.accepted.inj hd
          simp only [Bool.or_eq_true, decide_eq_true_eq, List.contains_iff_mem, not_or] at hcycle
          exact ⟨rfl, hnone, hcycle⟩
    · rintro ⟨rfl, hnone, hne, hchain⟩
      simp [hnone, hne, hchain]

/-- **A further link keeps the links sound** if it stays within a collection.  On a class it has to
be a relation that lies on no cycle, and on any other object it has to be the first, of a parent
that is not below the object. -/
theorem Sound.append (hs : a.Sound h)
    (hsame : ∃ k, a.collectionOf? p = some k ∧ a.collectionOf? c = some k)
    (hclass : a.collectionOf? c = some .classes →
      (p, c) ∈ a.inheritance.1.edges ∧ ¬ a.inheritance.1.DerivesFrom p c)
    (hother : a.collectionOf? c ≠ some .classes →
      h.parent? c = none ∧ c ≠ p ∧ c ∉ h.chain p) : a.Sound (h ++ [⟨p, c⟩]) where
  sameCollection hlink := by
    rcases Hierarchy.isParent_append_singleton.mp hlink with hlink | ⟨rfl, rfl⟩
    · exact hs.sameCollection hlink
    · exact hsame
  ofClass hlink hd := by
    rcases Hierarchy.isParent_append_singleton.mp hlink with hlink | ⟨rfl, rfl⟩
    · exact hs.ofClass hlink hd
    · exact hclass hd
  ofOther hlink hd := by
    rcases Hierarchy.isParent_append_singleton.mp hlink with hlink | ⟨rfl, rfl⟩
    · exact Hierarchy.parent?_append_of_eq_some (hs.ofOther hlink hd)
    · exact Hierarchy.parent?_append_singleton (hother hd).1
  acyclicOther hx hxx := by
    rcases Hierarchy.transGen_append hxx with hxx | ⟨hxp, hcx⟩
    · exact hs.acyclicOther hx hxx
    · have hp : a.collectionOf? p ≠ some .classes := by
        rwa [← hs.collectionOf?_eq_of_reflTransGen hxp]
      have hc : a.collectionOf? c ≠ some .classes := by
        rwa [hs.collectionOf?_eq_of_reflTransGen hcx]
      -- a way back from `c` to `p` makes `c` one of those above `p`
      obtain ⟨-, hne, hchain⟩ := hother hc
      rcases Relation.reflTransGen_iff_eq_or_transGen.mp (hcx.trans hxp) with heq | hcp
      · exact hne heq.symm
      · exact hchain (hs.mem_chain_of_transGen hp hcp)

/-- **Deciding on a claim keeps the links sound.** -/
theorem Sound.step (ha : a.IsWrapped) {s : Progress} (hs : a.Sound s.links) {c : Claim}
    (hc : c ∈ a.claims) : a.Sound (s.step a c).links := by
  unfold Progress.step
  split
  · rename_i x hd
    obtain ⟨hx, hnone, hne, hchain⟩ := decide_eq_accepted_iff.mp hd
    obtain ⟨k, hclaimant, hk⟩ := ha.claimant_of_mem_claims hc
    have hchild : a.collectionOf? x = some k := collectionOf?_of_resolve hclaimant hx
    -- the child is no class, since claims stay within the collection of the claimant
    refine hs.append ⟨k, hclaimant, hchild⟩ (fun hclass => ?_) fun _ => ⟨hnone, hne, hchain⟩
    rw [hchild, Option.some.injEq] at hclass
    exact absurd hclass hk
  · exact hs
  · exact hs

/-- **Making a class a child of a base keeps the links sound.** -/
theorem Sound.addBase {s : Progress} (hs : a.Sound s.links) {derived base : Nat}
    (hedge : (base, derived) ∈ a.inheritance.1.edges) :
    a.Sound (s.addBase a a.inheritance.1 derived base).links := by
  unfold Progress.addBase
  split
  · exact hs
  · rename_i hfree
    obtain ⟨hne, hbase, hderived⟩ := classes_of_mem_edges hedge
    refine hs.append ⟨.classes, hbase, hderived⟩ (fun _ => ⟨hedge, fun hd => ?_⟩)
      fun hother => absurd hderived hother
    exact hfree (Inheritance.isAncestor_iff.mpr ⟨hne.symm, hd⟩)

/-- **The links are sound whenever linking is interrupted.** -/
theorem sound_after (ha : a.IsWrapped) {done rest : List LinkAct}
    (hacts : a.linkActs = done ++ rest) : a.Sound (a.after done).links := by
  refine after_induction (P := fun s => a.Sound s.links) (sound_nil a) ?_ ?_ ?_ hacts
  · exact fun s c hc hs => hs.step ha hc
  · exact fun s hs => hs
  · exact fun s derived base hedge hs => hs.addBase hedge

/-- The links are sound in the end. -/
theorem sound_link (ha : a.IsWrapped) : a.Sound a.link.1 := by
  rw [link_eq_after]
  exact sound_after ha (List.append_nil _).symm

/-! ### Warnings -/

end Arena

/-- Whether a warning is about a permalink that an object does not have. -/
def LinkProblem.isRenaming : LinkProblem → Bool
  | .duplicatePermalink .. => true
  | _ => false

namespace Arena

variable {a : Arena} {h : Hierarchy} {w : LinkProblem}

theorem isRenaming_of_resolve {c : Claim} (hw : a.resolve c = .error w) :
    w.isRenaming = false := by
  rcases eq_of_resolve_eq_error hw with ⟨source, rfl⟩ | ⟨expected, found, rfl⟩
  · rfl
  · rfl

theorem isRenaming_of_decide {c : Claim} (hw : a.decide h c = .refused w) :
    w.isRenaming = false := by
  unfold decide at hw
  split at hw
  · rename_i hr
    obtain rfl := Decision.refused.inj hw
    exact isRenaming_of_resolve hr
  · split at hw
    · split at hw
      · simp at hw
      · obtain rfl := Decision.refused.inj hw
        rfl
    · split at hw
      · obtain rfl := Decision.refused.inj hw
        rfl
      · simp at hw

theorem isRenaming_of_mem_recordClaims {edge : Nat → Nat → Nat × Nat} {claims : List Claim}
    {g : Inheritance × List LinkProblem} (hg : ∀ w ∈ g.2, w.isRenaming = false) :
    ∀ w ∈ (a.recordClaims edge claims g).2, w.isRenaming = false := by
  refine List.foldlRecOn
    (motive := fun (g : Inheritance × List LinkProblem) => ∀ w ∈ g.2, w.isRenaming = false)
    claims _ hg fun g hg c _ => ?_
  dsimp only
  split
  · exact hg
  · rename_i w hw
    exact List.forall_mem_append.mpr ⟨hg, by simpa using isRenaming_of_resolve hw⟩

/-- Linking itself makes no warnings about permalinks. -/
theorem isRenaming_of_mem_link : ∀ w ∈ a.link.2.2, w.isRenaming = false := by
  rw [link_eq_after]
  refine after_induction (P := fun s => ∀ w ∈ s.warnings, w.isRenaming = false) (by simp)
    ?_ ?_ ?_ (List.append_nil _).symm
  -- what a claim, the lists of bases and the choice of a base each add to the warnings
  · intro s c _ hs
    unfold Progress.step
    split
    · exact hs
    · exact hs
    · rename_i w hw
      exact List.forall_mem_append.mpr ⟨hs, by simpa using isRenaming_of_decide hw⟩
  · intro s hs
    exact List.forall_mem_append.mpr ⟨hs,
      isRenaming_of_mem_recordClaims (isRenaming_of_mem_recordClaims (by simp))⟩
  · intro s derived base _ hs
    unfold Progress.addBase
    split
    · exact List.forall_mem_append.mpr ⟨hs, by simp [LinkProblem.isRenaming]⟩
    · exact hs

/-! ### No cycles -/

/-- **Linking never makes an object its own ancestor**, neither in the end nor at any time before:
whichever acts have been performed, each walk from parent to parent ends at an object that has none,
after at most as many steps as there are objects, so the chain consulted for the next claim is the
whole walk.  In the end no object is its own descendant either, by any of its parents. -/
theorem link_acyclic (a : Arena) (ha : a.IsWrapped) :
    a.link.1 = (a.after a.linkActs).links
      ∧ (∀ done rest, a.linkActs = done ++ rest →
          (∀ x, ¬ Relation.TransGen (fun p c => (a.after done).links.parent? c = some p) x x)
          ∧ ∀ x, (a.after done).links.Lineage x ((a.after done).links.chain x)
            ∧ ((a.after done).links.chain x).length ≤ a.objects.length)
      ∧ ∀ x, ¬ Relation.TransGen (fun p c => c ∈ a.link.1.children p) x x := by
  refine ⟨by rw [link_eq_after], fun done rest hacts => ⟨fun x hxx => ?_, fun x => ?_⟩,
    fun x hxx => ?_⟩
  · refine (sound_after ha hacts).acyclic x (Relation.TransGen.mono ?_ x x hxx)
    exact fun p c hp => Hierarchy.isParent_of_parent? hp
  · exact (sound_after ha hacts).lineage_chain x
  · refine (sound_link ha).acyclic x (Relation.TransGen.mono ?_ x x hxx)
    exact fun p c hc => Hierarchy.mem_children.mp hc

/-- A group that claims others as nested in it. -/
def claimingGroup (id : String) (claims : List String) : Object :=
  let inner : List InnerRef := claims.map (⟨.groups, ·, none, false, ""⟩)
  let d : CompoundDef := { id := id, kind := "group", name := id, inner := inner }
  Object.ofCompound {} d .group 0

theorem isWrapped_claimingGroup (id : String) (claims : List String) :
    (claimingGroup id claims).IsWrapped := ⟨_, _, _, _, rfl⟩

/-- A class that lists some bases. -/
def derivedClass (id : String) (bases : List String) : Object :=
  let bases : List CompoundRef := bases.map (⟨some ·, "", "", ""⟩)
  let d : CompoundDef := { id := id, kind := "class", name := id, bases := bases }
  Object.ofCompound {} d (.classLike "class") 0

theorem isWrapped_derivedClass (id : String) (bases : List String) :
    (derivedClass id bases).IsWrapped := ⟨_, _, _, _, rfl⟩

/-- Two groups that claim each other, one of them also itself and the other one twice, and classes
two of which derive from each other and from both of which the third derives. -/
def tangled : Arena where
  document := {}
  objects := [claimingGroup "g" ["g", "h", "h"], claimingGroup "h" ["g"], derivedClass "a" ["b"],
    derivedClass "b" ["a"], derivedClass "c" ["b", "a"]]

theorem tangled_isWrapped : tangled.IsWrapped := by
  simp [IsWrapped, tangled, isWrapped_claimingGroup, isWrapped_derivedClass]

set_option maxRecDepth 2000 in
/-- Among these, one group and one class have parents, and the class has two. -/
theorem link_acyclic_tangled :
    tangled.IsWrapped ∧ tangled.link.1 = [⟨0, 1⟩, ⟨3, 4⟩, ⟨2, 4⟩]
      ∧ (∀ done rest, tangled.linkActs = done ++ rest →
          (∀ x, ¬ Relation.TransGen
            (fun p c => (tangled.after done).links.parent? c = some p) x x)
          ∧ ∀ x, (tangled.after done).links.Lineage x ((tangled.after done).links.chain x)
            ∧ ((tangled.after done).links.chain x).length ≤ tangled.objects.length)
      ∧ ∀ x, ¬ Relation.TransGen (fun p c => c ∈ tangled.link.1.children p) x x :=
  ⟨tangled_isWrapped, by decide, (link_acyclic tangled tangled_isWrapped).2⟩

end Arena

end DocGraph
