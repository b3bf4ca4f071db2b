import DocGraph.Proofs.Linking

namespace DocGraph

/-!
# Decisions on claims

Claims on children are decided on one after the other, each by what has been accepted before it, and
every claim counts once:

* `Arena.MayClaim`, `Arena.Objection`, `Arena.Settles` — what a claim has to meet, what may be wrong
  with it, and what becomes of it;
* `Hierarchy.IsForest` — each object has one parent and none is above itself, so that the chain of
  an object is all that is above it (`Hierarchy.IsForest.acyclic_append_iff`);
* `Arena.Tidy` — the invariant: links make a forest and stay within a collection;
* `Arena.Tidy.decide_eq_iff`, `Arena.Tidy.step` — as long as they do, a decision is what settles the
  claim, and carrying it out keeps the links tidy;
* `Arena.decisionsFrom`, `granted`, `reported` — all decisions, and the links and warnings that they
  come to;
* `Arena.linkChildren_settles` — the main statement.
-/

/-! ### Forests -/

namespace Hierarchy

variable {h : Hierarchy} {p x y : Nat}

/-- Each object has one parent, and none is above itself. -/
structure IsForest (h : Hierarchy) : Prop where
  parent? : ∀ p c, h.IsParent p c → h.parent? c = some p
  acyclic : h.Acyclic

theorem isForest_nil : IsForest [] where
  parent? _ _ hlink := absurd hlink not_isParent_nil
  acyclic := acyclic_nil

namespace IsForest

/-- **The chain of an object** is all that is above it. -/
theorem mem_chain_iff (hf : h.IsForest) : y ∈ h.chain x ↔ Relation.TransGen h.IsParent y x := by
  constructor
  · exact transGen_of_mem_chainFrom
  · exact (hf.acyclic.lineage x).mem_of_transGen (P := fun _ => True) trivial
      fun p c hlink _ => ⟨trivial, hf.parent? p c hlink⟩

/-- **A further link makes no object its own ancestor** unless its child is its parent, or above
that. -/
theorem acyclic_append_iff (hf : h.IsForest) :
    Acyclic (h ++ [⟨p, x⟩]) ↔ x ≠ p ∧ x ∉ h.chain p := by
  have hnew : IsParent (h ++ [⟨p, x⟩]) p x := isParent_append_singleton.mpr (Or.inr ⟨rfl, rfl⟩)
  constructor
  · intro hacyclic
    constructor
    · rintro rfl
      exact hacyclic _ (Relation.TransGen.single hnew)
    · intro hchain
      -- from `x` down to `p` by the old links, and back by the new one
      have habove : Relation.TransGen (IsParent (h ++ [⟨p, x⟩])) x p :=
        Relation.TransGen.mono (fun q y hlink => isParent_append_singleton.mpr (Or.inl hlink)) x p
          (hf.mem_chain_iff.mp hchain)
      exact hacyclic x (habove.tail hnew)
  · rintro ⟨hne, hchain⟩ y hyy
    rcases transGen_append hyy with hyy | ⟨hyp, hxy⟩
    · exact hf.acyclic y hyy
    · rcases Relation.reflTransGen_iff_eq_or_transGen.mp (hxy.trans hyp) with heq | hxp
      · exact hne heq.symm
      · exact hchain (hf.mem_chain_iff.mpr hxp)

/-- A further link on an object without a parent keeps the forest, if it closes no cycle. -/
theorem append (hf : h.IsForest) (hnone : h.parent? x = none)
    (hacyclic : Acyclic (h ++ [⟨p, x⟩])) : IsForest (h ++ [⟨p, x⟩]) where
  parent? q c hlink := by
    rcases isParent_append_singleton.mp hlink with hlink | ⟨rfl, rfl⟩
    · exact parent?_append_of_eq_some (hf.parent? q c hlink)
    · exact parent?_append_singleton hnone
  acyclic := hacyclic

end IsForest

end Hierarchy

/-! ### What becomes of a claim -/

namespace Arena

variable {a : Arena} {h : Hierarchy} {c : Claim} {d : Decision} {k : Collection} {x : Nat}

/-- A claim is on an object that is known and in the collection of the claimant. -/
def MayClaim (a : Arena) (c : Claim) (x : Nat) : Prop :=
  a.lookup? c.target = some x ∧ a.collectionOf? x = a.collectionOf? c.claimant

/-- What is wrong with a claim after some links: the first of these. -/
inductive Objection (a : Arena) (h : Hierarchy) (c : Claim) : LinkProblem → Prop
  /-- Nothing is known by the id. -/
  | unresolved : a.lookup? c.target = none →
    Objection a h c (.unresolvedReference (some (a.idOf c.claimant)) c.target .compound)
  /-- The object is in another collection. -/
  | crossCollection {x : Nat} {expected found : Collection} :
    a.lookup? c.target = some x → a.collectionOf? c.claimant = some expected →
    a.collectionOf? x = some found → found ≠ expected →
    Objection a h c (.crossCollectionChild (a.idOf c.claimant) c.target expected found)
  /-- The object has another parent. -/
  | multipleParents {x q : Nat} : a.MayClaim c x → h.parent? x = some q → q ≠ c.claimant →
    Objection a h c (.multipleParents (a.idOf x) (a.idOf q) (a.idOf c.claimant))
  /-- The link would make an object its own ancestor. -/
  | parentCycle {x : Nat} : a.MayClaim c x → h.parent? x = none →
    ¬ Hierarchy.Acyclic (h ++ [⟨c.claimant, x⟩]) →
    Objection a h c (.parentCycle (a.idOf c.claimant) (a.idOf x))

/-- **What becomes of a claim** after some links. -/
def Settles (a : Arena) (h : Hierarchy) (c : Claim) : Decision → Prop
  | .accepted x =>
    a.MayClaim c x ∧ h.parent? x = none ∧ Hierarchy.Acyclic (h ++ [⟨c.claimant, x⟩])
  | .repeated => ∃ x, a.lookup? c.target = some x ∧ h.parent? x = some c.claimant
  | .refused w => a.Objection h c w

/-- An object that may be claimed is the one that the claim is about. -/
theorem MayClaim.resolve_eq (hx : a.MayClaim c x) : a.resolve c = .ok x := by
  unfold resolve
  simp only [hx.1, hx.2]
  cases a.collectionOf? c.claimant with
  | none => rfl
  | some k => exact if_pos rfl

/-- Something becomes of every claim. -/
theorem exists_settles (a : Arena) (h : Hierarchy) (hk : a.collectionOf? c.claimant = some k) :
    ∃ d, a.Settles h c d := by
  -- The tests in the order of their precedence; each that fails gives the reason it stands for.
  cases hlookup : a.lookup? c.target with
  | none => exact ⟨.refused _, .unresolved hlookup⟩
  | some x =>
    obtain ⟨found, hfound⟩ := exists_collectionOf? (lookup?_lt hlookup)
    by_cases hsame : found = k
    · subst hsame
      have hx : a.MayClaim c x := ⟨hlookup, hfound.trans hk.symm⟩
      cases hp : h.parent? x with
      | some q =>
        by_cases hq : q = c.claimant
        · exact ⟨.repeated, x, hlookup, hq ▸ hp⟩
        · exact ⟨.refused _, .multipleParents hx hp hq⟩
      | none =>
        by_cases hacyclic : Hierarchy.Acyclic (h ++ [⟨c.claimant, x⟩])
        · exact ⟨.accepted x, hx, hp, hacyclic⟩
        · exact ⟨.refused _, .parentCycle hx hp hacyclic⟩
    · exact ⟨.refused _, .crossCollection hlookup hk hfound hsame⟩

/-- Links that make a forest and stay within a collection. -/
structure Tidy (a : Arena) (h : Hierarchy) : Prop where
  isForest : h.IsForest
  sameCollection : ∀ p c, h.IsParent p c → a.collectionOf? c = a.collectionOf? p

theorem tidy_nil (a : Arena) : a.Tidy [] where
  isForest := Hierarchy.isForest_nil
  sameCollection _ _ hlink := absurd hlink Hierarchy.not_isParent_nil

namespace Tidy

/-- What settles a claim is the decision on it. -/
theorem decide_eq_of_settles (ht : a.Tidy h) (hd : a.Settles h c d) : a.decide h c = d := by
  cases d with
  | accepted x =>
    obtain ⟨hx, hnone, hacyclic⟩ := hd
    exact decide_eq_accepted_iff.mpr
      ⟨hx.resolve_eq, hnone, ht.isForest.acyclic_append_iff.mp hacyclic⟩
  | repeated =>
    obtain ⟨x, hlookup, hp⟩ := hd
    have hx : a.MayClaim c x :=
      ⟨hlookup, ht.sameCollection _ _ (Hierarchy.isParent_of_parent? hp)⟩
    simp [decide, hx.resolve_eq, hp]
  | refused w =>
    cases hd with
    | unresolved hlookup => simp [decide, resolve, hlookup]
    | crossCollection hlookup hk hfound hne => simp [decide, resolve, hlookup, hk, hfound, hne]
    | multipleParents hx hp hne => simp [decide, hx.resolve_eq, hp, hne]
    | @parentCycle x hx hnone hcycle =>
      -- a link that closes a cycle goes to the claimant itself or to one above it
      rw [ht.isForest.acyclic_append_iff] at hcycle
      have habove : x = c.claimant ∨ x ∈ h.chain c.claimant := by
        by_contra hnot
        exact hcycle (not_or.mp hnot)
      simp [decide, hx.resolve_eq, hnone, habove]

/-- **A decision** is what settles the claim. -/
theorem decide_eq_iff (ht : a.Tidy h) (hk : a.collectionOf? c.claimant = some k) :
    a.decide h c = d ↔ a.Settles h c d := by
  constructor
  · rintro rfl
    obtain ⟨d, hd⟩ := exists_settles a h hk
    rwa [ht.decide_eq_of_settles hd]
  · exact ht.decide_eq_of_settles

/-- **Deciding on a claim keeps the links tidy.** -/
theorem step {s : Progress} (ht : a.Tidy s.links) (hk : a.collectionOf? c.claimant = some k) :
    a.Tidy (s.step a c).links := by
  unfold Progress.step
  split
  -- Only an accepted claim links, and it was decided so that the links stay tidy.
  · rename_i x hd
    obtain ⟨hx, hnone, hfree⟩ := decide_eq_accepted_iff.mp hd
    refine ⟨ht.isForest.append hnone (ht.isForest.acyclic_append_iff.mpr hfree),
      fun q y hlink => ?_⟩
    rcases Hierarchy.isParent_append_singleton.mp hlink with hlink | ⟨rfl, rfl⟩
    · exact ht.sameCollection q y hlink
    · rw [collectionOf?_of_resolve hk hx, hk]
  · exact ht
  · exact ht

end Tidy

/-- Whoever makes a claim belongs to a collection. -/
theorem exists_collectionOf?_claimant (hc : c ∈ a.claims) :
    ∃ k, a.collectionOf? c.claimant = some k := by
  obtain ⟨o, ho, -⟩ := mem_claimsOf_iff.mp hc
  exact ⟨o.collection, collectionOf?_eq_some_iff.mpr ⟨o, ho, rfl⟩⟩

/-- The links stay tidy over claims. -/
theorem tidy_foldl_step {claims : List Claim} (hclaims : ∀ c ∈ claims, c ∈ a.claims) :
    a.Tidy (claims.foldl (Progress.step a) {}).links := by
  refine List.foldlRecOn (motive := fun s : Progress => a.Tidy s.links) claims _ (tidy_nil a)
    fun s hs c hc => ?_
  obtain ⟨k, hk⟩ := exists_collectionOf?_claimant (hclaims c hc)
  exact hs.step hk

end Arena

/-! ### All decisions -/

/-- The link that a decision makes of a claim. -/
def Decision.link? (c : Claim) : Decision → Option Link
  | .accepted x => some ⟨c.claimant, x⟩
  | _ => none

/-- The warning that a decision makes. -/
def Decision.problem? : Decision → Option LinkProblem
  | .refused w => some w
  | _ => none

/-- The links that decisions make of claims. -/
def granted (claims : List Claim) (decisions : List Decision) : Hierarchy :=
  (claims.zip decisions).filterMap fun (c, d) => d.link? c

/-- The warnings that decisions make. -/
def reported (decisions : List Decision) : List LinkProblem := decisions.filterMap Decision.problem?

@[simp] theorem granted_nil (decisions : List Decision) : granted [] decisions = [] := rfl

/-- What is granted to the first claim comes first. -/
@[simp] theorem granted_cons (c : Claim) (claims : List Claim) (d : Decision)
    (decisions : List Decision) :
    granted (c :: claims) (d :: decisions) = (d.link? c).toList ++ granted claims decisions := by
  cases d <;> rfl

@[simp] theorem reported_nil : reported [] = [] := rfl

@[simp] theorem reported_cons (d : Decision) (decisions : List Decision) :
    reported (d :: decisions) = d.problem?.toList ++ reported decisions := by
  cases d <;> rfl

/-- Each claim is a link, a repetition or a warning. -/
theorem length_granted_add {claims : List Claim} {decisions : List Decision}
    (hlen : decisions.length = claims.length) :
    claims.length
      = (granted claims decisions).length + decisions.count .repeated
        + (reported decisions).length := by
  induction claims generalizing decisions with
  | nil =>
    obtain rfl := List.length_eq_zero_iff.mp hlen
    rfl
  | cons c claims ih =>
    cases decisions with
    | nil => simp at hlen
    | cons d decisions =>
      have hrest := ih (by simpa using hlen)
      cases d <;> simp [Decision.link?, Decision.problem?] <;> omega

namespace Arena

variable {a : Arena} {s : Progress} {claims : List Claim}

/-- The decisions on claims, each after those before it. -/
def decisionsFrom (a : Arena) (s : Progress) : List Claim → List Decision
  | [] => []
  | c :: rest => a.decide s.links c :: a.decisionsFrom (s.step a c) rest

/-- There is one decision for each claim. -/
theorem length_decisionsFrom (a : Arena) (s : Progress) (claims : List Claim) :
    (a.decisionsFrom s claims).length = claims.length := by
  induction claims generalizing s with
  | nil => rfl
  | cons c rest ih => rw [decisionsFrom, List.length_cons, List.length_cons, ih]

/-- The first decisions are those on the first claims. -/
theorem decisionsFrom_take (a : Arena) (s : Progress) (claims : List Claim) (i : Nat) :
    a.decisionsFrom s (claims.take i) = (a.decisionsFrom s claims).take i := by
  induction claims generalizing s i with
  | nil => simp [decisionsFrom]
  | cons c rest ih =>
    cases i with
    | zero => rfl
    | succ i => rw [decisionsFrom, List.take_succ_cons, List.take_succ_cons, decisionsFrom, ih]

/-- **Decisions come to links and warnings**, each in the order of claims. -/
theorem foldl_step (a : Arena) (s : Progress) (claims : List Claim) :
    claims.foldl (Progress.step a) s
      = ⟨s.links ++ granted claims (a.decisionsFrom s claims),
        s.warnings ++ reported (a.decisionsFrom s claims)⟩ := by
  induction claims generalizing s with
  | nil => simp [decisionsFrom]
  | cons c rest ih =>
    rw [List.foldl_cons, ih, decisionsFrom, Progress.step]
    cases a.decide s.links c <;> simp [Decision.link?, Decision.problem?]

/-- Each decision is made after those before it. -/
theorem getElem?_decisionsFrom (a : Arena) (s : Progress) {i : Nat} {c : Claim}
    (hc : claims[i]? = some c) :
    (a.decisionsFrom s claims)[i]?
      = some (a.decide ((claims.take i).foldl (Progress.step a) s).links c) := by
  induction claims generalizing s i with
  | nil => simp at hc
  | cons c' rest ih =>
    rw [decisionsFrom]
    cases i with
    | zero =>
      obtain rfl : c' = c := by simpa using hc
      rfl
    | succ i =>
      rw [List.getElem?_cons_succ, List.take_succ_cons, List.foldl_cons]
      exact ih _ (by simpa using hc)

/-- **Every claim on a child is decided on once**, in the order of claimants and of the ids that
each lists, by the links accepted before it.  The links accepted and the warnings are all that comes
of the claims, apart from repetitions; and an object that has a parent at any time keeps it. -/
theorem linkChildren_settles (a : Arena) :
    let claims := a.objects.zipIdx.flatMap fun (o, p) => o.childIds.map fun id => Claim.mk p id
    ∃ decisions : List Decision, decisions.length = claims.length
      ∧ (∀ i c, claims[i]? = some c → ∀ d, decisions[i]? = some d
          ↔ a.Settles (granted (claims.take i) (decisions.take i)) c d)
      ∧ a.linkChildren = ⟨granted claims decisions, reported decisions⟩
      ∧ claims.length = a.linkChildren.links.length + decisions.count .repeated
          + a.linkChildren.warnings.length
      ∧ ∀ i x p, (granted (claims.take i) (decisions.take i)).parent? x = some p →
          a.linkChildren.links.parent? x = some p := by
  intro claims
  have hlen : (a.decisionsFrom {} claims).length = claims.length := length_decisionsFrom a {} claims
  have hlinked : a.linkChildren
      = ⟨granted claims (a.decisionsFrom {} claims), reported (a.decisionsFrom {} claims)⟩ := by
    rw [linkChildren, foldl_step]
    rfl
  -- What stands when a claim is decided comes of the claims before it.
  have hbefore : ∀ i, ((claims.take i).foldl (Progress.step a) {}).links
      = granted (claims.take i) ((a.decisionsFrom {} claims).take i) := by
    intro i
    rw [foldl_step, decisionsFrom_take]
    rfl
  refine ⟨a.decisionsFrom {} claims, hlen, fun i c hc d => ?_, hlinked, ?_, fun i x p hp => ?_⟩
  · have htidy : a.Tidy ((claims.take i).foldl (Progress.step a) {}).links :=
      tidy_foldl_step fun c hc => List.mem_of_mem_take hc
    obtain ⟨k, hk⟩ := exists_collectionOf?_claimant (List.mem_of_getElem? hc : c ∈ a.claims)
    rw [getElem?_decisionsFrom a {} hc, Option.some.injEq, htidy.decide_eq_iff hk, hbefore]
  · rw [hlinked]
    exact length_granted_add hlen
  · -- what is accepted later stands behind what was accepted before
    have hall : a.linkChildren
        = (claims.take i ++ claims.drop i).foldl (Progress.step a) {} := by
      rw [List.take_append_drop]
      rfl
    rw [hall, List.foldl_append, foldl_step a _ (claims.drop i), hbefore]
    exact Hierarchy.parent?_append_of_eq_some hp

end Arena

end DocGraph
