import DocGraph.Graph.Permalinks
import DocGraph.Proofs.Linking

namespace DocGraph

/-!
# Depths, whatever the order of objects

Depths are found by walks up from one object after the other.  A walk ends at a root or at an object
whose depth is known, and makes the depths of all that it passed known.  It need not end where
objects are above themselves.

* `Depths.of?_record`, `Depths.exists_of?_record` — what is known when a walk has been recorded;
* `Arena.HasDepth` — the depth that the parents of an object give it, if they end;
* `Arena.Climbs`, `Arena.Fathoms` — a walk, and the walks of some objects, that go on for as many
  steps as it takes; `Arena.fathoms_foldl` says that they end where the parents of objects do;
* `Arena.Trail`, `Arena.Climbs.trail` — what holds of a walk between any two of its steps, and in
  the end;
* `Arena.Charted` — what holds of the depths known between any two walks: they are right, and those
  of the objects served are among them.  `Arena.Charted.fathom` is the step and
  `Arena.Fathoms.charted` the run;
* `Arena.depth_of_parentsAcyclic` — hence an object is one deeper than the parent beneath whose
  permalink its own lies;
* `Arena.depths_settled` — the main statement.
-/

/-! ### Recording a walk -/

namespace Depths

variable {known : Depths} {passed : List Nat} {x y base depth : Nat}

/-- A depth is known if it is entered in the table. -/
theorem of?_eq_some_iff : known.of? x = some depth ↔ known[x]? = some (some depth) :=
  Option.join_eq_some_iff

/-- An entry for one object changes what is known of this object alone. -/
theorem of?_set (known : Depths) (x depth y : Nat) :
    of? (known.set x (some depth)) y
      = if x = y ∧ y < known.length then some depth else known.of? y := by
  simp only [of?, List.getElem?_set]
  by_cases hxy : x = y
  · subst hxy
    by_cases hx : x < known.length <;> simp [hx]
  · simp [hxy]

/-- Depths are recorded one by one, each one deeper than that before it. -/
theorem record_cons (known : Depths) (base x : Nat) (passed : List Nat) :
    known.record base (x :: passed) = record (known.set x (some base)) (base + 1) passed := rfl

/-- The table stays as long as it is. -/
@[simp] theorem length_record (known : Depths) (base : Nat) (passed : List Nat) :
    (known.record base passed).length = known.length := by
  induction passed generalizing known base with
  | nil => rfl
  | cons x passed ih => rw [record_cons, ih, List.length_set]

/-- What is known after a walk has just been recorded or was known before. -/
theorem of?_record (hy : (known.record base passed).of? y = some depth) :
    (y, depth) ∈ passed.zipIdx base ∨ known.of? y = some depth := by
  induction passed generalizing known base with
  | nil => exact Or.inr hy
  | cons x passed ih =>
    rw [List.zipIdx_cons]
    -- what is recorded behind `x` may take the place of what is recorded for `x`
    rcases ih hy with hmem | hset
    · exact Or.inl (List.mem_cons_of_mem _ hmem)
    · rw [of?_set] at hset
      split at hset
      · rename_i hxy
        obtain rfl := Option.some.inj hset
        obtain rfl := hxy.1
        exact Or.inl List.mem_cons_self
      · exact Or.inr hset

/-- What was known stays known, and what has been passed is known. -/
theorem exists_of?_record
    (hy : (∃ depth, known.of? y = some depth) ∨ y ∈ passed ∧ y < known.length) :
    ∃ depth, (known.record base passed).of? y = some depth := by
  induction passed generalizing known base with
  | nil => exact hy.resolve_right (by simp)
  | cons x passed ih =>
    rw [record_cons]
    refine ih ?_
    rw [of?_set, List.length_set]
    by_cases hxy : x = y ∧ y < known.length
    · -- then `y` is known from here on, whether or not it is passed again
      rw [if_pos hxy]
      exact Or.inl ⟨base, rfl⟩
    · rw [if_neg hxy]
      refine hy.imp_right fun ⟨hmem, hlt⟩ => ⟨?_, hlt⟩
      exact (List.mem_cons.mp hmem).resolve_left fun heq => hxy ⟨heq.symm, hlt⟩

end Depths

namespace Arena

variable {a : Arena} {h : Hierarchy} {known result : Depths} {next : Option Nat}
variable {x p base depth depth' : Nat} {passed done rest : List Nat} {walked : List Nat × Nat}

/-! ### The depth that the parents give -/

/-- Where a permalink lies beneath another one, it is that of the parent. -/
theorem parent?_of_nestingParent? (hp : a.nestingParent? h x = some p) : h.parent? x = some p := by
  unfold nestingParent? at hp
  split at hp
  · exact hp
  · simp at hp

/-- How many permalinks that of `x` lies beneath. -/
inductive HasDepth (a : Arena) (h : Hierarchy) : Nat → Nat → Prop
  | top {x : Nat} : a.nestingParent? h x = none → HasDepth a h x 0
  | beneath {x p depth : Nat} : a.nestingParent? h x = some p → HasDepth a h p depth →
      HasDepth a h x (depth + 1)

namespace HasDepth

/-- The depth of a permalink that lies beneath none is zero. -/
theorem eq_zero (hd : a.HasDepth h x depth) (hnone : a.nestingParent? h x = none) : depth = 0 := by
  cases hd with
  | top => rfl
  | beneath hp => simp [hnone] at hp

/-- Any other one is deeper than that above it, by one. -/
theorem exists_succ (hd : a.HasDepth h x depth) (hp : a.nestingParent? h x = some p) :
    ∃ above, depth = above + 1 ∧ a.HasDepth h p above := by
  cases hd with
  | top hnone => simp [hnone] at hp
  | beneath hq hd =>
    obtain rfl := Option.some.inj (hp.symm.trans hq)
    exact ⟨_, rfl, hd⟩

/-- **There is one depth at most.** -/
theorem unique (hd : a.HasDepth h x depth) (hd' : a.HasDepth h x depth') : depth = depth' := by
  induction hd generalizing depth' with
  | top hnone => exact (hd'.eq_zero hnone).symm
  | beneath hp _ ih =>
    obtain ⟨above, rfl, habove⟩ := hd'.exists_succ hp
    rw [ih habove]

end HasDepth

/-- The walk to the root is the longest that there can be. -/
theorem exists_hasDepth_of_lineage {ps : List Nat} (hl : h.Lineage x ps) :
    ∃ depth, a.HasDepth h x depth ∧ depth ≤ ps.length := by
  -- Along the lineage: nesting follows parents, but may stop before there are none.
  induction hl with
  | @root x hroot =>
    have hnone : a.nestingParent? h x = none := by
      by_contra hsome
      obtain ⟨p, hp⟩ := Option.ne_none_iff_exists'.mp hsome
      rw [parent?_of_nestingParent? hp] at hroot
      simp at hroot
    exact ⟨0, HasDepth.top hnone, Nat.le_refl 0⟩
  | @step x p ps hp _ ih =>
    cases hq : a.nestingParent? h x with
    | none => exact ⟨0, HasDepth.top hq, Nat.zero_le _⟩
    | some q =>
      obtain rfl : p = q := Option.some.inj (hp.symm.trans (parent?_of_nestingParent? hq))
      obtain ⟨depth, hd, hle⟩ := ih
      exact ⟨depth + 1, hd.beneath hq, Nat.succ_le_succ hle⟩

/-- **Where no object is above itself, all have a depth**, which is at most the number of links. -/
theorem exists_hasDepth (hacyclic : h.ParentsAcyclic) (x : Nat) :
    ∃ depth, a.HasDepth h x depth ∧ depth ≤ h.length := by
  obtain ⟨hl, hlen⟩ := hacyclic.lineage x
  obtain ⟨depth, hd, hle⟩ := exists_hasDepth_of_lineage (a := a) hl
  exact ⟨depth, hd, Nat.le_trans hle hlen⟩

/-! ### Walks that go on until they end -/

/-- A walk goes on from `next` until it ends.  What it yields then is all that it has passed, the
last one first, with the depth of that one. -/
inductive Climbs (a : Arena) (h : Hierarchy) (known : Depths) :
    Option Nat → List Nat → List Nat × Nat → Prop
  | root {passed : List Nat} : Climbs a h known none passed (passed, 0)
  | known {x depth : Nat} {passed : List Nat} : known.of? x = some depth →
      Climbs a h known (some x) passed (passed, depth + 1)
  | up {x : Nat} {passed : List Nat} {walked : List Nat × Nat} : known.of? x = none →
      Climbs a h known (a.nestingParent? h x) (x :: passed) walked →
      Climbs a h known (some x) passed walked

/-- The walks of one object after the other, each recorded when it has ended. -/
inductive Fathoms (a : Arena) (h : Hierarchy) : List Nat → Depths → Depths → Prop
  | done {known : Depths} : Fathoms a h [] known known
  | walk {x : Nat} {rest : List Nat} {known result : Depths} {walked : List Nat × Nat} :
      a.Climbs h known (some x) [] walked →
      Fathoms a h rest (known.record walked.2 walked.1) result →
      Fathoms a h (x :: rest) known result

/-- A walk with a bound on its steps ends at the first object if its depth is known, and otherwise
as the walk from the next one does. -/
theorem climbs_succ {steps : Nat}
    (hup : a.Climbs h known (a.nestingParent? h x) (x :: passed)
      (a.climb h known steps (a.nestingParent? h x) (x :: passed))) :
    a.Climbs h known (some x) passed (a.climb h known (steps + 1) (some x) passed) := by
  rw [climb]
  cases hx : known.of? x with
  | some depth => exact Climbs.known hx
  | none => exact Climbs.up hx hup

/-- **A walk ends** when it has taken one step more than its start is deep. -/
theorem HasDepth.climbs (hd : a.HasDepth h x depth) (known : Depths) (passed : List Nat)
    {steps : Nat} (hsteps : depth ≤ steps) :
    a.Climbs h known (some x) passed (a.climb h known (steps + 1) (some x) passed) := by
  induction hd generalizing passed steps with
  | top hnone =>
    apply climbs_succ
    rw [hnone]
    cases steps <;> exact Climbs.root
  | beneath hp _ ih =>
    obtain ⟨steps, rfl⟩ := Nat.exists_eq_add_of_le' hsteps
    apply climbs_succ
    rw [hp]
    exact ih _ (Nat.le_add_left _ steps)

/-- **All walks end** where no object is above itself, whichever depths are known before. -/
theorem fathoms_foldl (hacyclic : h.ParentsAcyclic) (rest : List Nat) (known : Depths) :
    a.Fathoms h rest known (rest.foldl (a.fathom h) known) := by
  induction rest generalizing known with
  | nil => exact Fathoms.done
  | cons x rest ih =>
    -- no object is deeper than there are links, so the bound on the steps is never reached
    obtain ⟨depth, hd, hle⟩ := exists_hasDepth (a := a) hacyclic x
    exact Fathoms.walk (hd.climbs known [] hle) (ih _)

/-! ### One walk -/

/-- What holds of a walk between any two of its steps: what has been passed lies beneath what was
passed next, and the last one passed beneath `next`. -/
inductive Trail (a : Arena) (h : Hierarchy) : Option Nat → List Nat → Prop
  | start {next : Option Nat} : Trail a h next []
  | up {x : Nat} {passed : List Nat} : Trail a h (some x) passed →
      Trail a h (a.nestingParent? h x) (x :: passed)

/-- **When a walk has ended**, it yields the depth of what lies right beneath its end. -/
theorem Climbs.trail (hright : ∀ y depth, known.of? y = some depth → a.HasDepth h y depth)
    (hc : a.Climbs h known next passed walked) (ht : a.Trail h next passed) :
    ∃ last, a.Trail h last walked.1
      ∧ ∀ x, a.nestingParent? h x = last → a.HasDepth h x walked.2 := by
  -- by induction on the walk, each step of which keeps its trail
  induction hc with
  | root => exact ⟨none, ht, fun _ => HasDepth.top⟩
  | @known x depth passed hx =>
    exact ⟨some x, ht, fun _ hy => HasDepth.beneath hy (hright x depth hx)⟩
  | up _ _ ih => exact ih ht.up

/-- Going back down, each object passed is one deeper than that before it. -/
theorem Trail.hasDepth (ht : a.Trail h next passed)
    (hbase : ∀ x, a.nestingParent? h x = next → a.HasDepth h x base) :
    ∀ e ∈ passed.zipIdx base, a.HasDepth h e.1 e.2 := by
  induction ht generalizing base with
  | start => simp
  | @up x passed _ ih =>
    -- `x` was passed last, and the rest of the trail begins right beneath it
    have hx : a.HasDepth h x base := hbase x rfl
    rw [List.zipIdx_cons]
    exact List.forall_mem_cons.mpr ⟨hx, ih fun y hy => HasDepth.beneath hy hx⟩

/-- Nothing that has been passed is forgotten. -/
theorem Climbs.mem (hc : a.Climbs h known next passed walked) (hx : x ∈ passed) :
    x ∈ walked.1 := by
  induction hc with
  | root => exact hx
  | known => exact hx
  | up _ _ ih => exact ih (List.mem_cons_of_mem _ hx)

/-! ### One walk after the other -/

/-- What holds of the depths known when the walks of the objects `done` have ended. -/
structure Charted (a : Arena) (h : Hierarchy) (done : List Nat) (known : Depths) : Prop where
  length : known.length = a.objects.length
  right : ∀ y depth, known.of? y = some depth → a.HasDepth h y depth
  known : ∀ y ∈ done, y < a.objects.length → ∃ depth, known.of? y = some depth

/-- Before the first walk nothing is known. -/
theorem charted_nil (a : Arena) (h : Hierarchy) :
    a.Charted h [] (List.replicate a.objects.length none) where
  length := List.length_replicate
  right y depth hy := by
    rw [Depths.of?_eq_some_iff, List.getElem?_replicate] at hy
    split at hy <;> simp at hy
  known y hy := absurd hy List.not_mem_nil

/-- **A walk keeps what is known right**, and adds the depth of its start. -/
theorem Charted.fathom (hk : a.Charted h done known)
    (hc : a.Climbs h known (some x) [] walked) :
    a.Charted h (done ++ [x]) (known.record walked.2 walked.1) where
  length := by rw [Depths.length_record, hk.length]
  right y depth hy := by
    obtain ⟨last, ht, hbase⟩ := hc.trail hk.right Trail.start
    rcases Depths.of?_record hy with hmem | hknown
    · exact ht.hasDepth hbase (y, depth) hmem
    · exact hk.right y depth hknown
  known y hy hlt := by
    apply Depths.exists_of?_record
    rcases List.mem_append.mp hy with hy | hy
    · exact Or.inl (hk.known y hy hlt)
    · -- the walk ends at its start, where that is known, or else passes it
      obtain rfl := List.mem_singleton.mp hy
      cases hc with
      | known hx => exact Or.inl ⟨_, hx⟩
      | up _ hc => exact Or.inr ⟨hc.mem List.mem_cons_self, hk.length ▸ hlt⟩

/-- **When all walks have ended**, the depths of their starts are known. -/
theorem Fathoms.charted (hf : a.Fathoms h rest known result) (hk : a.Charted h done known) :
    a.Charted h (done ++ rest) result := by
  induction hf generalizing done with
  | done => simpa using hk
  | walk hc _ ih => simpa using ih (hk.fathom hc)

/-! ### The depths of all objects -/

/-- Where the depths of all objects are known, no default takes the place of an unknown one. -/
theorem Charted.map_getD (hk : a.Charted h (List.range a.objects.length) known) :
    (known.map (·.getD 0)).map some = known := by
  rw [List.map_map, List.map_congr_left (g := id), List.map_id]
  intro entry hentry
  obtain ⟨x, hx, rfl⟩ := List.mem_iff_getElem.mp hentry
  rw [hk.length] at hx
  obtain ⟨depth, hd⟩ := hk.known x (List.mem_range.mpr hx) hx
  rw [Depths.of?_eq_some_iff, List.getElem?_eq_some_iff] at hd
  obtain ⟨_, hd⟩ := hd
  rw [hd]
  rfl

/-- The depths of all objects are known when their walks have ended. -/
theorem charted_depths (hacyclic : h.ParentsAcyclic) :
    a.Charted h (List.range a.objects.length) ((a.depths h).map some) := by
  have hk := (fathoms_foldl hacyclic (List.range a.objects.length) _).charted (charted_nil a h)
  rw [List.nil_append] at hk
  rwa [depths, hk.map_getD]

theorem length_depths (hacyclic : h.ParentsAcyclic) : (a.depths h).length = a.objects.length := by
  simpa using (charted_depths hacyclic).length

theorem getElem?_depths (hacyclic : h.ParentsAcyclic) (hx : x < a.objects.length) :
    (a.depths h)[x]? = some (a.depth h x) := by
  rw [← length_depths hacyclic] at hx
  rw [depth, List.getD_eq_getElem?_getD, List.getElem?_eq_getElem hx, Option.getD_some]

/-- **Every object has the depth found for it.** -/
theorem hasDepth_depth (hacyclic : h.ParentsAcyclic) (x : Nat) :
    a.HasDepth h x (a.depth h x) := by
  by_cases hx : x < a.objects.length
  · refine (charted_depths hacyclic).right x _ (Depths.of?_eq_some_iff.mpr ?_)
    rw [List.getElem?_map, getElem?_depths hacyclic hx, Option.map_some]
  · -- there is no such object, so it lies beneath none
    have hx := Nat.le_of_not_lt hx
    have hnone : a.nestingParent? h x = none := by
      simp [nestingParent?, List.getElem?_eq_none hx]
    rw [← length_depths hacyclic] at hx
    rw [depth, List.getD_eq_getElem?_getD, List.getElem?_eq_none hx, Option.getD_none]
    exact HasDepth.top hnone

/-- **The depth of an object** is one more than that of the parent beneath whose permalink its own
lies, if there is one. -/
theorem depth_of_parentsAcyclic (hacyclic : h.ParentsAcyclic) (x : Nat) :
    a.depth h x = match a.nestingParent? h x with
      | none => 0
      | some p => a.depth h p + 1 := by
  have hd := hasDepth_depth (a := a) hacyclic x
  cases hp : a.nestingParent? h x with
  | none => exact hd.eq_zero hp
  | some p =>
    obtain ⟨above, heq, habove⟩ := hd.exists_succ hp
    rw [heq, habove.unique (hasDepth_depth hacyclic p)]

/-- Nothing else can be known of all objects, in whichever order they have been served. -/
theorem Charted.eq_map_depths (hacyclic : h.ParentsAcyclic) (hk : a.Charted h done known)
    (hall : ∀ x, x < a.objects.length → x ∈ done) : known = (a.depths h).map some := by
  refine List.ext_getElem? fun x => ?_
  by_cases hx : x < a.objects.length
  · obtain ⟨depth, hd⟩ := hk.known x (hall x hx) hx
    rw [Depths.of?_eq_some_iff.mp hd, List.getElem?_map, getElem?_depths hacyclic hx,
      (hk.right x depth hd).unique (hasDepth_depth hacyclic x), Option.map_some]
  · have hx := Nat.le_of_not_lt hx
    rw [List.getElem?_eq_none (hk.length ▸ hx), List.getElem?_map,
      List.getElem?_eq_none (length_depths hacyclic ▸ hx), Option.map_none]

/-- What an object lies beneath depends on its kind. -/
theorem nestingParent?_eq {o : Object} (ho : a.objects[x]? = some o) :
    a.nestingParent? h x = if o.kind.nests then h.parent? x else none := by
  rw [nestingParent?, ho]
  rfl

/-- **The depths of objects, whatever their order.**  Where no object is above itself, going from
parent to parent, the walks of all objects end, and in whichever order they are made, they leave the
depths of all objects known, and these alone.  An object without a parent or of a kind that does not
nest is not deep at all, and any other is one deeper than its parent. -/
theorem depths_settled (a : Arena) (h : Hierarchy) (hacyclic : h.ParentsAcyclic) :
    (∀ order : List Nat, order.Perm (List.range a.objects.length) → ∀ known,
        a.Fathoms h order (List.replicate a.objects.length none) known
          ↔ known = (a.depths h).map some)
      ∧ ∀ x o, a.objects[x]? = some o →
        (a.depths h)[x]? = some (a.depth h x)
          ∧ (h.parent? x = none ∨ o.kind.nests = false → a.depth h x = 0)
          ∧ ∀ p, h.parent? x = some p → o.kind.nests = true → a.depth h x = 1 + a.depth h p := by
  refine ⟨fun order hperm known => ?_, fun x o ho => ?_⟩
  · -- what walks leave known is determined, so it is enough that there are walks
    have hfathomed : ∀ {known}, a.Fathoms h order (List.replicate a.objects.length none) known →
        known = (a.depths h).map some := fun hf =>
      (hf.charted (charted_nil a h)).eq_map_depths hacyclic fun x hx =>
        hperm.mem_iff.mpr (List.mem_range.mpr hx)
    refine ⟨hfathomed, ?_⟩
    rintro rfl
    have hends := fathoms_foldl (a := a) hacyclic order (List.replicate a.objects.length none)
    exact hfathomed hends ▸ hends
  · obtain ⟨hx, -⟩ := List.getElem?_eq_some_iff.mp ho
    have hdepth := depth_of_parentsAcyclic (a := a) hacyclic x
    rw [nestingParent?_eq ho] at hdepth
    refine ⟨getElem?_depths hacyclic hx, fun hnone => ?_, fun p hp hnests => ?_⟩
    · rcases hnone with hnone | hnests
      · simpa [hnone] using hdepth
      · simpa [hnests] using hdepth
    · rw [hnests, if_pos rfl, hp] at hdepth
      rw [hdepth, Nat.add_comm]

/-- Groups nested in each other, of which the innermost stand before and behind the others, and a
class that stands before its base. -/
def outOfOrder : Arena where
  document := {}
  objects := [claimingGroup "c" [], claimingGroup "a" ["b"], claimingGroup "d" [],
    claimingGroup "b" ["c", "d"], derivedClass "y" ["x"], derivedClass "x" []]

theorem outOfOrder_isWrapped : outOfOrder.IsWrapped := by
  simp [IsWrapped, outOfOrder, isWrapped_claimingGroup, isWrapped_derivedClass]

set_option maxRecDepth 2000 in
/-- The first walk passes the three groups `c`, `b` and `a`, so the walk from `d` ends at `b`.  The
class `y` is not deep, though it has a parent. -/
theorem depths_settled_outOfOrder :
    outOfOrder.link.1.ParentsAcyclic
      ∧ (∀ order : List Nat, order.Perm (List.range 6) → ∀ known,
          outOfOrder.Fathoms outOfOrder.link.1 order (List.replicate 6 none) known
            ↔ known = [some 2, some 0, some 2, some 1, some 0, some 0])
      ∧ outOfOrder.link.1.parent? 0 = some 3
      ∧ outOfOrder.depth outOfOrder.link.1 0 = 1 + outOfOrder.depth outOfOrder.link.1 3
      ∧ outOfOrder.link.1.parent? 4 = some 5 ∧ outOfOrder.depth outOfOrder.link.1 4 = 0 := by
  have hacyclic := (sound_link outOfOrder_isWrapped).acyclic.parentsAcyclic
  have hlinks : outOfOrder.link.1 = [⟨1, 3⟩, ⟨3, 0⟩, ⟨3, 2⟩, ⟨5, 4⟩] := by decide
  obtain ⟨hends, hdepth⟩ := depths_settled outOfOrder outOfOrder.link.1 hacyclic
  rw [hlinks] at hends hdepth ⊢
  exact ⟨hlinks ▸ hacyclic, hends, rfl, (hdepth 0 _ rfl).2.2 3 rfl rfl, rfl,
    (hdepth 4 _ rfl).2.1 (Or.inr rfl)⟩

end Arena

end DocGraph
