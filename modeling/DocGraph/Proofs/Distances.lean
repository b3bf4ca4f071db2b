import DocGraph.Proofs.Inheritance

namespace DocGraph.Inheritance

/-!
# Nearest ancestors first

The search visits objects in the order in which it reaches them, so whatever takes fewer relations
to reach comes first, on any set of relations.

* `Way`, `IsDistance` — the ways from a base down to what derives from it, and the length of the
  shortest;
* `Graded` — what holds of the search between any two of its steps, for a labelling of what has been
  reached: labels are lengths of ways, they do not decrease in the order of reaching, and those in
  the queue differ by at most one;
* `Graded.way_further`, `Graded.pairwise_further`, `Graded.narrow_further`, `Graded.closed_further`
  — each of these is kept by a step, with a label for what is found new (`Graded.visit`);
* `Graded.isDistance` — in the end labels are distances;
* `ancestors_nearest_first` — the main statement: the search ends, and lists each ancestor once and
  in the order of distance.
-/

variable {g : Inheritance} {x y z w base n : Nat} {visited queue : List Nat}
variable {distance : Nat → Nat}

/-- A way down from a base to `x`, by relations from a base to what derives from it. -/
inductive Way (g : Inheritance) (x : Nat) : Nat → Nat → Prop
  | here : Way g x 0 x
  | above {n y base : Nat} : Way g x n y → (base, y) ∈ g.edges → Way g x (n + 1) base

/-- The least number of relations on a way from `y` down to `x`. -/
def IsDistance (g : Inheritance) (x y n : Nat) : Prop :=
  g.Way x n y ∧ ∀ m, g.Way x m y → n ≤ m

/-! ### One step of the search -/

/-- The state of a search for what `x` derives from, with labels. -/
structure Graded (g : Inheritance) (x : Nat) (distance : Nat → Nat) (visited queue : List Nat) :
    Prop where
  start : x ∈ visited ++ queue ∧ distance x = 0
  way : ∀ y ∈ visited ++ queue, g.Way x (distance y) y
  pairwise : (visited ++ queue).Pairwise (distance · ≤ distance ·)
  narrow : ∀ y ∈ queue, ∀ z ∈ queue, distance z ≤ distance y + 1
  closed : ∀ y ∈ visited, ∀ base, (base, y) ∈ g.edges →
    base ∈ visited ++ queue ∧ distance base ≤ distance y + 1

namespace Graded

/-- Before the first step only `x` has been reached. -/
theorem initial (g : Inheritance) (x : Nat) : Graded g x (fun _ => 0) [] [x] where
  start := by simp
  way := by
    intro y hy
    obtain rfl : y = x := by simpa using hy
    exact Way.here
  pairwise := by simp
  narrow := by simp
  closed := by simp

/-- What has been reached before the first object in the queue is visited has labels that are
larger by at most one. -/
theorem le_succ (hd : Graded g x distance visited (y :: queue)) (hz : z ∈ visited ++ y :: queue) :
    distance z ≤ distance y + 1 := by
  rcases List.mem_append.mp hz with hz | hz
  · have hle := (List.pairwise_append.mp hd.pairwise).2.2 z hz y List.mem_cons_self
    omega
  · exact hd.narrow y List.mem_cons_self z hz

/-- The labels after a step: what is found new is one relation further away than the object
visited. -/
def further (distance : Nat → Nat) (seen : List Nat) (y : Nat) : Nat → Nat :=
  fun z => if z ∈ seen then distance z else distance y + 1

/-- What has been seen before keeps its label. -/
theorem further_of_mem {seen : List Nat} (hz : z ∈ seen) :
    further distance seen y z = distance z := if_pos hz

/-- What is found new is labelled with the next one. -/
theorem further_of_mem_fresh {seen : List Nat} (hz : z ∈ g.fresh seen y) :
    further distance seen y z = distance y + 1 := if_neg (mem_fresh.mp hz).2

/-- What is found new is above the object visited, by one relation more. -/
theorem way_further (hd : Graded g x distance visited (y :: queue))
    (hz : z ∈ (visited ++ y :: queue) ++ g.fresh (visited ++ y :: queue) y) :
    g.Way x (further distance (visited ++ y :: queue) y z) z := by
  have hy : y ∈ visited ++ y :: queue := List.mem_append_right _ List.mem_cons_self
  rcases List.mem_append.mp hz with hz | hz
  · rw [further_of_mem hz]
    exact hd.way z hz
  · rw [further_of_mem_fresh hz]
    exact (hd.way y hy).above (mem_fresh.mp hz).1

/-- What is found new is behind all the others in the order of labels, and there is no order in
it. -/
theorem pairwise_further (hd : Graded g x distance visited (y :: queue)) :
    ((visited ++ y :: queue) ++ g.fresh (visited ++ y :: queue) y).Pairwise
      (further distance (visited ++ y :: queue) y ·
        ≤ further distance (visited ++ y :: queue) y ·) := by
  rw [List.pairwise_append]
  refine ⟨?_, ?_, fun z hz w hw => ?_⟩
  · refine hd.pairwise.imp_of_mem fun hz hw hle => ?_
    rwa [further_of_mem hz, further_of_mem hw]
  · refine List.pairwise_of_forall_mem_list fun z hz w hw => ?_
    exact Nat.le_of_eq ((further_of_mem_fresh hz).trans (further_of_mem_fresh hw).symm)
  · rw [further_of_mem hz, further_of_mem_fresh hw]
    exact hd.le_succ hz

/-- Labels in the queue differ by one at most: those left there are no smaller than that of the
object visited, and what is found new has the next one. -/
theorem narrow_further (hd : Graded g x distance visited (y :: queue))
    (hz : z ∈ queue ++ g.fresh (visited ++ y :: queue) y)
    (hw : w ∈ queue ++ g.fresh (visited ++ y :: queue) y) :
    further distance (visited ++ y :: queue) y w
      ≤ further distance (visited ++ y :: queue) y z + 1 := by
  have hqueue : ∀ {v}, v ∈ queue → v ∈ visited ++ y :: queue := fun hv =>
    List.mem_append_right _ (List.mem_cons_of_mem y hv)
  have hleast : ∀ {v}, v ∈ queue → distance y ≤ distance v := fun hv =>
    List.rel_of_pairwise_cons (List.pairwise_append.mp hd.pairwise).2.1 hv
  -- Waiting ones keep their distance and are no nearer than `y`; fresh ones are one further.
  rcases List.mem_append.mp hz with hz | hz <;> rcases List.mem_append.mp hw with hw | hw
  · rw [further_of_mem (hqueue hz), further_of_mem (hqueue hw)]
    exact hd.narrow z (List.mem_cons_of_mem y hz) w (List.mem_cons_of_mem y hw)
  · rw [further_of_mem (hqueue hz), further_of_mem_fresh hw]
    have hle := hleast hz
    omega
  · rw [further_of_mem_fresh hz, further_of_mem (hqueue hw)]
    have hle := hd.le_succ (hqueue hw)
    omega
  · rw [further_of_mem_fresh hz, further_of_mem_fresh hw]
    omega

/-- The bases of what has been visited have been reached, those of the object visited last included,
and none of them is further away than by one relation. -/
theorem closed_further (hd : Graded g x distance visited (y :: queue))
    (hz : z ∈ visited ++ [y]) (hedge : (base, z) ∈ g.edges) :
    base ∈ (visited ++ y :: queue) ++ g.fresh (visited ++ y :: queue) y
      ∧ further distance (visited ++ y :: queue) y base
        ≤ further distance (visited ++ y :: queue) y z + 1 := by
  -- what was visited before is closed already; `y` itself becomes so by what is found new
  rcases List.mem_append.mp hz with hz | hz
  · obtain ⟨hbase, hle⟩ := hd.closed z hz base hedge
    rw [further_of_mem hbase, further_of_mem (List.mem_append_left _ hz)]
    exact ⟨List.mem_append_left _ hbase, hle⟩
  · obtain rfl := List.mem_singleton.mp hz
    rw [further_of_mem (List.mem_append_right _ List.mem_cons_self)]
    by_cases hbase : base ∈ visited ++ z :: queue
    · rw [further_of_mem hbase]
      exact ⟨List.mem_append_left _ hbase, hd.le_succ hbase⟩
    · have hfresh := mem_fresh.mpr ⟨hedge, hbase⟩
      rw [further_of_mem_fresh hfresh]
      exact ⟨List.mem_append_right _ hfresh, Nat.le_refl _⟩

/-- **A step keeps the labels in order.**  It visits the first object in the queue, whose label is
the least there. -/
theorem visit (hd : Graded g x distance visited (y :: queue)) :
    Graded g x (further distance (visited ++ y :: queue) y) (visited ++ [y])
      (queue ++ g.fresh (visited ++ y :: queue) y) := by
  have hseen : visited ++ [y] ++ (queue ++ g.fresh (visited ++ y :: queue) y)
      = (visited ++ y :: queue) ++ g.fresh (visited ++ y :: queue) y := by simp
  constructor
  case start =>
    rw [hseen, further_of_mem hd.start.1]
    exact ⟨List.mem_append_left _ hd.start.1, hd.start.2⟩
  case way => exact fun z hz => hd.way_further (hseen ▸ hz)
  case pairwise => exact hseen ▸ hd.pairwise_further
  case narrow => exact fun z hz w hw => hd.narrow_further hz hw
  case closed => exact fun z hz base hedge => hseen ▸ hd.closed_further hz hedge

/-- When the queue is empty, whatever has a way down to `x` has been visited, and its label is no
larger than that way is long. -/
theorem le_of_way (hd : Graded g x distance visited []) (h : g.Way x n y) :
    y ∈ visited ∧ distance y ≤ n := by
  induction h with
  | here =>
    have hzero := hd.start.2
    exact ⟨by simpa using hd.start.1, by omega⟩
  | above _ hedge ih =>
    obtain ⟨hbase, hle⟩ := hd.closed _ ih.1 _ hedge
    exact ⟨by simpa using hbase, by omega⟩

/-- **When the queue is empty**, labels are distances. -/
theorem isDistance (hd : Graded g x distance visited []) (hy : y ∈ visited) :
    g.IsDistance x y (distance y) :=
  ⟨hd.way y (by simpa using hy), fun _ h => (hd.le_of_way h).2⟩

end Graded

/-! ### The result of the search -/

/-- The object itself and its ancestors are what a finished search has labelled. -/
theorem exists_graded_ancestors (g : Inheritance) (x : Nat) :
    ∃ distance, Graded g x distance (x :: g.ancestors x) [] :=
  (ends_ancestors g x).induction []
    (P := fun visited queue => ∃ distance, Graded g x distance visited queue)
    (fun _ _ _ ⟨_, hd⟩ => ⟨_, hd.visit⟩) ⟨_, Graded.initial g x⟩

/-- A search has one result at most. -/
theorem Ends.unique {seen result result' : List Nat} (h : g.Ends queue seen result)
    (h' : g.Ends queue seen result') : result = result' := by
  induction h with
  | done =>
    cases h'
    rfl
  | visit _ ih =>
    cases h' with
    | visit h' => exact ih h'

/-- **The search for ancestors ends**, and lists what leads down to an object, itself apart: each
once, and none before another that is nearer. -/
theorem ancestors_nearest_first (g : Inheritance) (x : Nat) :
    (∀ result, g.Ends [x] [x] result ↔ result = x :: g.ancestors x)
      ∧ (∀ y, y ∈ g.ancestors x ↔ y ≠ x ∧ ∃ n, g.Way x n y)
      ∧ (g.ancestors x).Nodup
      ∧ (∃ distance : Nat → Nat, (∀ y ∈ g.ancestors x, g.IsDistance x y (distance y))
          ∧ (g.ancestors x).Pairwise (distance · ≤ distance ·))
      ∧ ∀ y, g.isAncestor y x = true ↔ y ≠ x ∧ ∃ n, g.Way x n y := by
  obtain ⟨distance, hd⟩ := exists_graded_ancestors g x
  have hends := ends_ancestors g x
  have hnodup : (x :: g.ancestors x).Nodup := by simpa using (exploration_ancestors g x).nodup
  -- The search starts with `x` itself, which the list of its ancestors leaves out.
  have hmem : ∀ y, y ∈ g.ancestors x ↔ y ≠ x ∧ ∃ n, g.Way x n y := by
    intro y
    constructor
    · intro hy
      refine ⟨?_, distance y, hd.way y (by simp [hy])⟩
      rintro rfl
      exact (List.nodup_cons.mp hnodup).1 hy
    · rintro ⟨hne, n, hn⟩
      exact (List.mem_cons.mp (hd.le_of_way hn).1).resolve_left hne
  refine ⟨fun result => ?_, hmem, (List.nodup_cons.mp hnodup).2, ⟨distance, fun y hy => ?_, ?_⟩,
    fun y => ?_⟩
  · constructor
    · exact fun h => h.unique hends
    · rintro rfl
      exact hends
  · exact hd.isDistance (List.mem_cons_of_mem x hy)
  · have hpairwise : (x :: g.ancestors x).Pairwise (distance · ≤ distance ·) := by
      simpa using hd.pairwise
    exact hpairwise.of_cons
  · rw [isAncestor, List.contains_iff_mem, hmem]

/-- Two bases of a class, one base of both, and a class above that which derives from the first. -/
example : ancestors ⟨[(0, 1), (0, 2), (1, 3), (2, 3), (3, 0)]⟩ 3 = [1, 2, 0] := by decide

end DocGraph.Inheritance
