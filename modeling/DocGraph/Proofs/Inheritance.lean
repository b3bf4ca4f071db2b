import DocGraph.Graph.Inheritance
import Mathlib.Data.List.Nodup
import Mathlib.Data.List.Perm.Subperm
import Mathlib.Logic.Relation

namespace DocGraph

/-!
# Ancestors, whatever the relations

A class may be reached from itself, so the search for ancestors has to be right on any set of
relations.

* `Inheritance.DerivesFrom` — derivation through one relation or more, the meaning of "ancestor";
* `Inheritance.Ends`, `Inheritance.Ends.induction` — a search that goes on until its queue is empty,
  and what holds in the end because every step keeps it;
* `Inheritance.Exploration` — what holds of the search between any two of its steps.  What has been
  reached is what has been visited followed by the queue;
* `Inheritance.Exploration.visit`, `Inheritance.Exploration.ends` — one step keeps it, and the steps
  allowed for suffice to empty the queue;
* `Inheritance.mem_ancestors_iff` — hence the search finds exactly what an object derives from, the
  object itself apart.
-/

/-- `List.eraseDups` leaves nothing twice. -/
theorem nodup_eraseDups {α : Type} [BEq α] [LawfulBEq α] (l : List α) : l.eraseDups.Nodup := by
  -- `eraseDups` goes on with a filtered rest, so the induction is on the length.
  induction hn : l.length using Nat.strongRecOn generalizing l with
  | ind n ih =>
    cases l with
    | nil => exact List.nodup_nil
    | cons a l =>
      have hlen : (l.filter fun b => !b == a).length < n := by
        have := List.length_filter_le (fun b => !b == a) l
        simp only [List.length_cons] at hn
        omega
      rw [List.eraseDups_cons, List.nodup_cons]
      exact ⟨by simp [List.mem_eraseDups], ih _ hlen _ rfl⟩

/-- What comes of the entries under one key, when key and value make up an entry. -/
theorem nodup_map_filter {α : Type} {l : List α} (hl : l.Nodup) (key value : α → Nat)
    (hentry : ∀ e e', key e = key e' → value e = value e' → e = e') (x : Nat) :
    ((l.filter (key · == x)).map value).Nodup := by
  refine List.Nodup.map_on (fun e he e' he' hvalue => ?_) (hl.filter _)
  have hkey : key e = x := by simpa using (List.mem_filter.mp he).2
  have hkey' : key e' = x := by simpa using (List.mem_filter.mp he').2
  exact hentry e e' (hkey.trans hkey'.symm) hvalue

namespace Inheritance

variable {g : Inheritance} {x y base : Nat} {visited queue : List Nat}

/-- `x` derives from `y`, directly or through others. -/
def DerivesFrom (g : Inheritance) : Nat → Nat → Prop :=
  Relation.TransGen fun x base => (base, x) ∈ g.edges

/-- The bases of a class are those of its relations. -/
@[simp] theorem mem_bases : base ∈ g.bases x ↔ (base, x) ∈ g.edges := by
  simp [bases]

/-- No base is listed twice if no relation is recorded twice. -/
theorem nodup_bases (hg : g.edges.Nodup) (x : Nat) : (g.bases x).Nodup :=
  nodup_map_filter hg (·.2) (·.1) (fun _ _ hderived hbase => Prod.ext hbase hderived) x

/-! ### One step of the search -/

/-- The bases of an object that have not been seen, each once. -/
def fresh (g : Inheritance) (seen : List Nat) (x : Nat) : List Nat :=
  ((g.bases x).filter (! seen.contains ·)).eraseDups

/-- What is found new is a base that has not been seen. -/
theorem mem_fresh {seen : List Nat} :
    base ∈ g.fresh seen x ↔ (base, x) ∈ g.edges ∧ base ∉ seen := by
  simp [fresh]

/-- It is found once, even if a relation were recorded twice. -/
theorem nodup_fresh (g : Inheritance) (seen : List Nat) (x : Nat) : (g.fresh seen x).Nodup :=
  nodup_eraseDups _

/-- A step of the search puts what it finds new at the end of the queue. -/
theorem explore_cons (g : Inheritance) (steps x : Nat) (queue seen : List Nat) :
    g.explore (steps + 1) (x :: queue) seen
      = g.explore steps (queue ++ g.fresh seen x) (seen ++ g.fresh seen x) := rfl

/-- A search goes on until its queue is empty, and its result is what it has seen by then. -/
inductive Ends (g : Inheritance) : List Nat → List Nat → List Nat → Prop
  | done {seen : List Nat} : Ends g [] seen seen
  | visit {y : Nat} {queue seen result : List Nat} :
    Ends g (queue ++ g.fresh seen y) (seen ++ g.fresh seen y) result →
    Ends g (y :: queue) seen result

/-- What every step keeps holds in the end, when all that has been seen has been visited. -/
theorem Ends.induction (visited : List Nat) {P : List Nat → List Nat → Prop} {result : List Nat}
    (h : g.Ends queue (visited ++ queue) result)
    (hvisit : ∀ visited y queue, P visited (y :: queue) →
      P (visited ++ [y]) (queue ++ g.fresh (visited ++ y :: queue) y))
    (hP : P visited queue) : P result [] := by
  generalize hseen : visited ++ queue = seen at h
  induction h generalizing visited with
  | done =>
    rw [List.append_nil] at hseen
    rwa [← hseen]
  | visit _ ih =>
    subst hseen
    -- the object visited moves from the queue to those visited before it
    exact ih _ (hvisit _ _ _ hP) (by simp)

/-- The state of a search for what `x` derives from. -/
structure Exploration (g : Inheritance) (x : Nat) (visited queue : List Nat) : Prop where
  start : x ∈ visited ++ queue
  nodup : (visited ++ queue).Nodup
  reached : ∀ y ∈ visited ++ queue, y = x ∨ g.DerivesFrom x y
  closed : ∀ y ∈ visited, ∀ base, (base, y) ∈ g.edges → base ∈ visited ++ queue

namespace Exploration

/-- The state in which the search begins. -/
theorem initial (g : Inheritance) (x : Nat) : Exploration g x [] [x] where
  start := by simp
  nodup := by simp
  reached := by simp
  closed := by simp

/-- What a step finds new is derived from as well. -/
theorem derivesFrom_fresh (e : Exploration g x visited (y :: queue))
    (hb : base ∈ g.fresh (visited ++ y :: queue) y) : g.DerivesFrom x base := by
  have hedge : (base, y) ∈ g.edges := (mem_fresh.mp hb).1
  rcases e.reached y (by simp) with rfl | hy
  · exact Relation.TransGen.single hedge
  · exact hy.tail hedge

/-- **A step keeps the state sound.**  It visits the first object in the queue. -/
theorem visit (e : Exploration g x visited (y :: queue)) :
    Exploration g x (visited ++ [y]) (queue ++ g.fresh (visited ++ y :: queue) y) := by
  have hseen : visited ++ [y] ++ (queue ++ g.fresh (visited ++ y :: queue) y)
      = (visited ++ y :: queue) ++ g.fresh (visited ++ y :: queue) y := by simp
  -- What was seen stays seen, so only the fresh bases and the bases of `y` are to be looked at.
  refine ⟨?_, ?_, ?_, ?_⟩
  · rw [hseen]
    exact List.mem_append_left _ e.start
  · rw [hseen, List.nodup_append]
    refine ⟨e.nodup, nodup_fresh g _ y, ?_⟩
    rintro a ha b hb rfl
    exact (mem_fresh.mp hb).2 ha
  · rw [hseen]
    intro z hz
    rcases List.mem_append.mp hz with hz | hz
    · exact e.reached z hz
    · exact Or.inr (e.derivesFrom_fresh hz)
  · rw [hseen]
    intro z hz base hedge
    rcases List.mem_append.mp hz with hz | hz
    · exact List.mem_append_left _ (e.closed z hz base hedge)
    · rw [List.mem_singleton] at hz
      subst hz
      by_cases hb : base ∈ visited ++ z :: queue
      · exact List.mem_append_left _ hb
      · exact List.mem_append_right _ (mem_fresh.mpr ⟨hedge, hb⟩)

/-- All but the start are bases in some relation, so little can be reached. -/
theorem length_le (e : Exploration g x visited queue) :
    (visited ++ queue).length ≤ g.edges.length + 1 := by
  have hsub : visited ++ queue ⊆ x :: g.edges.map (·.1) := by
    intro y hy
    rcases e.reached y hy with rfl | hxy
    · exact List.mem_cons_self
    · -- the last relation on the way to `y` has `y` as its base
      obtain ⟨z, _, hedge⟩ := Relation.TransGen.tail'_iff.mp hxy
      exact List.mem_cons_of_mem _ (List.mem_map.mpr ⟨_, hedge, rfl⟩)
  simpa using (e.nodup.subperm hsub).length_le

/-- **The search ends with an empty queue**: the steps allowed for are enough. -/
theorem ends {steps : Nat} (e : Exploration g x visited queue)
    (hsteps : g.edges.length + 1 ≤ steps + visited.length) :
    g.Ends queue (visited ++ queue) (g.explore steps queue (visited ++ queue)) := by
  induction steps generalizing visited queue with
  | zero =>
    -- everything that can be reached has been visited
    have hlen := e.length_le
    rw [List.length_append] at hlen
    have hqueue : queue = [] := List.length_eq_zero_iff.mp (by omega)
    subst hqueue
    exact Ends.done
  | succ steps ih =>
    cases queue with
    | nil => exact Ends.done
    | cons y queue =>
      have hrest := ih e.visit (by simp; omega)
      apply Ends.visit
      rw [explore_cons]
      simpa using hrest

/-- When the queue is empty, everything that `x` derives from has been visited. -/
theorem mem_of_derivesFrom (e : Exploration g x visited []) (h : g.DerivesFrom x y) :
    y ∈ visited := by
  induction h with
  | single hedge => simpa using e.closed x (by simpa using e.start) _ hedge
  | tail _ hedge ih => simpa using e.closed _ ih _ hedge

end Exploration

/-! ### The result of the search -/

/-- The search for ancestors ends, and begins its result with the object itself. -/
theorem ends_ancestors (g : Inheritance) (x : Nat) : g.Ends [x] [x] (x :: g.ancestors x) := by
  have hends : g.Ends [x] [x] (g.explore (g.edges.length + 1) [x] [x]) :=
    (Exploration.initial g x).ends (Nat.le_refl _)
  -- The start stays in front, so leaving it out gives the ancestors.
  have hfirst : [x] <+: g.explore (g.edges.length + 1) [x] [x] ++ [] := by
    refine hends.induction [] (P := fun visited queue => [x] <+: visited ++ queue)
      (fun visited y queue h => ?_) (List.prefix_refl _)
    simpa using h.trans (List.prefix_append _ (g.fresh (visited ++ y :: queue) y))
  obtain ⟨rest, hrest⟩ := hfirst
  rw [List.append_nil] at hrest
  rw [← hrest] at hends
  rw [ancestors, ← hrest]
  exact hends

/-- The object itself and its ancestors are all that a finished search has visited. -/
theorem exploration_ancestors (g : Inheritance) (x : Nat) :
    Exploration g x (x :: g.ancestors x) [] :=
  (ends_ancestors g x).induction [] (fun _ _ _ e => e.visit)
    (Exploration.initial g x)

/-- **The ancestors of an object** are what it derives from, itself apart. -/
theorem mem_ancestors_iff : y ∈ g.ancestors x ↔ y ≠ x ∧ g.DerivesFrom x y := by
  have e := exploration_ancestors g x
  have hnodup : x ∉ g.ancestors x := by
    simpa using (List.nodup_cons.mp (by simpa using e.nodup)).1
  constructor
  · intro hy
    have hne : y ≠ x := by
      rintro rfl
      exact hnodup hy
    exact ⟨hne, (e.reached y (by simp [hy])).resolve_left hne⟩
  · rintro ⟨hne, hxy⟩
    exact (List.mem_cons.mp (e.mem_of_derivesFrom hxy)).resolve_left hne

/-- An ancestor is what a class derives from, itself apart. -/
theorem isAncestor_iff : g.isAncestor y x = true ↔ y ≠ x ∧ g.DerivesFrom x y := by
  rw [isAncestor, List.contains_iff_mem, mem_ancestors_iff]

end Inheritance

end DocGraph
