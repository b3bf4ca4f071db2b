import DocGraph.Proofs.Entries
import DocGraph.Proofs.Paths

namespace DocGraph.Graph

/-!
# References tried out

Every reference that stays within the project stands at a place of its own: the place of an object,
and the path that leads to the reference in the compound of the object.

* `Graph.HasRefAt` — a reference stands at a place;
* `Graph.refsPlaced`, `Graph.refsFound` — the references that a walk meets, with their places;
* `Graph.tried_eq` — they are tried out one after the other;
* `Graph.TriesEach`, `Graph.exists_triesEach` — the main statement: each one is tried once, in
  document order, and there is a warning about each that leads nowhere.
-/

variable {g : Graph} {x : Nat} {path : List Nat} {place : Nat × List Nat} {r : Ref}

/-- A reference that stays within the project stands at a place in the compound of an object,
however deep. -/
def HasRefAt (g : Graph) (place : Nat × List Nat) (r : Ref) : Prop :=
  ∃ n m, g.node? place.1 = some n ∧ n.descend? place.2 = some m ∧ m.data = .ref r
    ∧ r.external = none

/-- A reference stays within the project unless another one resolves it. -/
theorem internalRef?_eq_some_iff {m : Node} :
    internalRef? m = some r ↔ m.data = .ref r ∧ r.external = none := by
  rw [internalRef?]
  split
  · rename_i r' hdata
    rw [hdata, NodeData.ref.injEq]
    by_cases hexternal : r'.external = none
    · simp only [hexternal, Option.isNone_none, if_true, Option.some.injEq]
      constructor
      · rintro rfl
        exact ⟨rfl, hexternal⟩
      · exact And.left
    · simp only [Option.isNone_iff_eq_none, hexternal, if_false]
      refine iff_of_false (by simp) ?_
      rintro ⟨rfl, hnone⟩
      exact hexternal hnone
  · rename_i hdata
    refine iff_of_false (by simp) ?_
    rintro ⟨hdata', -⟩
    exact hdata r hdata'

/-! ### References with their places -/

/-- The references in the compound of an object, with the paths that lead to them. -/
def refsPlaced (g : Graph) (x : Nat) : List (List Nat × Ref) :=
  match g.node? x with
  | some n => (n.placed fun _ => false).filterMap fun e => (internalRef? e.2).map (e.1, ·)
  | none => []

/-- The references of an object, each at its path. -/
theorem mem_refsPlaced_iff : (path, r) ∈ g.refsPlaced x ↔ g.HasRefAt (x, path) r := by
  rw [refsPlaced, HasRefAt]
  cases g.node? x with
  | none => simp
  | some n =>
    simp only [List.mem_filterMap, Option.map_eq_some_iff, Prod.mk.injEq, Option.some.injEq]
    constructor
    · rintro ⟨⟨path', m⟩, hm, r', hr, rfl, rfl⟩
      have hpath := Node.isShownAt_all_iff.mp (Node.mem_placed_iff.mp hm)
      exact ⟨n, m, rfl, hpath, internalRef?_eq_some_iff.mp hr⟩
    · rintro ⟨n, m, rfl, hpath, hr⟩
      refine ⟨(path, m), ?_, r, internalRef?_eq_some_iff.mpr hr, rfl, rfl⟩
      exact Node.mem_placed_iff.mpr (Node.isShownAt_all_iff.mpr hpath)

/-- The references in a compound stand in document order. -/
theorem pairwise_refsPlaced (g : Graph) (x : Nat) :
    ((g.refsPlaced x).map (·.1)).Pairwise (· < ·) := by
  rw [refsPlaced]
  cases g.node? x with
  | none => exact List.Pairwise.nil
  | some n =>
    have hplaced := List.pairwise_map.mp (Node.pairwise_placed (fun _ => false) n)
    refine List.pairwise_map.mpr (List.pairwise_filterMap.mpr (hplaced.imp ?_))
    intro e e' hlt a ha a' ha'
    obtain ⟨r, -, rfl⟩ := Option.map_eq_some_iff.mp ha
    obtain ⟨r', -, rfl⟩ := Option.map_eq_some_iff.mp ha'
    exact hlt

/-- A walk meets these references and no others. -/
theorem map_snd_refsPlaced (g : Graph) (x : Nat) : (g.refsPlaced x).map (·.2) = g.refsOf x := by
  rw [refsPlaced, refsOf]
  cases g.node? x with
  | none => rfl
  | some n =>
    dsimp only
    rw [← Node.map_snd_placed, List.filterMap_map, List.map_filterMap]
    refine List.filterMap_congr fun e _ => ?_
    rw [Option.map_map]
    exact Option.map_id_apply

/-- The references in the compounds of all objects, with their places. -/
def refsFound (g : Graph) : List ((Nat × List Nat) × Ref) :=
  (List.range g.objects.length).flatMap fun x => (g.refsPlaced x).map fun e => ((x, e.1), e.2)

theorem mem_refsFound_iff : (place, r) ∈ g.refsFound ↔ g.HasRefAt place r := by
  obtain ⟨x, path⟩ := place
  simp only [refsFound, List.mem_flatMap, List.mem_range, List.mem_map, Prod.mk.injEq]
  constructor
  · rintro ⟨x, -, ⟨path, r⟩, hr, ⟨rfl, rfl⟩, rfl⟩
    exact mem_refsPlaced_iff.mp hr
  · intro hr
    refine ⟨x, ?_, (path, r), mem_refsPlaced_iff.mpr hr, ⟨rfl, rfl⟩, rfl⟩
    obtain ⟨n, m, hn, -⟩ := hr
    obtain ⟨o, ho, -⟩ := Option.bind_eq_some_iff.mp hn
    exact (List.getElem?_eq_some_iff.mp ho).1

/-- **All references stand in document order**: objects in order, and paths within each. -/
theorem pairwise_refsFound (g : Graph) :
    (g.refsFound.map (·.1)).Pairwise (Prod.Lex (· < ·) (· < ·)) := by
  rw [refsFound, List.map_flatMap, List.pairwise_flatMap]
  constructor
  · -- within one object, paths decide
    intro x _
    rw [List.map_map]
    have hpaths := List.pairwise_map.mp (g.pairwise_refsPlaced x)
    refine List.pairwise_map.mpr (hpaths.imp fun hlt => ?_)
    exact Prod.Lex.right x hlt
  · -- between two objects, their places do
    refine List.pairwise_lt_range.imp fun hlt => ?_
    simp only [List.map_map, List.mem_map]
    rintro _ ⟨e, -, rfl⟩ _ ⟨e', -, rfl⟩
    exact Prod.Lex.left e.1 e'.1 hlt

/-! ### Trials -/

/-- What becomes of a reference at a place. -/
def trial (g : Graph) (e : (Nat × List Nat) × Ref) : Except LinkProblem String :=
  g.outcome (g.idOf e.1.1) e.2

/-- A reference that leads somewhere is tried with success. -/
theorem isOk_trial (g : Graph) (e : (Nat × List Nat) × Ref) : (g.trial e).isOk = g.leads e.2 := by
  rw [trial, outcome, leads]
  cases g.linkTo e.2.refid e.2.kind <;> rfl

/-- **References are tried out one after the other.** -/
theorem tried_eq (g : Graph) : g.tried = g.refsFound.map g.trial := by
  -- both go through the objects in order, one with the objects at hand and one by places alone
  have hplaces : List.range g.objects.length = g.objects.zipIdx.map (·.2) := by
    rw [List.range_eq_range', List.zipIdx_map_snd]
  rw [tried, refsFound, hplaces, List.flatMap_map, List.map_flatMap]
  refine List.flatMap_congr fun e he => ?_
  have hid : g.idOf e.2 = e.1.id := Arena.idOf_eq (Arena.mem_zipIdx_objects.mp he)
  dsimp only
  rw [← map_snd_refsPlaced, List.map_map, List.map_map, ← hid]
  rfl

/-- The warning about a reference at a place. -/
def dangling (g : Graph) (e : (Nat × List Nat) × Ref) : LinkProblem :=
  .unresolvedReference (some (g.idOf e.1.1)) e.2.refid e.2.kind

/-- **The warnings** are about the references that lead nowhere. -/
theorem filterMap_problem?_tried (g : Graph) :
    g.tried.filterMap problem? = (g.refsFound.filter fun e => ! g.leads e.2).map g.dangling := by
  rw [tried_eq, List.filterMap_map, ← List.filterMap_eq_map, List.filterMap_filter]
  refine List.filterMap_congr fun e _ => ?_
  have hproblem := g.problem?_outcome (g.idOf e.1.1) e.2
  rw [Function.comp_apply, trial, hproblem]
  cases g.leads e.2 <;> rfl

/-- All references of a graph, at their places, and what becomes of them when they are tried out. -/
structure TriesEach (g : Graph) (found : List ((Nat × List Nat) × Ref)) : Prop where
  /-- None is passed over, and nothing else is met. -/
  found_iff : ∀ place r, (place, r) ∈ found ↔ g.HasRefAt place r
  /-- They stand in the order of objects and then in document order, hence each one once. -/
  order : (found.map (·.1)).Pairwise (Prod.Lex (· < ·) (· < ·))
  resolved : g.tryReferences.1 = found.countP fun e => g.leads e.2
  warnings : g.tryReferences.2 = (found.filter fun e => ! g.leads e.2).map g.dangling
  count : g.tryReferences.1 + g.tryReferences.2.length = found.length

/-- **Each reference is tried once**, in document order, and there is a warning about each that
leads nowhere. -/
theorem exists_triesEach (g : Graph) : ∃ found, g.TriesEach found := by
  have hwarnings : g.tryReferences.2
      = (g.refsFound.filter fun e => ! g.leads e.2).map g.dangling := by
    rw [tryReferences_eq]
    exact g.filterMap_problem?_tried
  have hresolved : g.tryReferences.1 = g.refsFound.countP fun e => g.leads e.2 := by
    rw [tryReferences_eq, tried_eq, List.countP_map]
    exact List.countP_congr fun e _ => by rw [Function.comp_apply, isOk_trial]
  refine ⟨g.refsFound, fun place r => mem_refsFound_iff, g.pairwise_refsFound, hresolved,
    hwarnings, ?_⟩
  -- each reference either leads somewhere or is warned about
  rw [hresolved, hwarnings, List.length_map, ← List.countP_eq_length_filter,
    List.length_eq_countP_add_countP fun e => g.leads e.2]
  simp

end DocGraph.Graph
