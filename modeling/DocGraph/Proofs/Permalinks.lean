import DocGraph.Graph.Basic
import Mathlib.Data.List.Induction
import Mathlib.Data.List.Nodup
import Mathlib.Data.List.Perm.Subperm

namespace DocGraph

/-!
# Permalinks are unique

Permalinks are assigned one after the other, each of them free at the time.

* `firstFree_spec` — a free number is always found, and it is the least one;
* `Arena.served` — what has been assigned and reported when some objects have been served;
  `Arena.served_append_singleton` says what serving one more object adds;
* `Arena.served_append` — what is served later changes nothing of it;
* `Arena.nodup_permalinks` — no permalink is assigned twice;
* `Arena.permalink_unique` — hence the look-up of a permalink and the permalink of an object are
  inverses, which is the main statement.
-/

namespace Permalinks

variable {taken : Permalinks} {s : String} {x : Nat}

/-- A permalink is free if it is not among those assigned. -/
theorem owner?_eq_none_iff : taken.owner? s = none ↔ s ∉ taken.map (·.1) := by
  rw [owner?, List.lookup_eq_none_iff, List.mem_map]
  constructor
  · rintro hnone ⟨e, he, rfl⟩
    simpa using hnone e he
  · intro hnot e he
    by_contra hs
    have hse : s = e.1 := by simpa using hs
    exact hnot ⟨e, he, hse.symm⟩

/-- Where no permalink is assigned twice, its owner is the object that it is assigned to. -/
theorem owner?_eq_some_iff (hn : (taken.map (·.1)).Nodup) :
    taken.owner? s = some x ↔ (s, x) ∈ taken := by
  rw [owner?, List.lookup_eq_some_iff]
  constructor
  · rintro ⟨before, after, rfl, _⟩
    simp
  · intro hmem
    obtain ⟨before, after, rfl⟩ := List.append_of_mem hmem
    refine ⟨before, after, rfl, fun e he => ?_⟩
    rw [List.map_append, List.map_cons, List.nodup_append] at hn
    simpa using (hn.2.2 e.1 (List.mem_map.mpr ⟨e, he, rfl⟩) s (by simp)).symm

/-- Where no object has two permalinks, its permalink is the one assigned to it. -/
theorem of?_eq_some_iff (hn : (taken.map (·.2)).Nodup) :
    taken.of? x = some s ↔ (s, x) ∈ taken := by
  rw [of?, Option.map_eq_some_iff]
  constructor
  · rintro ⟨⟨s', y⟩, hfind, rfl⟩
    have hy : y = x := by simpa using List.find?_some hfind
    rw [← hy]
    exact List.mem_of_find?_eq_some hfind
  -- no entry before this one is of the same object, so the search stops here
  · intro hmem
    obtain ⟨before, after, rfl⟩ := List.append_of_mem hmem
    refine ⟨(s, x), List.find?_eq_some_iff_append.mpr ⟨by simp, before, after, rfl, ?_⟩, rfl⟩
    intro e he
    rw [List.map_append, List.map_cons, List.nodup_append] at hn
    simpa using hn.2.2 e.2 (List.mem_map.mpr ⟨e, he, rfl⟩) x (by simp)

end Permalinks

/-! ### Free numbers -/

/-- Different numbers make different permalinks. -/
theorem numbered_injective (permalink : String) : Function.Injective (numbered permalink) := by
  intro m n hmn
  -- what follows the hyphen is the number in decimal, which determines the number
  have hdigits : Nat.toDigits 10 m = Nat.toDigits 10 n := by
    simpa [numbered, ← Nat.repr_eq_ofList_toDigits] using congrArg String.toList hmn
  have hvalue := congrArg (Nat.ofDigitChars 10 · 0) hdigits
  simpa using hvalue

/-- There are more numbers to try than permalinks that could be in the way. -/
theorem exists_free (candidate : String) (taken : Permalinks) :
    ∃ n ∈ List.range' 1 (taken.length + 1), taken.owner? (numbered candidate n) = none := by
  -- otherwise all the numbered permalinks, which differ, would be among those taken
  by_contra hnone
  have hsub : (List.range' 1 (taken.length + 1)).map (numbered candidate)
      ⊆ taken.map (·.1) := by
    intro s hs
    obtain ⟨n, hn, rfl⟩ := List.mem_map.mp hs
    by_contra hfree
    exact hnone ⟨n, hn, Permalinks.owner?_eq_none_iff.mpr hfree⟩
  have hnodup : ((List.range' 1 (taken.length + 1)).map (numbered candidate)).Nodup :=
    List.Nodup.map (numbered_injective candidate) List.nodup_range'
  have hlen := (hnodup.subperm hsub).length_le
  simp only [List.length_map, List.length_range'] at hlen
  omega

/-- **The first free number** is found, and all smaller ones are in use. -/
theorem firstFree_spec (candidate : String) (taken : Permalinks) :
    ∃ n, 1 ≤ n ∧ firstFree candidate taken = numbered candidate n
      ∧ taken.owner? (numbered candidate n) = none
      ∧ ∀ m, 1 ≤ m → m < n → taken.owner? (numbered candidate m) ≠ none := by
  obtain ⟨i, hi, hfree⟩ := exists_free candidate taken
  cases hfind : (List.range' 1 (taken.length + 1)).find?
      fun n => (taken.owner? (numbered candidate n)).isNone with
  | none => exact absurd hfree (by simpa using List.find?_eq_none.mp hfind i hi)
  | some n =>
    obtain ⟨hn, hrange, hleast⟩ := List.find?_range'_eq_some.mp hfind
    refine ⟨n, (List.mem_range'_1.mp hrange).1, by simp [firstFree, hfind], by simpa using hn, ?_⟩
    intro m hm hmn
    simpa [Option.isSome_iff_ne_none] using hleast m hm hmn

namespace Arena

variable {a : Arena} {h : Hierarchy} {x : Nat}

/-! ### Serving one object after the other -/

/-- The permalink that an object gets after those assigned before. -/
def assigned (a : Arena) (h : Hierarchy) (taken : Permalinks) (x : Nat) : String :=
  match taken.owner? (a.candidate h taken x) with
  | none => a.candidate h taken x
  | some _ => firstFree (a.candidate h taken x) taken

/-- The warning that an object does not get its candidate. -/
def renaming? (a : Arena) (h : Hierarchy) (taken : Permalinks) (x : Nat) : Option LinkProblem :=
  (taken.owner? (a.candidate h taken x)).map fun holder =>
    .duplicatePermalink (a.idOf x) (a.idOf holder) (a.candidate h taken x) (a.assigned h taken x)

/-- One step of assigning adds a permalink, and a warning if it is not the one wanted. -/
theorem assignOne_eq (a : Arena) (h : Hierarchy) (s : Permalinks × List LinkProblem) (x : Nat) :
    a.assignOne h s x
      = (s.1 ++ [(a.assigned h s.1 x, x)], s.2 ++ (a.renaming? h s.1 x).toList) := by
  obtain ⟨taken, warnings⟩ := s
  simp only [assignOne, assigned, renaming?]
  cases taken.owner? (a.candidate h taken x) <;> simp

/-- What is assigned is free. -/
theorem owner?_assigned (a : Arena) (h : Hierarchy) (taken : Permalinks) (x : Nat) :
    taken.owner? (a.assigned h taken x) = none := by
  unfold assigned
  split
  · assumption
  · obtain ⟨n, _, heq, hfree, _⟩ := firstFree_spec (a.candidate h taken x) taken
    rw [heq]
    exact hfree

/-- The permalinks assigned and the warnings made when some objects have been served, in order. -/
def served (a : Arena) (h : Hierarchy) (done : List Nat) : Permalinks × List LinkProblem :=
  done.foldl (a.assignOne h) ([], [])

/-- One step of serving. -/
theorem served_append_singleton (a : Arena) (h : Hierarchy) (done : List Nat) (x : Nat) :
    a.served h (done ++ [x])
      = ((a.served h done).1 ++ [(a.assigned h (a.served h done).1 x, x)],
        (a.served h done).2 ++ (a.renaming? h (a.served h done).1 x).toList) := by
  rw [served, List.foldl_append, List.foldl_cons, List.foldl_nil, assignOne_eq]
  rfl

/-- **Later steps add to what has been assigned**, one permalink for each object served. -/
theorem served_append (a : Arena) (h : Hierarchy) (before after : List Nat) :
    ∃ rest, (a.served h (before ++ after)).1 = (a.served h before).1 ++ rest
      ∧ rest.map (·.2) = after := by
  induction after using List.reverseRecOn with
  | nil => exact ⟨[], by simp⟩
  | append_singleton after x ih =>
    obtain ⟨rest, hserved, hrest⟩ := ih
    rw [← List.append_assoc, served_append_singleton, hserved, List.append_assoc]
    exact ⟨_, rfl, by simp [hrest]⟩

/-- Exactly the objects served have permalinks. -/
theorem places_served (a : Arena) (h : Hierarchy) (done : List Nat) :
    (a.served h done).1.map (·.2) = done := by
  obtain ⟨rest, hserved, hrest⟩ := a.served_append h [] done
  rw [List.nil_append] at hserved
  rw [hserved, List.map_append, hrest]
  rfl

/-- **No permalink is assigned twice.** -/
theorem nodup_permalinks_served (a : Arena) (h : Hierarchy) (done : List Nat) :
    ((a.served h done).1.map (·.1)).Nodup := by
  induction done using List.reverseRecOn with
  | nil => exact List.nodup_nil
  | append_singleton done x ih =>
    -- what is assigned was chosen because nobody has it
    have hfree : a.assigned h (a.served h done).1 x ∉ (a.served h done).1.map (·.1) :=
      Permalinks.owner?_eq_none_iff.mp (a.owner?_assigned h _ x)
    rw [served_append_singleton, List.map_append, List.nodup_append]
    refine ⟨ih, by simp, ?_⟩
    rintro s hs s' hs' rfl
    rw [List.map_cons, List.map_nil, List.mem_singleton] at hs'
    rw [hs'] at hs
    exact hfree hs

/-! ### All objects -/

/-- Every object is served, and served once. -/
theorem servingOrder_perm (a : Arena) (h : Hierarchy) :
    (a.servingOrder h).Perm (List.range a.objects.length) := List.mergeSort_perm _ _

theorem mem_servingOrder : x ∈ a.servingOrder h ↔ x < a.objects.length := by
  rw [(a.servingOrder_perm h).mem_iff, List.mem_range]

theorem nodup_servingOrder (a : Arena) (h : Hierarchy) : (a.servingOrder h).Nodup :=
  (a.servingOrder_perm h).nodup_iff.mpr List.nodup_range

/-- Where no object is deeper than a later one, objects are served in their order. -/
theorem servingOrder_eq_range
    (hdepths : (List.range a.objects.length).Pairwise fun x y => a.depth h x ≤ a.depth h y) :
    a.servingOrder h = List.range a.objects.length :=
  List.mergeSort_of_pairwise (by simpa [depth] using hdepths)

/-- The permalinks of a graph are those assigned when all objects have been served. -/
theorem permalinks_toGraph (a : Arena) :
    a.toGraph.1.permalinks = (a.served a.link.1 (a.servingOrder a.link.1)).1 := rfl

theorem nodup_permalinks (a : Arena) : (a.toGraph.1.permalinks.map (·.1)).Nodup := by
  rw [permalinks_toGraph]
  exact a.nodup_permalinks_served _ _

/-- The permalinks belong to the objects in the order of serving. -/
theorem places_permalinks (a : Arena) :
    a.toGraph.1.permalinks.map (·.2) = a.servingOrder a.link.1 := by
  rw [permalinks_toGraph, places_served]

/-- An object has the permalink that is assigned to it. -/
theorem mem_permalinks_iff {s : String} :
    (s, x) ∈ a.toGraph.1.permalinks ↔ x < a.objects.length ∧ a.toGraph.1.permalink x = s := by
  -- Each object is served once, so the look-up of its permalink finds the only entry.
  have hn : (a.toGraph.1.permalinks.map (·.2)).Nodup := by
    rw [places_permalinks]
    exact a.nodup_servingOrder _
  have hlt : ∀ {t}, (t, x) ∈ a.toGraph.1.permalinks → x < a.objects.length := by
    intro t ht
    rw [← mem_servingOrder (h := a.link.1), ← places_permalinks]
    exact List.mem_map.mpr ⟨_, ht, rfl⟩
  constructor
  · intro hmem
    refine ⟨hlt hmem, ?_⟩
    rw [Graph.permalink, (Permalinks.of?_eq_some_iff hn).mpr hmem, Option.getD_some]
  · rintro ⟨hx, rfl⟩
    rw [← mem_servingOrder (h := a.link.1), ← places_permalinks] at hx
    obtain ⟨⟨t, _⟩, ht, rfl⟩ := List.mem_map.mp hx
    rw [Graph.permalink, (Permalinks.of?_eq_some_iff hn).mpr ht, Option.getD_some]
    exact ht

/-- The look-up of a permalink yields the object that has it. -/
theorem holder?_eq_some_iff {s : String} :
    a.toGraph.1.holder? s = some x ↔ x < a.objects.length ∧ a.toGraph.1.permalink x = s := by
  rw [Graph.holder?, Permalinks.owner?_eq_some_iff a.nodup_permalinks, mem_permalinks_iff]

/-- No two objects have the same permalink. -/
theorem permalink_injective {y : Nat} (hx : x < a.objects.length) (hy : y < a.objects.length)
    (heq : a.toGraph.1.permalink x = a.toGraph.1.permalink y) : x = y := by
  have hxs := holder?_eq_some_iff.mpr ⟨hx, rfl⟩
  have hys := holder?_eq_some_iff.mpr ⟨hy, heq.symm⟩
  rw [hxs] at hys
  exact Option.some.inj hys

/-- **Every object has a permalink of its own**: those of two objects differ, and the look-up of a
permalink yields an object if and only if it is the permalink of that object. -/
theorem permalink_unique (a : Arena) :
    (∀ x y, x < a.objects.length → y < a.objects.length → x ≠ y →
        a.toGraph.1.permalink x ≠ a.toGraph.1.permalink y)
      ∧ ∀ s x, a.toGraph.1.holder? s = some x
        ↔ x < a.objects.length ∧ a.toGraph.1.permalink x = s :=
  ⟨fun _ _ hx hy hne heq => hne (permalink_injective hx hy heq), fun _ _ => holder?_eq_some_iff⟩

end Arena

end DocGraph
