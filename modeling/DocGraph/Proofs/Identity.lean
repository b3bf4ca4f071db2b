import DocGraph.Proofs.Claims
import Mathlib.Data.List.Nodup

namespace DocGraph

/-!
# Objects are known by their ids

* `madeObjects` — the objects made of compounds, as far as there are any;
* `nodup_ids_identify`, `Arena.nodup_ids_ofDocument` — no two of them have the same id;
* `Arena.lookup?_eq_some_iff`, `Arena.lookup?_eq_none_iff` — hence the look-up of an id yields the
  object that has it.
-/

/-- The objects among what becomes of compounds. -/
def madeObjects (outcomes : List (Except Omission Object)) : List Object :=
  outcomes.filterMap Except.toOption

@[simp] theorem madeObjects_nil : madeObjects [] = [] := rfl

@[simp] theorem madeObjects_error_cons (w : Omission) (outcomes : List (Except Omission Object)) :
    madeObjects (.error w :: outcomes) = madeObjects outcomes := rfl

@[simp] theorem madeObjects_ok_cons (o : Object) (outcomes : List (Except Omission Object)) :
    madeObjects (.ok o :: outcomes) = o :: madeObjects outcomes := rfl

theorem madeObjects_map_error_append (ws : List Omission)
    (outcomes : List (Except Omission Object)) :
    madeObjects (ws.map .error ++ outcomes) = madeObjects outcomes := by
  induction ws with
  | nil => rfl
  | cons w ws ih => exact ih

/-- **No id is used twice**, nor one that has been taken before. -/
theorem nodup_ids_identify (p : PermalinkStyle) (place : Nat) (taken : List String)
    (nodes : List Node) :
    ((madeObjects (identify p place taken nodes)).map (·.id)).Nodup
      ∧ ∀ o ∈ madeObjects (identify p place taken nodes), o.id ∉ taken := by
  induction nodes generalizing place taken with
  | nil => simp [identify]
  | cons n nodes ih =>
    rw [identify]
    split
    · exact ih (place + 1) taken
    · rename_i d _
      split
      · exact ih (place + 1) taken
      · split
        · exact ih (place + 1) taken
        -- An object is made only of an id that is not taken, and takes it for all that follow.
        · rename_i hfree
          obtain ⟨hnodup, htaken⟩ := ih (place + 1) (d.id :: taken)
          rw [madeObjects_ok_cons, List.map_cons, List.nodup_cons]
          refine ⟨⟨fun hmem => ?_, hnodup⟩, List.forall_mem_cons.mpr ⟨?_, fun o ho => ?_⟩⟩
          · obtain ⟨o, ho, hid⟩ := List.mem_map.mp hmem
            exact htaken o ho (hid ▸ List.mem_cons_self)
          · rwa [List.contains_iff_mem] at hfree
          · exact fun hmem => htaken o ho (List.mem_cons_of_mem _ hmem)

namespace Arena

variable {a : Arena} {id : String} {x : Nat}

/-- **No two objects of a document have the same id.** -/
theorem nodup_ids_ofDocument (p : PermalinkStyle) (d : Document) :
    ((ofDocument p d).1.objects.map (·.id)).Nodup :=
  (nodup_ids_identify p 0 [] d.compounds).1

/-- **The look-up of an id** yields the object that has it. -/
theorem lookup?_eq_some_iff (hn : (a.objects.map (·.id)).Nodup) :
    a.lookup? id = some x ↔ ∃ o, a.objects[x]? = some o ∧ o.id = id := by
  rw [lookup?, List.findIdx?_eq_some_iff_getElem]
  constructor
  · rintro ⟨hx, hid, -⟩
    exact ⟨_, List.getElem?_eq_getElem hx, by simpa using hid⟩
  · rintro ⟨o, ho, rfl⟩
    obtain ⟨hx, rfl⟩ := List.getElem?_eq_some_iff.mp ho
    -- no earlier object has the same id
    have hne := List.pairwise_iff_getElem.mp (List.pairwise_map.mp hn)
    exact ⟨hx, by simp, fun y hy => by simpa using hne y x (Nat.lt_trans hy hx) hx hy⟩

/-- The look-up fails if no object has the id. -/
theorem lookup?_eq_none_iff : a.lookup? id = none ↔ ∀ o ∈ a.objects, o.id ≠ id := by
  simp [lookup?]

end Arena

end DocGraph
