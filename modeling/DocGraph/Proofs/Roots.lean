import DocGraph.Document
import DocGraph.Proofs.Building
import Mathlib.Data.List.Forall2

namespace DocGraph

/-!
# Documents of roots

* `Document.compounds_ofRoots`, `Document.exists_ofRoots` — a document has the compounds of each of
  its roots, and there is one if there is one of each root;
* `Document.exists_buildCompound` — every compound of a document was built of an element.
-/

/-- Actions on the members of a list succeed if each one does. -/
theorem mapM_eq_ok_iff {ε α β : Type} {f : α → Except ε β} {l : List α} {r : List β} :
    l.mapM f = .ok r ↔ List.Forall₂ (fun x y => f x = .ok y) l r := by
  induction l generalizing r with
  | nil => simp [pure, Except.pure, eq_comm]
  | cons x l ih =>
    rw [List.mapM_cons, Except.bind_eq_ok_iff, List.forall₂_cons_left_iff]
    simp only [Except.bind_eq_ok_iff, ih, pure, Except.pure, Except.ok.injEq]
    constructor
    · rintro ⟨y, hy, ys, hys, rfl⟩
      exact ⟨y, ys, hy, hys, rfl⟩
    · rintro ⟨y, ys, hy, hys, rfl⟩
      exact ⟨y, hy, ys, hys, rfl⟩

/-- What comes of actions on the members of a list comes of one of them. -/
theorem exists_of_mem_mapM {ε α β : Type} {f : α → Except ε β} {l : List α} {r : List β} {y : β}
    (hr : l.mapM f = .ok r) (hy : y ∈ r) : ∃ x ∈ l, f x = .ok y := by
  rw [mapM_eq_ok_iff] at hr
  induction hr with
  | nil => exact absurd hy List.not_mem_nil
  | @cons x z l r hxz _ ih =>
    rcases List.mem_cons.mp hy with rfl | hy
    · exact ⟨x, List.mem_cons_self, hxz⟩
    · obtain ⟨x', hx', hxy⟩ := ih hy
      exact ⟨x', List.mem_cons_of_mem x hx', hxy⟩

namespace Document

variable {roots : List Element} {root : Element} {d : Document}

/-- A document has the compounds of each root, one root after the other. -/
theorem compounds_ofRoots (hd : ofRoots roots = .ok d) :
    ∃ docs, List.Forall₂ (fun r e => ofRoot r = .ok e) roots docs
      ∧ d.compounds = docs.flatMap (·.compounds) := by
  obtain ⟨docs, hdocs, hd⟩ := Except.bind_eq_ok_iff.mp hd
  refine ⟨docs, mapM_eq_ok_iff.mp hdocs, ?_⟩
  cases docs with
  | nil =>
    obtain rfl := Except.ok.inj hd
    rfl
  | cons first others =>
    obtain rfl := Except.ok.inj hd
    rfl

/-- Where each root has a document, all of them have one. -/
theorem exists_ofRoots {docs : List Document}
    (hdocs : List.Forall₂ (fun r e => ofRoot r = .ok e) roots docs) :
    ∃ d, ofRoots roots = .ok d := by
  rw [← mapM_eq_ok_iff] at hdocs
  cases docs with
  | nil => exact ⟨_, Except.bind_eq_ok_iff.mpr ⟨_, hdocs, rfl⟩⟩
  | cons first others => exact ⟨_, Except.bind_eq_ok_iff.mpr ⟨_, hdocs, rfl⟩⟩

/-- The compounds of a root are what its content comes to. -/
theorem mapM_compoundOf_of_ofRoot (hd : ofRoot root = .ok d) :
    root.inner.mapM (compoundOf root) = .ok d.compounds := by
  rw [ofRoot] at hd
  split at hd
  · cases hd
  · obtain ⟨-, -, hd⟩ := Except.bind_eq_ok_iff.mp hd
    obtain ⟨compounds, hcompounds, hd⟩ := Except.bind_eq_ok_iff.mp hd
    obtain rfl := Except.ok.inj hd
    exact hcompounds

/-- What a root has for a compound is built as one. -/
theorem buildCompound_of_compoundOf {piece : Content Element} {n : Node}
    (hn : compoundOf root piece = .ok n) : ∃ e, buildCompound e = .ok n := by
  cases piece with
  | text s => cases hn
  | child e =>
    rw [compoundOf] at hn
    split at hn
    · exact ⟨e, hn⟩
    · cases hn

/-- **Every compound of a document was built** of some element. -/
theorem exists_buildCompound (hd : ofRoots roots = .ok d) :
    ∀ n ∈ d.compounds, ∃ e, buildCompound e = .ok n := by
  obtain ⟨docs, hdocs, hcompounds⟩ := compounds_ofRoots hd
  intro n hn
  rw [hcompounds] at hn
  obtain ⟨doc, hdoc, hn⟩ := List.mem_flatMap.mp hn
  obtain ⟨root, -, hroot⟩ := exists_of_mem_mapM (mapM_eq_ok_iff.mpr hdocs) hdoc
  obtain ⟨piece, -, hpiece⟩ := exists_of_mem_mapM (mapM_compoundOf_of_ofRoot hroot) hn
  exact buildCompound_of_compoundOf hpiece

end Document

end DocGraph
