import DocGraph.Markup.Parse
import DocGraph.Proofs.Outline

namespace DocGraph

/-!
# What events spell

A document is read event by event, with a stack of open elements.  Which sequences of events are a
document, and what is wrong with the others, can be said without the stack:

* `Content.merge` — pieces of content with adjacent character data joined;
* `Markup.Spells`, `Markup.IsDocument` — the events of pieces of content, and those of a document;
* `Markup.LeavesOpen`, `Markup.Faulty` — events after which elements are open, and the faults of
  events that are no document;
* `Markup.IsDocument.foldlM`, `Markup.Faulty.treeOf` — with the stack, both are found.
-/

/-! ### Joined character data -/

namespace Content

variable {α : Type} {l : List (Content α)} {s : String} {a : α}

/-- Pieces of content with adjacent character data joined. -/
def merge : List (Content α) → List (Content α)
  | [] => []
  | .text s :: rest => consText s (merge rest)
  | .child a :: rest => .child a :: merge rest

/-- Character data at both ends is put there in either order. -/
theorem consText_appendText (s t : String) (l : List (Content α)) :
    consText t (appendText s l) = appendText s (consText t l) := by
  match l with
  | [] => rfl
  | [.text u] => simp [consText, appendText, String.append_assoc]
  | .text u :: c :: rest => simp [consText, appendText]
  | [.child a] => simp [consText, appendText]
  | .child a :: c :: rest => simp [consText, appendText]

/-- Character data added at the end of pieces is added at the end of what they come to. -/
theorem merge_append_text (l : List (Content α)) (s : String) :
    merge (l ++ [.text s]) = appendText s (merge l) := by
  induction l with
  | nil => rfl
  | cons c l ih =>
    cases c with
    | text t =>
      show consText t (merge (l ++ [.text s])) = appendText s (consText t (merge l))
      rw [ih, consText_appendText]
    | child a =>
      show .child a :: merge (l ++ [.text s]) = appendText s (.child a :: merge l)
      rw [ih]
      rfl

/-- Character data at the beginning is no matter to a child at the end. -/
theorem consText_append_child (s : String) (l : List (Content α)) (a : α) :
    consText s (l ++ [.child a]) = consText s l ++ [.child a] := by
  match l with
  | [] => rfl
  | .text t :: rest => rfl
  | .child b :: rest => rfl

/-- A child at the end divides nothing. -/
theorem merge_append_child (l : List (Content α)) (a : α) :
    merge (l ++ [.child a]) = merge l ++ [.child a] := by
  induction l with
  | nil => rfl
  | cons c l ih =>
    cases c with
    | text t =>
      show consText t (merge (l ++ [.child a])) = consText t (merge l) ++ [.child a]
      rw [ih, consText_append_child]
    | child b =>
      show .child b :: merge (l ++ [.child a]) = .child b :: merge l ++ [.child a]
      rw [ih]
      rfl

end Content

namespace Markup

/-! ### Events that spell content -/

/-- Whether an event carries something. -/
def Event.carries : Event → Bool
  | .skipped => false
  | _ => true

/-- The events that carry something. -/
def carrying (events : List Event) : List Event := events.filter (·.carries)

/-- Events spell pieces of content: one for each piece of character data and for each element
without content, and the start and end of every other element around those of its own content. -/
inductive Spells : List (Content Element) → List Event → Prop
  | nil : Spells [] []
  | text {s : String} {pieces : List (Content Element)} {events : List Event} :
      Spells pieces events → Spells (.text s :: pieces) (.text s :: events)
  | leaf {e : Element} {pieces : List (Content Element)} {events : List Event} :
      Spells pieces events → Spells (.child e :: pieces) (.leaf e :: events)
  | nested {e : Element} {inner pieces : List (Content Element)} {events rest : List Event} :
      Spells inner events → Spells pieces rest →
      Spells (.child { e with content := Content.merge inner } :: pieces)
        (.opened e :: (events ++ .closed :: rest))

/-- Events are those of a document: around its root, if it has one, there are only blanks. -/
def IsDocument (root : Option Element) (events : List Event) : Prop :=
  ∃ pieces, Spells pieces events ∧ Content.children pieces = root.toList
    ∧ ∀ s, .text s ∈ pieces → isBlankText s = true

/-- Events leave elements open.  Of each there are its start and the pieces so far, innermost
first. -/
inductive LeavesOpen : List (Element × List (Content Element)) → List Event → Prop
  | nil : LeavesOpen [] []
  | opened {outer : List (Element × List (Content Element))} {before events : List Event}
      {e : Element} {pieces : List (Content Element)} :
      LeavesOpen outer before → Spells pieces events →
      LeavesOpen ((e, pieces) :: outer) (before ++ .opened e :: events)

/-- What is wrong with events that are no document. -/
inductive Faulty : Error → List Event → Prop
  /-- There is more than blanks outside the root. -/
  | text {root : Option Element} {before rest : List Event} {s : String} :
      IsDocument root before → isBlankText s = false →
      Faulty (.textOutsideRoot (trimmed s)) (before ++ .text s :: rest)
  /-- A second outermost element has ended. -/
  | second {root e : Element} {before events rest : List Event} :
      IsDocument (some root) before → Spells [.child e] events →
      Faulty (.multipleRoots e.name) (before ++ events ++ rest)
  /-- An element has not ended. -/
  | unclosed {root : Option Element} {before events : List Event} {e : Element}
      {pieces : List (Content Element)} {outer : List (Element × List (Content Element))} :
      IsDocument root before → LeavesOpen ((e, pieces) :: outer) events →
      Faulty (.unclosedElement e.name) (before ++ events)
  /-- There is no element. -/
  | noRoot {events : List Event} : IsDocument none events → Faulty .noRoot events

variable {e x : Element} {pieces pieces' : List (Content Element)} {events events' : List Event}
variable {before : List Event} {root : Option Element} {f f' : Forest} {ev : Event}
variable {opens : List (Element × List (Content Element))}

/-- Events that spell contents spell them one behind the other. -/
theorem Spells.append (h : Spells pieces events) (h' : Spells pieces' events') :
    Spells (pieces ++ pieces') (events ++ events') := by
  induction h with
  | nil => exact h'
  | text _ ih => exact .text ih
  | leaf _ ih => exact .leaf ih
  | @nested e inner _ _ _ hinner _ _ ih =>
    have hnested := Spells.nested (e := e) hinner ih
    simpa using hnested

/-- Without events there is a document without root. -/
theorem isDocument_nil : IsDocument none [] := ⟨[], .nil, rfl, by simp⟩

/-- Blanks may stand outside the root. -/
theorem IsDocument.append_blank (h : IsDocument root before) {s : String}
    (hs : isBlankText s = true) : IsDocument root (before ++ [.text s]) := by
  obtain ⟨pieces, hpieces, hroot, hblank⟩ := h
  refine ⟨pieces ++ [.text s], hpieces.append (.text .nil), ?_, ?_⟩
  · rw [Content.children_append, hroot]
    exact List.append_nil _
  · intro t ht
    rcases List.mem_append.mp ht with ht | ht
    · exact hblank t ht
    · obtain rfl : t = s := by simpa using ht
      exact hs

/-- An element is the root if there is none. -/
theorem IsDocument.append_root (h : IsDocument none before) (hx : Spells [.child x] events) :
    IsDocument (some x) (before ++ events) := by
  obtain ⟨pieces, hpieces, hroot, hblank⟩ := h
  refine ⟨pieces ++ [.child x], hpieces.append hx, ?_, ?_⟩
  · rw [Content.children_append, hroot]
    rfl
  · intro t ht
    rcases List.mem_append.mp ht with ht | ht
    · exact hblank t ht
    · simp at ht

/-- Further pieces of the innermost element. -/
theorem LeavesOpen.append {outer : List (Element × List (Content Element))}
    (h : LeavesOpen ((e, pieces) :: outer) before) (h' : Spells pieces' events) :
    LeavesOpen ((e, pieces ++ pieces') :: outer) (before ++ events) := by
  cases h with
  | opened houter hpieces =>
    have hopened := LeavesOpen.opened (e := e) houter (hpieces.append h')
    simpa using hopened

/-! ### Frames -/

/-- The frame of an open element. -/
def frameOf (o : Element × List (Content Element)) : Frame := ⟨o.1, (Content.merge o.2).reverse⟩

/-- Character data is added to the innermost open element. -/
theorem addText_frameOf (e : Element) (pieces : List (Content Element)) (s : String) :
    (frameOf (e, pieces)).addText s = frameOf (e, pieces ++ [.text s]) := by
  unfold frameOf
  rw [Content.merge_append_text]
  unfold Frame.addText
  dsimp only
  -- The last merged piece takes the text in if it is a text itself.
  cases hlast : (Content.merge pieces).reverse with
  | nil =>
    rw [List.reverse_eq_nil_iff.mp hlast]
    rfl
  | cons c rest =>
    have hmerge : Content.merge pieces = rest.reverse ++ [c] := by
      rw [← List.reverse_reverse (Content.merge pieces), hlast, List.reverse_cons]
    rw [hmerge]
    cases c with
    | text t => simp [Content.appendText_append_text]
    | child a => simp [Content.appendText_append_child]

theorem addChild_frameOf (e : Element) (pieces : List (Content Element)) (x : Element) :
    (frameOf (e, pieces)).addChild x = frameOf (e, pieces ++ [.child x]) := by
  unfold frameOf
  rw [Content.merge_append_child, List.reverse_append]
  rfl

/-- An element is complete with its character data merged. -/
theorem complete_frameOf (e : Element) (pieces : List (Content Element)) :
    (frameOf (e, pieces)).complete = { e with content := Content.merge pieces } := by
  show { e with content := (Content.merge pieces).reverse.reverse } = _
  rw [List.reverse_reverse]

/-! ### Spelled events are read -/

/-- **Within an element**, events that spell pieces add these to it. -/
theorem Spells.foldlM_inside (h : Spells pieces events) (e : Element)
    (so_far : List (Content Element)) (outer : List Frame) (root : Option Element) :
    events.foldlM Forest.step ⟨frameOf (e, so_far) :: outer, root⟩
      = .ok ⟨frameOf (e, so_far ++ pieces) :: outer, root⟩ := by
  -- The innermost frame grows by what is spelled, whatever it held before.
  induction h generalizing e so_far outer with
  | nil => simp [pure, Except.pure]
  | @text s pieces events _ ih =>
    rw [List.foldlM_cons]
    show events.foldlM Forest.step ⟨(frameOf (e, so_far)).addText s :: outer, root⟩ = _
    rw [addText_frameOf, ih, List.append_assoc, List.singleton_append]
  | @leaf x pieces events _ ih =>
    rw [List.foldlM_cons]
    show events.foldlM Forest.step ⟨(frameOf (e, so_far)).addChild x :: outer, root⟩ = _
    rw [addChild_frameOf, ih, List.append_assoc, List.singleton_append]
  | @nested x inner pieces events rest _ _ ihinner ih =>
    rw [List.foldlM_cons]
    show (events ++ .closed :: rest).foldlM Forest.step
      ⟨frameOf (x, []) :: frameOf (e, so_far) :: outer, root⟩ = _
    rw [List.foldlM_append, ihinner, List.nil_append]
    show rest.foldlM Forest.step
      ⟨(frameOf (e, so_far)).addChild (frameOf (x, inner)).complete :: outer, root⟩ = _
    rw [complete_frameOf, addChild_frameOf, ih, List.append_assoc, List.singleton_append]

/-- An element outside all others becomes the root, unless there is one. -/
theorem Spells.foldlM_element (h : Spells [.child x] events) (root : Option Element) :
    events.foldlM Forest.step ⟨[], root⟩ = Forest.addElement ⟨[], root⟩ x := by
  -- The events of an element leave the frames as they were and then add it.
  cases h with
  | leaf hnil =>
    cases hnil
    rw [List.foldlM_cons]
    show (Forest.addElement ⟨[], root⟩ x >>= fun f => [].foldlM Forest.step f) = _
    cases Forest.addElement ⟨[], root⟩ x <;> rfl
  | @nested e inner _ evs _ hinner hnil =>
    cases hnil
    rw [List.foldlM_cons]
    show (evs ++ [Event.closed]).foldlM Forest.step ⟨[frameOf (e, [])], root⟩ = _
    rw [List.foldlM_append, hinner.foldlM_inside, List.nil_append, ← complete_frameOf]
    show ([Event.closed].foldlM Forest.step ⟨[frameOf (e, inner)], root⟩) = _
    rw [List.foldlM_cons]
    show (Forest.addElement ⟨[], root⟩ (frameOf (e, inner)).complete
      >>= fun f => [].foldlM Forest.step f) = _
    cases Forest.addElement ⟨[], root⟩ (frameOf (e, inner)).complete <;> rfl

/-- An element outside all others becomes the root, since there is no other. -/
theorem Spells.foldlM_root (h : Spells [.child x] events) (rest : List Event)
    {r r' : Option Element} (hroot : r.toList ++ x :: Content.children pieces = r'.toList) :
    (some x).toList ++ Content.children pieces = r'.toList
      ∧ (events ++ rest).foldlM Forest.step ⟨[], r⟩ = rest.foldlM Forest.step ⟨[], some x⟩ := by
  cases r with
  | none =>
    refine ⟨hroot, ?_⟩
    rw [List.foldlM_append, h.foldlM_element]
    rfl
  | some y =>
    have hlength := congrArg List.length hroot
    have hmost : r'.toList.length ≤ 1 := by cases r' <;> simp
    simp only [Option.toList_some, List.length_append, List.length_cons, List.length_nil] at hlength
    omega

/-- Outside all elements, pieces are read if there is one root in all and the rest is blank. -/
theorem Spells.foldlM_outside (h : Spells pieces events) {r r' : Option Element}
    (hroot : r.toList ++ Content.children pieces = r'.toList)
    (hblank : ∀ s, .text s ∈ pieces → isBlankText s = true) :
    events.foldlM Forest.step ⟨[], r⟩ = .ok ⟨[], r'⟩ := by
  induction h generalizing r with
  | nil =>
    have hsame : r = r' := by cases r <;> cases r' <;> simp_all [Content.children]
    rw [hsame]
    rfl
  | @text s pieces events _ ih =>
    have hs : isBlankText s = true := hblank s List.mem_cons_self
    have hread : Forest.step ⟨[], r⟩ (.text s) = .ok ⟨[], r⟩ := by
      simp [Forest.step, Forest.addText, hs]
    rw [List.foldlM_cons, hread]
    exact ih hroot fun t ht => hblank t (List.mem_cons_of_mem _ ht)
  | @leaf x pieces events _ ih =>
    have hx : Spells [.child x] [.leaf x] := .leaf .nil
    obtain ⟨hroot, hread⟩ := hx.foldlM_root events hroot
    rw [List.singleton_append] at hread
    rw [hread]
    exact ih hroot fun t ht => hblank t (List.mem_cons_of_mem _ ht)
  | @nested x inner pieces events rest hinner _ _ ih =>
    obtain ⟨hroot, hread⟩ := (Spells.nested (e := x) hinner .nil).foldlM_root rest hroot
    rw [List.cons_append, List.append_assoc, List.singleton_append] at hread
    rw [hread]
    exact ih hroot fun t ht => hblank t (List.mem_cons_of_mem _ ht)

/-- **The events of a document** leave its root. -/
theorem IsDocument.foldlM (h : IsDocument root events) :
    events.foldlM Forest.step {} = .ok ⟨[], root⟩ := by
  obtain ⟨pieces, hpieces, hroot, hblank⟩ := h
  exact hpieces.foldlM_outside (r := none) hroot hblank

/-- **The events of open elements** leave a frame for each. -/
theorem LeavesOpen.foldlM (h : LeavesOpen opens events) (root : Option Element) :
    events.foldlM Forest.step ⟨[], root⟩ = .ok ⟨opens.map frameOf, root⟩ := by
  induction h with
  | nil => rfl
  | @opened outer before events e pieces _ hpieces ih =>
    rw [List.foldlM_append, ih]
    show (Event.opened e :: events).foldlM Forest.step ⟨outer.map frameOf, root⟩ = _
    rw [List.foldlM_cons]
    show events.foldlM Forest.step ⟨frameOf (e, []) :: outer.map frameOf, root⟩ = _
    rw [hpieces.foldlM_inside, List.nil_append, List.map_cons]

/-! ### Faults are found -/

/-- **Faults are found**, each as the error that it is. -/
theorem Faulty.treeOf {error : Error} (h : Faulty error events) : treeOf events = .error error := by
  unfold Markup.treeOf
  -- Each fault comes behind events that are read without one.
  cases h with
  | @text root before rest s hbefore hs =>
    have hread : Forest.step ⟨[], root⟩ (.text s) = .error (.textOutsideRoot (trimmed s)) := by
      simp [Forest.step, Forest.addText, hs]
    rw [List.foldlM_append, hbefore.foldlM]
    show ((Event.text s :: rest).foldlM Forest.step ⟨[], root⟩ >>= Forest.finish) = _
    rw [List.foldlM_cons, hread]
    rfl
  | @second root e before events rest hbefore hevents =>
    rw [List.foldlM_append, List.foldlM_append, hbefore.foldlM]
    show ((events.foldlM Forest.step ⟨[], some root⟩ >>= fun f => rest.foldlM Forest.step f)
      >>= Forest.finish) = _
    rw [hevents.foldlM_element]
    rfl
  | @unclosed root before events e pieces outer hbefore hevents =>
    rw [List.foldlM_append, hbefore.foldlM]
    show (events.foldlM Forest.step ⟨[], root⟩ >>= Forest.finish) = _
    rw [hevents.foldlM]
    rfl
  | noRoot hevents =>
    rw [hevents.foldlM]
    rfl

end Markup

end DocGraph
