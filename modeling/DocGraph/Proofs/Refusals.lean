import DocGraph.Proofs.Acceptance
import Mathlib.Logic.Relation

namespace DocGraph

/-!
# Refusals

Building stops at the first violation.  It is one form that finds it, in one element, and the forms
of all elements above let it pass:

* `Form.Refuses`, `Form.RefusesPiece` — what a form finds wrong with an element itself, its own
  content included, when all that it looks at before is in order;
* `Element.Contains` — the elements of a tree;
* `Form.StopsAt`, `Form.Passes`, `Form.buildContent_eq_error_iff` — building stops at a piece of a
  content when it has passed those before;
* `Form.Enters`, `Form.Reaches` — building an element comes to one of its children, with the form of
  the child, and so to elements further below;
* `Form.build_eq_error_iff` — an element is refused if its form refuses it, or if it comes to a
  child that is refused;
* `Form.exists_refuses` — every violation is found by one form in one element.
-/

/-! ### Failures of actions -/

/-- An action after another one fails if the first fails, or if that succeeds and the other fails.
-/
theorem Except.bind_eq_error_iff {ε α β : Type} {x : Except ε α} {f : α → Except ε β} {v : ε} :
    (x >>= f) = .error v ↔ x = .error v ∨ ∃ a, x = .ok a ∧ f a = .error v := by
  cases x with
  | error w => simp [bind, Except.bind]
  | ok a => simp [bind, Except.bind]

theorem Except.map_eq_error_iff {ε α β : Type} {x : Except ε α} {f : α → β} {v : ε} :
    x.map f = .error v ↔ x = .error v := by
  cases x <;> simp [Except.map]

/-- Actions on the members of a list fail at the first that does. -/
theorem mapM_eq_error_iff {ε α β : Type} {f : α → Except ε β} {l : List α} {v : ε} :
    l.mapM f = .error v ↔ ∃ done a rest, l = done ++ a :: rest
      ∧ (∀ b ∈ done, ∃ r, f b = .ok r) ∧ f a = .error v := by
  induction l with
  | nil =>
    refine iff_of_false nofun ?_
    rintro ⟨done, a, rest, hnil, -⟩
    simp at hnil
  | cons b l ih =>
    -- putting the results together cannot fail
    have hlast : ∀ {r : β}, (l.mapM f >>= fun rs => pure (r :: rs)) = .error v
        ↔ l.mapM f = .error v := by
      intro r
      rw [Except.bind_eq_error_iff]
      exact or_iff_left (by rintro ⟨rs, -, h⟩; cases h)
    rw [List.mapM_cons, Except.bind_eq_error_iff]
    simp only [hlast, ih]
    constructor
    · rintro (hb | ⟨r, hb, done, a, rest, rfl, hdone, ha⟩)
      · exact ⟨[], b, l, rfl, nofun, hb⟩
      · exact ⟨b :: done, a, rest, rfl, List.forall_mem_cons.mpr ⟨⟨r, hb⟩, hdone⟩, ha⟩
    · rintro ⟨done, a, rest, hl, hdone, ha⟩
      cases done with
      | nil =>
        obtain ⟨rfl, rfl⟩ := List.cons.inj hl
        exact Or.inl ha
      | cons c done =>
        obtain ⟨rfl, rfl⟩ := List.cons.inj hl
        obtain ⟨⟨r, hb⟩, hdone⟩ := List.forall_mem_cons.mp hdone
        exact Or.inr ⟨r, hb, done, a, rest, rfl, hdone, ha⟩

/-- A fold over a list fails at the first step that does. -/
theorem foldlM_eq_error_iff {ε α β : Type} {f : β → α → Except ε β} {l : List α} {init : β}
    {v : ε} :
    l.foldlM f init = .error v ↔ ∃ done a rest state, l = done ++ a :: rest
      ∧ done.foldlM f init = .ok state ∧ f state a = .error v := by
  induction l generalizing init with
  | nil =>
    refine iff_of_false nofun ?_
    rintro ⟨done, a, rest, -, hnil, -⟩
    simp at hnil
  | cons b l ih =>
    rw [List.foldlM_cons, Except.bind_eq_error_iff]
    simp only [ih]
    constructor
    · rintro (hb | ⟨next, hb, done, a, rest, state, rfl, hdone, ha⟩)
      · exact ⟨[], b, l, init, rfl, rfl, hb⟩
      · refine ⟨b :: done, a, rest, state, rfl, ?_, ha⟩
        exact Except.bind_eq_ok_iff.mpr ⟨next, hb, hdone⟩
    · rintro ⟨done, a, rest, state, hl, hdone, ha⟩
      cases done with
      | nil =>
        obtain ⟨rfl, rfl⟩ := List.cons.inj hl
        obtain rfl := Except.ok.inj hdone
        exact Or.inl ha
      | cons c done =>
        obtain ⟨rfl, rfl⟩ := List.cons.inj hl
        obtain ⟨next, hb, hdone⟩ := Except.bind_eq_ok_iff.mp hdone
        exact Or.inr ⟨next, hb, done, a, rest, state, rfl, hdone, ha⟩

/-- A list of checks is a sequence of actions without a result. -/
theorem forM_eq_foldlM {ε α : Type} {check : α → Except ε Unit} {l : List α} :
    l.forM check = l.foldlM (fun _ a => check a) () := by
  induction l with
  | nil => rfl
  | cons b l ih =>
    have hcons : (b :: l).forM check = check b >>= fun _ => l.forM check := rfl
    rw [hcons, ih, List.foldlM_cons]

/-- A list of checks fails at the first that does. -/
theorem forM_eq_error_iff {ε α : Type} {check : α → Except ε Unit} {l : List α} {v : ε} :
    l.forM check = .error v ↔ ∃ done a rest, l = done ++ a :: rest
      ∧ (∀ b ∈ done, check b = .ok ()) ∧ check a = .error v := by
  rw [forM_eq_foldlM, foldlM_eq_error_iff]
  simp only [← forM_eq_foldlM, ← forM_eq_ok_iff]
  exact ⟨fun ⟨done, a, rest, _, h⟩ => ⟨done, a, rest, h⟩,
    fun ⟨done, a, rest, h⟩ => ⟨done, a, rest, (), h⟩⟩

/-- A check fails with a builder's name added to what it finds. -/
theorem Violation.blame_eq_error_iff {α : Type} {builder : String} {check : Except Violation α}
    {v : Violation} :
    Violation.blame builder check = .error v
      ↔ ∃ w, check = .error w ∧ w.rejectedBy builder = v := by
  cases check with
  | error w =>
    have herror : Violation.blame builder (.error w : Except Violation α)
        = .error (w.rejectedBy builder) := rfl
    simp [herror]
  | ok a =>
    have hok : Violation.blame builder (.ok a : Except Violation α) = .ok a := rfl
    simp [hok]

/-- The elements of a tree. -/
inductive Element.Contains : Element → Element → Prop
  | self (e : Element) : Contains e e
  | child {e c d : Element} : c ∈ e.children → Contains c d → Contains e d

namespace Form

variable {f g : Form} {e c : Element} {name s : String} {before : List NodeKind} {slot : Slot}
variable {piece : Content Element} {done rest : List (Content Element)} {defect : Defect}
variable {v : Violation}

/-! ### Stops within a content -/

/-- The kinds of children met in a content, last one first, after those met before. -/
def kindsMet (before : List NodeKind) (done : List (Content Element)) : List NodeKind :=
  ((Content.children done).map (kindOf ·.name)).reverse ++ before

/-- The kinds met in a content are those met after its first piece. -/
theorem kindsMet_cons (before : List NodeKind) (piece : Content Element)
    (done : List (Content Element)) :
    kindsMet before (piece :: done) = kindsMet (kindsMet before [piece]) done := by
  cases piece <;> simp [kindsMet]

/-- What a form finds wrong with a piece of content itself, after children of the kinds `before`. -/
inductive RefusesPiece (f : Form) (before : List NodeKind) : Content Element → Defect → Prop
  /-- Character data that may not stand here. -/
  | text {s : String} {defect : Defect} : f.model.keeps s = .error defect →
    RefusesPiece f before (.text s) defect
  /-- A child that has no place here, whatever is in it. -/
  | misplaced {c : Element} {defect : Defect} : f.place before c.name = .error defect →
    RefusesPiece f before (.child c) defect
  /-- A child that is in order, but comes again. -/
  | again {c : Element} {slot : Slot} {n : Node} : f.place before c.name = .ok slot →
    slot.form.build c = .ok n → slot.once = true → kindOf c.name ∈ before →
    RefusesPiece f before (.child c) (.duplicateElement c.name)

/-- How building stops at a piece of content: the form refuses it, or a child is refused below. -/
inductive StopsAt (f : Form) (name : String) (before : List NodeKind) :
    Content Element → Violation → Prop
  | refused {piece : Content Element} {defect : Defect} : f.RefusesPiece before piece defect →
    StopsAt f name before piece (f.violation name defect)
  | below {c : Element} {slot : Slot} {v : Violation} : f.place before c.name = .ok slot →
    slot.form.build c = .error v → StopsAt f name before (.child c) v

/-- Building passes a piece of content: character data is kept or left out, and a child becomes a
node that does not come again where it may not. -/
def Passes (f : Form) (before : List NodeKind) : Content Element → Prop
  | .text s => ∃ kept, f.model.keeps s = .ok kept
  | .child c => ∃ slot n, f.place before c.name = .ok slot ∧ slot.form.build c = .ok n
    ∧ (slot.once = true → kindOf c.name ∉ before)

/-- Building stops at character data if it may not stand here. -/
theorem stopsAt_text_iff :
    f.StopsAt name before (.text s) v
      ↔ ∃ defect, f.model.keeps s = .error defect ∧ f.violation name defect = v := by
  constructor
  · rintro (⟨⟨hdefect⟩⟩ | -)
    exact ⟨_, hdefect, rfl⟩
  · rintro ⟨defect, hdefect, rfl⟩
    exact .refused (.text hdefect)

/-- Building stops at a child that has no place here, is refused itself, or comes again. -/
theorem stopsAt_child_iff :
    f.StopsAt name before (.child c) v
      ↔ (∃ defect, f.place before c.name = .error defect ∧ f.violation name defect = v)
        ∨ ∃ slot, f.place before c.name = .ok slot ∧ (slot.form.build c = .error v
          ∨ ∃ n, slot.form.build c = .ok n ∧ slot.once = true ∧ kindOf c.name ∈ before
            ∧ f.violation name (.duplicateElement c.name) = v) := by
  constructor
  · rintro (hpiece | ⟨hplace, hbelow⟩)
    · cases hpiece with
      | misplaced hplace => exact Or.inl ⟨_, hplace, rfl⟩
      | again hplace hn honce hmet => exact Or.inr ⟨_, hplace, .inr ⟨_, hn, honce, hmet, rfl⟩⟩
    · exact Or.inr ⟨_, hplace, .inl hbelow⟩
  · rintro (⟨defect, hplace, rfl⟩ | ⟨slot, hplace, hbelow | ⟨n, hn, honce, hmet, rfl⟩⟩)
    · exact .refused (.misplaced hplace)
    · exact .below hplace hbelow
    · exact .refused (.again hplace hn honce hmet)

/-- Where a child has become a node, it may still come again. -/
theorem buildContent_child_of_ok {n : Node} (hplace : f.place before c.name = .ok slot)
    (hn : slot.form.build c = .ok n) :
    f.buildContent name before (.child c :: rest)
      = if slot.once = true ∧ kindOf c.name ∈ before then
          .error (f.violation name (.duplicateElement c.name))
        else (f.buildContent name (kindOf c.name :: before) rest).map (.child n :: ·) := by
  have hagain : (slot.once && before.contains (kindOf c.name)) = true
      ↔ slot.once = true ∧ kindOf c.name ∈ before := by simp
  rw [buildContent, hplace]
  dsimp only
  rw [hn, Except.ok_bind, kind_of_build hn]
  simp only [hagain]
  split
  · rfl
  · cases f.buildContent name (kindOf c.name :: before) rest <;> rfl

/-- **A piece stops building**, or what comes after it does. -/
theorem buildContent_cons_eq_error_iff :
    f.buildContent name before (piece :: rest) = .error v
      ↔ f.StopsAt name before piece v
        ∨ f.Passes before piece
          ∧ f.buildContent name (kindsMet before [piece]) rest = .error v := by
  cases piece with
  | text s =>
    rw [stopsAt_text_iff, Passes, buildContent]
    cases f.model.keeps s with
    | error defect => simp
    | ok kept =>
      rw [Except.bind_eq_error_iff]
      simp [pure, Except.pure, kindsMet]
  | child c =>
    have hmet : kindsMet before [.child c] = kindOf c.name :: before := rfl
    rw [stopsAt_child_iff, Passes, hmet]
    cases hplace : f.place before c.name with
    | error defect => simp [buildContent, hplace]
    | ok slot =>
      cases hn : slot.form.build c with
      | error w => simp [buildContent, hplace, hn, bind, Except.bind]
      | ok n =>
        -- placed and built: only a second one in a slot for one still stops here
        rw [buildContent_child_of_ok hplace hn]
        by_cases hagain : slot.once = true ∧ kindOf c.name ∈ before
        · simp [hn, hagain]
        · have hfree : slot.once = true → kindOf c.name ∉ before := not_and.mp hagain
          rw [if_neg hagain, Except.map_eq_error_iff]
          simp +contextual [hn, hfree]

/-- A piece is passed where building succeeds with it, and with what comes after it. -/
theorem exists_buildContent_cons_iff :
    (∃ nodes, f.buildContent name before (piece :: done) = .ok nodes)
      ↔ f.Passes before piece
        ∧ ∃ nodes, f.buildContent name (kindsMet before [piece]) done = .ok nodes := by
  cases piece with
  | text s =>
    rw [Passes]
    simp only [buildContent_text_eq_ok_iff]
    constructor
    · rintro ⟨-, kept, others, hkept, hothers, -⟩
      exact ⟨⟨kept, hkept⟩, others, hothers⟩
    · rintro ⟨⟨kept, hkept⟩, others, hothers⟩
      exact ⟨_, kept, others, hkept, hothers, rfl⟩
  | child c =>
    rw [Passes]
    simp only [buildContent_child_eq_ok_iff]
    constructor
    · rintro ⟨-, slot, n, others, hplace, hn, honce, hothers, -⟩
      -- the kind met is that of the node, which its name tells
      rw [kind_of_build hn] at honce hothers
      exact ⟨⟨slot, n, hplace, hn, honce⟩, others, hothers⟩
    · rintro ⟨⟨slot, n, hplace, hn, honce⟩, others, hothers⟩
      refine ⟨_, slot, n, others, hplace, hn, ?_, ?_, rfl⟩
      · rwa [kind_of_build hn]
      · rwa [kind_of_build hn]

/-- **A content stops** at one of its pieces, and what comes before that is built. -/
theorem buildContent_eq_error_iff {pieces : List (Content Element)} :
    f.buildContent name before pieces = .error v
      ↔ ∃ done piece rest nodes, pieces = done ++ piece :: rest
        ∧ f.buildContent name before done = .ok nodes
        ∧ f.StopsAt name (kindsMet before done) piece v := by
  -- what came before matters to every later piece, so the kinds met are not fixed
  induction pieces generalizing before with
  | nil =>
    rw [buildContent_nil]
    refine iff_of_false nofun ?_
    rintro ⟨done, piece, rest, -, hnil, -⟩
    simp at hnil
  | cons first pieces ih =>
    rw [buildContent_cons_eq_error_iff, ih]
    constructor
    · rintro (hstops | ⟨hpasses, done, piece, rest, nodes, rfl, hdone, hstops⟩)
      · exact ⟨[], first, pieces, [], rfl, buildContent_nil, hstops⟩
      · obtain ⟨nodes, hdone⟩ := exists_buildContent_cons_iff.mpr ⟨hpasses, nodes, hdone⟩
        exact ⟨first :: done, piece, rest, nodes, rfl, hdone,
          kindsMet_cons before first done ▸ hstops⟩
    · rintro ⟨done, piece, rest, nodes, hpieces, hdone, hstops⟩
      cases done with
      | nil =>
        obtain ⟨rfl, rfl⟩ := List.cons.inj hpieces
        exact Or.inl hstops
      | cons passed done =>
        obtain ⟨rfl, rfl⟩ := List.cons.inj hpieces
        obtain ⟨hpasses, nodes, hdone⟩ := exists_buildContent_cons_iff.mp ⟨nodes, hdone⟩
        exact Or.inr ⟨hpasses, done, piece, rest, nodes, rfl, hdone,
          kindsMet_cons before first done ▸ hstops⟩

/-! ### Elements -/

/-- **What a form finds wrong with an element itself**, when all that it looks at before is in
order. -/
inductive Refuses (f : Form) (e : Element) : Violation → Prop
  /-- Its name. -/
  | name {defect : Defect} : f.refuses? e.name = some defect →
    Refuses f e { element := e.name, builder := f.refuser?, defect }
  /-- Its attributes. -/
  | attributes {v : Violation} : f.refuses? e.name = none → f.checkAttributes e = .error v →
    Refuses f e v
  /-- A piece of its content. -/
  | piece {done rest : List (Content Element)} {nodes : List (Content Node)}
    {piece : Content Element} {defect : Defect} : f.refuses? e.name = none →
    f.checkAttributes e = .ok () → e.content = done ++ piece :: rest →
    f.buildContent e.name [] done = .ok nodes → f.RefusesPiece (kindsMet [] done) piece defect →
    Refuses f e (f.violation e.name defect)
  /-- What its content comes to. -/
  | closing {nodes : List (Content Node)} {v : Violation} : f.refuses? e.name = none →
    f.checkAttributes e = .ok () → f.buildContent e.name [] e.content = .ok nodes →
    f.checkClosing e nodes = .error v → Refuses f e v

/-- Building an element with a form comes to building one of its children, with the child's form. -/
def Enters (f : Form) (e : Element) (g : Form) (c : Element) : Prop :=
  f.refuses? e.name = none ∧ f.checkAttributes e = .ok ()
    ∧ ∃ done rest nodes slot, e.content = done ++ .child c :: rest
      ∧ f.buildContent e.name [] done = .ok nodes
      ∧ f.place (kindsMet [] done) c.name = .ok slot ∧ slot.form = g

/-- What a form finds wrong is what building comes to. -/
theorem Refuses.build_eq (h : f.Refuses e v) : f.build e = .error v := by
  rw [Form.build_eq]
  cases h with
  | name hname => rw [hname]
  | attributes hname hattributes =>
    rw [hname]
    exact Except.bind_eq_error_iff.mpr (.inl hattributes)
  | piece hname hattributes hpieces hdone hpiece =>
    rw [hname]
    refine Except.bind_eq_error_iff.mpr (.inr ⟨(), hattributes, ?_⟩)
    refine Except.bind_eq_error_iff.mpr (.inl ?_)
    exact buildContent_eq_error_iff.mpr ⟨_, _, _, _, hpieces, hdone, .refused hpiece⟩
  | closing hname hattributes hnodes hclosing =>
    rw [hname]
    refine Except.bind_eq_error_iff.mpr (.inr ⟨(), hattributes, ?_⟩)
    refine Except.bind_eq_error_iff.mpr (.inr ⟨_, hnodes, ?_⟩)
    exact Except.bind_eq_error_iff.mpr (.inl hclosing)

/-- The violation of a child that building comes to goes up. -/
theorem Enters.build_eq {g : Form} {c : Element} (h : f.Enters e g c) (hc : g.build c = .error v) :
    f.build e = .error v := by
  obtain ⟨hname, hattributes, done, rest, nodes, slot, hpieces, hdone, hplace, rfl⟩ := h
  rw [Form.build_eq, hname]
  refine Except.bind_eq_error_iff.mpr (.inr ⟨(), hattributes, ?_⟩)
  refine Except.bind_eq_error_iff.mpr (.inl ?_)
  exact buildContent_eq_error_iff.mpr ⟨_, _, _, _, hpieces, hdone, .below hplace hc⟩

/-- **An element is refused** by its own form, or because a child is that building comes to.  Either
way it is the same violation that goes up. -/
theorem build_eq_error_iff :
    f.build e = .error v ↔ f.Refuses e v ∨ ∃ g c, f.Enters e g c ∧ g.build c = .error v := by
  constructor
  · intro h
    rw [build_eq] at h
    cases hname : f.refuses? e.name with
    | some defect =>
      rw [hname] at h
      obtain rfl := Except.error.inj h
      exact Or.inl (.name hname)
    | none =>
      rw [hname] at h
      -- attributes, content and closing conditions, in the order in which they are looked at
      rcases Except.bind_eq_error_iff.mp h with h | ⟨⟨⟩, hattributes, h⟩
      · exact Or.inl (.attributes hname h)
      rcases Except.bind_eq_error_iff.mp h with h | ⟨nodes, hnodes, h⟩
      · obtain ⟨done, piece, rest, nodes, hpieces, hdone, hstops⟩ :=
          buildContent_eq_error_iff.mp h
        cases hstops with
        | refused hpiece => exact Or.inl (.piece hname hattributes hpieces hdone hpiece)
        | @below c slot _ hplace hbelow =>
          exact Or.inr ⟨slot.form, c,
            ⟨hname, hattributes, done, rest, nodes, slot, hpieces, hdone, hplace, rfl⟩, hbelow⟩
      rcases Except.bind_eq_error_iff.mp h with h | ⟨⟨⟩, -, h⟩
      · exact Or.inl (.closing hname hattributes hnodes h)
      · cases h
  · rintro (hrefuses | ⟨g, c, henters, hc⟩)
    · exact hrefuses.build_eq
    · exact henters.build_eq hc

/-! ### Elements below -/

/-- Building an element with a form comes to building another with a form of its own, by way of
those between. -/
def Reaches (f : Form) (e : Element) (g : Form) (d : Element) : Prop :=
  Relation.ReflTransGen (fun a b : Form × Element => a.1.Enters a.2 b.1 b.2) (f, e) (g, d)

/-- Building comes to children alone. -/
theorem Enters.mem_children (h : f.Enters e g c) : c ∈ e.children := by
  obtain ⟨-, -, done, rest, -, -, hcontent, -⟩ := h
  rw [Element.children, hcontent, Content.children_append, Content.children_cons_child]
  exact List.mem_append_right _ List.mem_cons_self

/-- The form of a child is that of its place. -/
theorem Enters.exists_slot (h : f.Enters e g c) :
    ∃ slot, f.slot? c.name = some slot ∧ slot.form = g := by
  obtain ⟨-, -, done, -, -, slot, -, -, hplace, hform⟩ := h
  exact ⟨slot, (place_eq_ok_iff.mp hplace).1, hform⟩

/-- The form that it comes with suits the child. -/
theorem Enters.suits (h : f.Enters e g c) : g.Suits c.name := by
  obtain ⟨slot, hslot, rfl⟩ := h.exists_slot
  exact suits_of_slot? hslot

/-- Whatever building comes to is an element of the tree. -/
theorem Reaches.contains (h : f.Reaches e g c) : e.Contains c := by
  refine h.head_induction_on (motive := fun a _ => a.2.Contains c) (.self c) ?_
  intro a b hab _ hb
  exact .child hab.mem_children hb

/-- What building comes to is where it began, or has the form of its place. -/
theorem Reaches.eq_or_suits (h : f.Reaches e g c) : (g = f ∧ c = e) ∨ g.Suits c.name := by
  rcases Relation.ReflTransGen.cases_tail h with heq | ⟨a, -, hac⟩
  · obtain ⟨rfl, rfl⟩ := Prod.mk.inj heq
    exact Or.inl ⟨rfl, rfl⟩
  · exact Or.inr hac.suits

/-- **Every violation is found by one form in one element.** -/
theorem exists_refuses {f : Form} {e : Element} (h : f.build e = .error v) :
    ∃ g d, f.Reaches e g d ∧ g.Refuses d v := by
  rcases build_eq_error_iff.mp h with hself | ⟨g, c, henters, hc⟩
  · exact ⟨f, e, .refl, hself⟩
  · have hsmaller := Element.sizeOf_lt_of_mem_children henters.mem_children
    obtain ⟨k, d, hreaches, hrefuses⟩ := exists_refuses hc
    exact ⟨k, d, .head henters hreaches, hrefuses⟩
termination_by sizeOf e

end Form

end DocGraph
