import DocGraph.Proofs.Drafts

namespace DocGraph

/-!
# What building does

* `Form.build_eq_ok_iff` — when an element becomes a node, and which;
* `Form.buildContent_text_eq_ok_iff`, `Form.buildContent_child_eq_ok_iff` — the same for each piece
  of its content;
* `Form.Preserved`, `Form.build_induction` — what each step of building preserves holds of all that
  is built, by induction over the element;
* `buildCompound_induction` — the same for compounds.
-/

namespace Form

variable {f : Form} {e : Element} {name s : String} {before : List NodeKind}
variable {rest : List (Content Element)} {content : List (Content Node)} {n : Node}

/-- The data of an entity, of a reference to a nested compound, or of a section of a level is that
of one form only. -/
theorem form_of_dataOf (f : Form) (e : Element) (content : List (Content Node)) :
    match f.dataOf e content with
    | .entity _ _ => f = .entity
    | .inner _ => f = .innerRef
    | .sect level _ _ => f = .sect level
    | _ => True := by
  -- Most forms start from data of one constructor; three of them look at a name or an attribute.
  cases f with
  | innerRef =>
    rw [dataOf_innerRef, start]
    cases InnerKind.ofTag? e.name with
    | none => trivial
    | some kind => rfl
  | ref =>
    rw [dataOf_ref, start]
    cases RefKind.ofName? (e.value "kindref") <;> trivial
  | htmlLiteral =>
    rw [dataOf_htmlLiteral, start]
    cases e.flag? "block" <;> trivial
  | entity | sect => rfl
  | _ => trivial

/-- The closing conditions hold if each of them does. -/
theorem checkClosing_eq_ok_iff :
    f.checkClosing e content = .ok () ↔ ∀ c ∈ f.closings, c.check e content = .ok () := by
  rw [checkClosing, Violation.blame_eq_ok_iff, forM_eq_ok_iff]

/-- **An element becomes a node** if everything that is checked holds of it. -/
theorem build_eq_ok_iff :
    f.build e = .ok n ↔ f.refuses? e.name = none ∧ f.checkAttributes e = .ok ()
      ∧ ∃ content, f.buildContent e.name [] e.content = .ok content
        ∧ f.checkClosing e content = .ok () ∧ f.node e content = n := by
  rw [build_eq]
  cases hrefuses : f.refuses? e.name with
  | some defect => simp
  | none =>
    simp only [Except.bind_eq_ok_iff, true_and]
    constructor
    · rintro ⟨⟨⟩, hattributes, content, hcontent, ⟨⟩, hclosing, hn⟩
      exact ⟨hattributes, content, hcontent, hclosing, Except.ok.inj hn⟩
    · rintro ⟨hattributes, content, hcontent, hclosing, rfl⟩
      exact ⟨(), hattributes, content, hcontent, (), hclosing, rfl⟩

@[simp] theorem buildContent_nil : f.buildContent name before [] = .ok [] := by rw [buildContent]

/-- **Character data** that may stand in an element is kept, or left out. -/
theorem buildContent_text_eq_ok_iff :
    f.buildContent name before (.text s :: rest) = .ok content
      ↔ ∃ kept others, f.model.keeps s = .ok kept ∧ f.buildContent name before rest = .ok others
        ∧ (if kept then Content.consText s others else others) = content := by
  rw [buildContent]
  cases hkept : f.model.keeps s with
  | error defect => simp
  | ok kept =>
    simp only [Except.bind_eq_ok_iff]
    constructor
    · rintro ⟨others, hothers, hcontent⟩
      exact ⟨kept, others, rfl, hothers, Except.ok.inj hcontent⟩
    · rintro ⟨kept, others, ⟨⟩, hothers, rfl⟩
      exact ⟨others, hothers, rfl⟩

/-- **A child** needs a place and a node, and may not come again where it may not. -/
theorem buildContent_child_eq_ok_iff :
    f.buildContent name before (.child e :: rest) = .ok content
      ↔ ∃ slot node others, f.place before e.name = .ok slot ∧ slot.form.build e = .ok node
        ∧ (slot.once → node.kind ∉ before)
        ∧ f.buildContent name (node.kind :: before) rest = .ok others
        ∧ .child node :: others = content := by
  rw [buildContent]
  cases hplace : f.place before e.name with
  | error defect => simp
  | ok slot =>
    simp only [Except.bind_eq_ok_iff]
    constructor
    · rintro ⟨node, hnode, hcontent⟩
      -- the only test between the child and the rest: a second one in a slot for one
      by_cases hfresh : slot.once && before.contains node.kind
      · rw [if_pos hfresh] at hcontent
        cases hcontent
      · rw [if_neg hfresh] at hcontent
        obtain ⟨others, hothers, hcontent⟩ := Except.bind_eq_ok_iff.mp hcontent
        refine ⟨slot, node, others, rfl, hnode, ?_, hothers, Except.ok.inj hcontent⟩
        simpa using hfresh
    · rintro ⟨slot, node, others, ⟨⟩, hnode, honce, hothers, rfl⟩
      have hfresh : ¬ (slot.once && before.contains node.kind) = true := by simpa using honce
      refine ⟨node, hnode, ?_⟩
      rw [if_neg hfresh]
      exact Except.bind_eq_ok_iff.mpr ⟨others, hothers, rfl⟩

/-! ### Induction -/

/-- A property `P` of nodes and the elements that they are built of, and a property `Q` of contents
after children of some kinds, such that each step of building preserves them. -/
structure Preserved (P : Form → Element → Node → Prop)
    (Q : Form → List NodeKind → List (Content Element) → List (Content Node) → Prop) : Prop where
  node : ∀ f e content, kindOf e.name ∈ f.kinds → f.refuses? e.name = none →
    f.checkAttributes e = .ok () → f.checkClosing e content = .ok () → Q f [] e.content content →
    P f e (f.node e content)
  nil : ∀ f before, Q f before [] []
  text : ∀ f before s kept rest others, f.model.keeps s = .ok kept → Q f before rest others →
    Q f before (.text s :: rest) (if kept then Content.consText s others else others)
  child : ∀ f before e rest slot n others, f.place before e.name = .ok slot → P slot.form e n →
    (slot.once → n.kind ∉ before) → Q f (n.kind :: before) rest others →
    Q f before (.child e :: rest) (.child n :: others)

section

variable {P : Form → Element → Node → Prop}
variable {Q : Form → List NodeKind → List (Content Element) → List (Content Node) → Prop}

mutual

/-- **Building, by induction.** What is preserved holds of the node of every element. -/
theorem build_induction (h : Preserved P Q) (f : Form) (e : Element) (n : Node)
    (hf : f.Suits e.name) (hn : f.build e = .ok n) : P f e n := by
  obtain ⟨name, attributes, pieces⟩ := e
  obtain ⟨hrefuses, hattributes, content, hcontent, hclosing, rfl⟩ := build_eq_ok_iff.mp hn
  have hkind : kindOf name ∈ f.kinds := by
    refine hf.resolve_left ?_
    rintro rfl
    simp [refuses?] at hrefuses
  exact h.node f ⟨name, attributes, pieces⟩ content hkind hrefuses hattributes hclosing
    (buildContent_induction h f name [] pieces content hcontent)

theorem buildContent_induction (h : Preserved P Q) (f : Form) (name : String)
    (before : List NodeKind) (pieces : List (Content Element)) (content : List (Content Node))
    (hcontent : f.buildContent name before pieces = .ok content) :
    Q f before pieces content := by
  -- Mutual with `build_induction`: an element's content is one size smaller, and so is each rest.
  match pieces with
  | [] =>
    rw [buildContent_nil] at hcontent
    obtain rfl := Except.ok.inj hcontent
    exact h.nil f before
  | .text s :: rest =>
    obtain ⟨kept, others, hkept, hothers, rfl⟩ := buildContent_text_eq_ok_iff.mp hcontent
    exact h.text f before s kept rest others hkept
      (buildContent_induction h f name before rest others hothers)
  | .child e :: rest =>
    obtain ⟨slot, n, others, hplace, hn, honce, hothers, rfl⟩ :=
      buildContent_child_eq_ok_iff.mp hcontent
    have hsuits : slot.form.Suits e.name := suits_of_slot? (place_eq_ok_iff.mp hplace).1
    exact h.child f before e rest slot n others hplace
      (build_induction h slot.form e n hsuits hn) honce
      (buildContent_induction h f name (n.kind :: before) rest others hothers)

end

end

end Form

/-- Only elements of compounds are built as such. -/
theorem suits_of_buildCompound {e : Element} {n : Node} (hn : buildCompound e = .ok n) :
    Form.compound.Suits e.name := by
  have hrefuses := (Form.build_eq_ok_iff.mp hn).1
  by_cases hname : e.name = NodeKind.compoundDef.tag
  · refine Or.inr ?_
    rw [hname, Form.kindOf_tag (by decide)]
    exact List.mem_singleton_self _
  · simp [Form.refuses?, hname] at hrefuses

/-- What is preserved holds of every compound. -/
theorem buildCompound_induction {P : Form → Element → Node → Prop}
    {Q : Form → List NodeKind → List (Content Element) → List (Content Node) → Prop}
    (h : Form.Preserved P Q) {e : Element} {n : Node} (hn : buildCompound e = .ok n) :
    P .compound e n :=
  Form.build_induction h .compound e n (suits_of_buildCompound hn) hn

end DocGraph
