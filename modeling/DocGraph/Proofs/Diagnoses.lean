import DocGraph.Proofs.Refusals

namespace DocGraph

/-!
# What violations say

A violation names an element and a defect.  The defect can be read as a statement about the element,
which does not depend on how it was found:

* `Defect.IsTrueOf` — what each defect says of an element of a tree;
* `AttributeRule.confirms_of_checkAll`, `Form.RefusesPiece.isTrueOf`, `Form.Closing.diagnosis` —
  what is found wrong with attributes, content and closing conditions;
* `Form.Misstates` — the two diagnoses that are not what is wrong: an element that may not stand
  where it does is said to have itself as a child, and a name that is blank to be absent;
* `exists_diagnosed` — all others are true of the element that they name.
-/

/-! ### What defects say -/

/-- A value that denotes nothing of what is expected, in the words for it. -/
inductive IsMeaningless (value : String) : String → Prop
  | number {type : Numeral.WordType} : parseNumber type value = none →
    IsMeaningless value "a number"
  | flag : parseBool value = none → IsMeaningless value "`yes` or `no`"
  | refKind : RefKind.ofName? value = none → IsMeaningless value "`compound` or `member`"

/-- What a defect says of an element of the tree below a root. -/
def Defect.IsTrueOf (root d : Element) : Defect → Prop
  | .unexpectedElement name => ∃ c ∈ d.children, c.name = name
  | .unexpectedAttribute name => name ∈ d.attributeNames
  | .unexpectedText text => ∃ s, .text s ∈ d.content ∧ isBlankText s = false ∧ trimmed s = text
  | .missingAttribute name => name ∉ d.attributeNames
  | .missingElement name => ∀ c ∈ d.children, c.name ≠ name
  | .emptyValue key =>
    (∃ name, key = "@" ++ name ∧ d.attribute? name = some "")
      ∨ (∃ c ∈ d.children, c.name = key ∧ isBlankText c.text = true)
      ∨ (key = d.name ∧ isBlankText d.text = true)
  | .invalidAttribute name value expected =>
    d.attribute? name = some value ∧ IsMeaningless value expected
  | .duplicateElement name => 2 ≤ d.children.countP (·.name == name)
  | .definitionWithoutTerm =>
    ∃ done c rest, d.children = done ++ c :: rest ∧ c.name = NodeKind.listItem.tag
      ∧ done.getLast?.map (·.name) ≠ some NodeKind.varListEntry.tag
  | .consecutiveTerms =>
    ∃ done c c' rest, d.children = done ++ c :: c' :: rest
      ∧ c.name = NodeKind.varListEntry.tag ∧ c'.name = NodeKind.varListEntry.tag
  | .unpairedTerm => d.children.getLast?.map (·.name) = some NodeKind.varListEntry.tag
  | .unexpectedRoot expected => d = root ∧ d.name ≠ expected

/-- A violation of an element that says something true of it, and names no builder. -/
def Element.Confirms (root d : Element) (v : Violation) : Prop :=
  ∃ defect : Defect, v = d.violation defect ∧ defect.IsTrueOf root d

/-! ### Attributes -/

namespace AttributeRule

variable {root e : Element} {r : AttributeRule} {rules : List AttributeRule} {name : String}
variable {v : Violation}

/-- An attribute without a value is not there. -/
theorem attribute?_eq_none_iff : e.attribute? name = none ↔ name ∉ e.attributeNames := by
  simp [Element.attribute?, Element.attributeNames, List.find?_eq_none]

/-- Reading an attribute fails if it is not there. -/
theorem string_eq_error_iff :
    e.string name = .error v
      ↔ e.attribute? name = none ∧ e.violation (.missingAttribute name) = v := by
  unfold Element.string
  cases e.attribute? name <;> simp

theorem confirms_of_string (h : e.string name = .error v) : root.Confirms e v := by
  obtain ⟨hnone, rfl⟩ := string_eq_error_iff.mp h
  exact ⟨_, rfl, attribute?_eq_none_iff.mp hnone⟩

/-- A number that cannot be read is missing, or no number. -/
theorem confirms_of_number {type : Numeral.WordType} (h : e.number type name = .error v) :
    root.Confirms e v := by
  rcases Except.bind_eq_error_iff.mp h with h | ⟨value, hvalue, h⟩
  · exact confirms_of_string h
  · split at h
    case h_1 => cases h
    case h_2 hnone =>
      obtain rfl := Except.error.inj h
      exact ⟨_, rfl, string_eq_ok_iff.mp hvalue, .number hnone⟩

/-- A flag that cannot be read is missing, or none of the words. -/
theorem confirms_of_boolean (h : e.boolean name = .error v) : root.Confirms e v := by
  rcases Except.bind_eq_error_iff.mp h with h | ⟨value, hvalue, h⟩
  · exact confirms_of_string h
  · split at h
    case h_1 => cases h
    case h_2 hnone =>
      obtain rfl := Except.error.inj h
      exact ⟨_, rfl, string_eq_ok_iff.mp hvalue, .flag hnone⟩

/-- A value that is not filled is missing, or empty. -/
theorem confirms_of_checkFilled (h : checkFilled name e = .error v) : root.Confirms e v := by
  rcases Except.bind_eq_error_iff.mp h with h | ⟨value, hvalue, h⟩
  · exact confirms_of_string h
  · split at h
    case isTrue hempty =>
      obtain rfl := Except.error.inj h
      obtain rfl := String.isEmpty_iff.mp hempty
      exact ⟨_, rfl, .inl ⟨name, rfl, string_eq_ok_iff.mp hvalue⟩⟩
    case isFalse => cases h

/-- A check that reads a value and leaves it fails where reading fails. -/
theorem discard_eq_error_iff {α : Type} {x : Except Violation α} :
    (do let _ ← x) = .error v ↔ x = .error v := by
  rw [Except.bind_eq_error_iff]
  refine or_iff_left ?_
  rintro ⟨a, -, h⟩
  cases h

/-- **What a rule finds wrong** with its attribute is true. -/
theorem confirms_of_check (h : r.check e = .error v) : root.Confirms e v := by
  obtain ⟨name, demand⟩ := r
  unfold check at h
  -- A demand fails by one of its steps, and each step has the lemma for its defect.
  cases demand with
  | any => cases h
  | filled => exact confirms_of_checkFilled (discard_eq_error_iff.mp h)
  | number type required =>
    dsimp only at h
    split at h
    · exact confirms_of_number (discard_eq_error_iff.mp h)
    · cases h
  | flag =>
    dsimp only at h
    split at h
    · exact confirms_of_boolean (discard_eq_error_iff.mp h)
    · cases h
  | refKind =>
    rcases Except.bind_eq_error_iff.mp h with h | ⟨value, hvalue, h⟩
    · exact confirms_of_checkFilled h
    · split at h
      case isTrue hnone =>
        obtain rfl := Except.error.inj h
        have hvalue := (checkFilled_eq_ok_iff.mp hvalue).1
        exact ⟨_, rfl, hvalue, .refKind (Option.isNone_iff_eq_none.mp hnone)⟩
      case isFalse => cases h

/-- **What is found wrong with attributes** is true. -/
theorem confirms_of_checkAll (h : checkAll rules e = .error v) : root.Confirms e v := by
  unfold checkAll at h
  split at h
  case h_1 unknown hunknown =>
    obtain rfl := Except.error.inj h
    exact ⟨_, rfl, List.mem_of_find?_eq_some hunknown⟩
  case h_2 =>
    obtain ⟨-, r, -, -, -, hr⟩ := forM_eq_error_iff.mp h
    exact confirms_of_check hr

end AttributeRule

namespace Form

variable {f : Form} {root e : Element} {before : List NodeKind} {defect : Defect} {v : Violation}
variable {done rest : List (Content Element)} {piece : Content Element} {name tag : String}
variable {content : List (Content Node)}

/-! ### Content -/

/-- The first kind after a content, where nothing was before, is that of its last child. -/
theorem head?_kindsMet :
    (kindsMet [] done).head? = (Content.children done).getLast?.map (kindOf ·.name) := by
  rw [kindsMet, List.append_nil, List.head?_reverse, List.getLast?_map]

/-- The last child is a term by its kind if it is one by its tag. -/
theorem getLast?_name_eq_term_iff {children : List Element} :
    children.getLast?.map (kindOf ·.name) = some .varListEntry
      ↔ children.getLast?.map (·.name) = some NodeKind.varListEntry.tag := by
  -- only the tag of terms is of their kind
  have hkind : ∀ {tag : String}, kindOf tag = .varListEntry ↔ tag = NodeKind.varListEntry.tag := by
    intro tag
    constructor
    · intro h
      rw [← kindOf_term] at h
      exact eq_of_kindOf_eq (by rw [kindOf_term]; decide) h
    · rintro rfl
      exact kindOf_term
  cases children.getLast? with
  | none => simp
  | some c => simp [hkind]

/-- A child has no place because it is not its turn, or because none may stand here. -/
theorem defect_of_place (h : f.place before tag = .error defect) :
    (tag = NodeKind.varListEntry.tag ∧ before.head? = some .varListEntry
        ∧ defect = .consecutiveTerms)
      ∨ (tag = NodeKind.listItem.tag ∧ before.head? ≠ some .varListEntry
        ∧ defect = .definitionWithoutTerm)
      ∨ defect = .unexpectedElement tag := by
  simp only [place] at h
  -- the two tests for variable lists come before the look-up of a slot
  split at h
  case isTrue hterm =>
    exact Or.inl ⟨hterm.2.1, hterm.2.2, (Except.error.inj h).symm⟩
  case isFalse =>
    split at h
    case isTrue hdefinition =>
      exact Or.inr (.inl ⟨hdefinition.2.1, hdefinition.2.2, (Except.error.inj h).symm⟩)
    case isFalse =>
      split at h
      · cases h
      · exact Or.inr (.inr (Except.error.inj h).symm)

/-- **What a form finds wrong with a piece of content** is true of the element. -/
theorem RefusesPiece.isTrueOf (hcontent : e.content = done ++ piece :: rest)
    (h : f.RefusesPiece (kindsMet [] done) piece defect) : defect.IsTrueOf root e := by
  have hchildren : ∀ c, piece = .child c →
      e.children = Content.children done ++ c :: Content.children rest := by
    rintro c rfl
    rw [Element.children, hcontent, Content.children_append, Content.children_cons_child]
  cases h with
  | @text s _ hkeeps =>
    unfold ContentModel.keeps at hkeeps
    split at hkeeps
    case h_4 =>
      split at hkeeps
      case isTrue => cases hkeeps
      case isFalse hs =>
        obtain rfl := Except.error.inj hkeeps
        exact ⟨s, hcontent ▸ List.mem_append_right _ List.mem_cons_self, by simpa using hs, rfl⟩
    all_goals cases hkeeps
  | @misplaced c _ hplace =>
    have hchildren := hchildren c rfl
    -- what the kinds met say of a pending term is said of the last child before this one
    rcases defect_of_place hplace with ⟨htag, hpending, rfl⟩ | ⟨htag, hfree, rfl⟩ | rfl
    · rw [head?_kindsMet, getLast?_name_eq_term_iff, Option.map_eq_some_iff] at hpending
      obtain ⟨t, ht, hterm⟩ := hpending
      obtain ⟨others, hothers⟩ := List.getLast?_eq_some_iff.mp ht
      rw [hothers, List.append_assoc] at hchildren
      exact ⟨others, t, c, _, hchildren, hterm, htag⟩
    · rw [head?_kindsMet, ne_eq, getLast?_name_eq_term_iff] at hfree
      exact ⟨_, c, _, hchildren, htag, hfree⟩
    · exact ⟨c, hchildren ▸ List.mem_append_right _ List.mem_cons_self, rfl⟩
  | @again c slot n hplace hn honce hmet =>
    have hslot := (place_eq_ok_iff.mp hplace).1
    rw [kindsMet, List.append_nil, List.mem_reverse, List.mem_map] at hmet
    obtain ⟨first, hfirst, hkind⟩ := hmet
    -- entities of all tags are of one kind, but no slot for one child takes them
    have hname : first.name = c.name := eq_of_kindOf_eq (kindOf_ne_entity_of_once hslot honce) hkind
    have hbefore : 0 < (Content.children done).countP (·.name == c.name) :=
      List.countP_pos_iff.mpr ⟨first, hfirst, beq_iff_eq.mpr hname⟩
    show 2 ≤ e.children.countP (·.name == c.name)
    rw [hchildren c rfl, List.countP_append, List.countP_cons, if_pos (beq_self_eq_true c.name)]
    omega

/-! ### Closing conditions -/

/-- The diagnoses that are not what is wrong. -/
inductive Misstates (f : Form) (d : Element) : Defect → Prop
  /-- An element that may not stand where it does is called a child of itself. -/
  | itself : f = .entity ∨ f = .misplaced → (∀ c ∈ d.children, c.name ≠ d.name) →
    Misstates f d (.unexpectedElement d.name)
  /-- A name that is given, but blank, is called absent. -/
  | blankName {c : Element} : .named ∈ f.closings →
    (d.children.filter (·.name == NodeKind.name.tag)).getLast? = some c →
    isBlankText c.text = true → Misstates f d (.missingElement NodeKind.name.tag)

/-- Such a diagnosis is false. -/
theorem Misstates.not_isTrueOf (h : f.Misstates e defect) : ¬ defect.IsTrueOf root e := by
  cases h with
  | itself _ hnone =>
    rintro ⟨c, hc, hname⟩
    exact hnone c hc hname
  | @blankName c _ hlast _ =>
    intro hnone
    obtain ⟨hc, hname⟩ := List.mem_filter.mp (List.mem_of_getLast? hlast)
    exact hnone c hc (beq_iff_eq.mp hname)

namespace Closing

/-- A child is said to be missing only where none has its tag. -/
theorem confirms_of_present (hfails : ¬ (present tag).Holds e)
    (h : (present tag).check e content = .error v) : root.Confirms e v := by
  rw [check] at h
  split at h
  · obtain rfl := Except.error.inj h
    exact ⟨_, rfl, fun c hc hname => hfails ⟨c, hc, hname⟩⟩
  · cases h

/-- A child that has to tell something is missing, or the first one with its tag is blank. -/
theorem confirms_of_told (htag : (told tag).isProvided f = true)
    (hchildren : List.Forall₂ f.Becomes e.children (Content.children content))
    (h : (told tag).check e content = .error v) : root.Confirms e v := by
  obtain ⟨hentity, hwords⟩ := Bool.and_eq_true_iff.mp htag
  rw [check] at h
  -- The text that was built is the text of the first child of this name in the element.
  rw [firstText?_eq (bne_iff_ne.mp hentity) hwords hchildren] at h
  cases hfirst : e.firstChild? tag with
  | none =>
    rw [hfirst] at h
    obtain rfl := Except.error.inj h
    refine ⟨_, rfl, fun c hc hname => ?_⟩
    simpa [hname] using List.find?_eq_none.mp hfirst c hc
  | some c =>
    rw [hfirst] at h
    have hc : c ∈ e.children := List.mem_of_find?_eq_some hfirst
    have hname : c.name = tag := by simpa using List.find?_some hfirst
    dsimp only [Option.map_some] at h
    split at h
    case isTrue hblank =>
      obtain rfl := Except.error.inj h
      exact ⟨_, rfl, .inr (.inl ⟨c, hc, hname, hblank⟩)⟩
    case isFalse => cases h

/-- A name is said to be missing where there is none, which is true, and where the last one is
blank, which is not. -/
theorem diagnosis_of_named (hclosing : .named ∈ f.closings) (hfails : ¬ named.Holds e)
    (h : named.check e content = .error v) :
    ∃ defect, v = e.violation defect ∧ (defect.IsTrueOf root e ∨ f.Misstates e defect) := by
  rw [check] at h
  split at h
  case isFalse => cases h
  case isTrue =>
    obtain rfl := Except.error.inj h
    refine ⟨_, rfl, ?_⟩
    -- the last name counts, and the check no longer knows whether there was one
    cases hlast : (e.children.filter (·.name == NodeKind.name.tag)).getLast? with
    | none =>
      left
      intro c hc hname
      have hnil := List.getLast?_eq_none_iff.mp hlast
      exact absurd (beq_iff_eq.mpr hname) (List.filter_eq_nil_iff.mp hnil c hc)
    | some c =>
      refine Or.inr (.blankName hclosing hlast ?_)
      by_contra hblank
      exact hfails ⟨c, hlast, by simpa using hblank⟩

/-- An element that has to say something is blank itself. -/
theorem confirms_of_worded (h : worded.check e content = .error v) : root.Confirms e v := by
  rw [check] at h
  split at h
  case isTrue hblank =>
    obtain rfl := Except.error.inj h
    exact ⟨_, rfl, .inr (.inr ⟨rfl, hblank⟩)⟩
  case isFalse => cases h

/-- A term is said to be without definition only where the last child is one. -/
theorem confirms_of_paired
    (hchildren : List.Forall₂ variableList.Becomes e.children (Content.children content))
    (h : paired.check e content = .error v) : root.Confirms e v := by
  rw [check] at h
  split at h
  case isTrue hterm =>
    obtain rfl := Except.error.inj h
    rw [← List.getLast?_map, kinds_of_becomes hchildren, List.getLast?_map] at hterm
    exact ⟨_, rfl, getLast?_name_eq_term_iff.mp hterm⟩
  case isFalse => cases h

/-- **What is found wrong at the end** is true of the element, or misstated. -/
theorem diagnosis (root : Element) {closing : Closing} (hclosing : closing ∈ f.closings)
    (hcontent : f.buildContent e.name [] e.content = .ok content)
    (h : closing.check e content = .error v) :
    ∃ defect, v = e.violation defect ∧ (defect.IsTrueOf root e ∨ f.Misstates e defect) := by
  have hprovided := isProvided_of_mem_closings closing hclosing
  have hchildren : List.Forall₂ f.Becomes e.children (Content.children content) :=
    becomes_of_buildContent hcontent
  have hfails : ¬ closing.Holds e := by
    intro hholds
    rw [(check_eq_ok_iff hprovided hcontent).mpr hholds] at h
    cases h
  -- only a name may be misstated
  have hconfirmed : root.Confirms e v →
      ∃ defect, v = e.violation defect ∧ (defect.IsTrueOf root e ∨ f.Misstates e defect) :=
    fun ⟨defect, hv, htrue⟩ => ⟨defect, hv, .inl htrue⟩
  cases closing with
  | present tag => exact hconfirmed (confirms_of_present hfails h)
  | told tag => exact hconfirmed (confirms_of_told hprovided hchildren h)
  | named => exact diagnosis_of_named hclosing hfails h
  | worded => exact hconfirmed (confirms_of_worded h)
  | paired =>
    obtain rfl : f = variableList := beq_iff_eq.mp hprovided
    exact hconfirmed (confirms_of_paired hchildren h)
  | flagged name =>
    rw [check] at h
    exact hconfirmed (AttributeRule.confirms_of_check h)

end Closing

/-! ### Elements -/

/-- Of the elements that a form is given, it refuses for their names only what may not stand there,
and that under its own name. -/
theorem refuser?_of_refuses? (hsuits : f.Suits tag) (h : f.refuses? tag = some defect) :
    f.refuser? = some f.builder ∧ (f = .entity ∨ f = .misplaced)
      ∧ defect = .unexpectedElement tag := by
  by_cases hentity : f = .entity
  · subst hentity
    rw [refuses?] at h
    split at h
    · cases h
    · exact ⟨rfl, .inl rfl, (Option.some.inj h).symm⟩
  · rcases hsuits with rfl | hkind
    · exact ⟨rfl, .inr rfl, (Option.some.inj h).symm⟩
    · rw [refuses?_eq_none hkind hentity] at h
      cases h

/-- **What a form finds wrong with an element** is true of it, or misstated. -/
theorem Refuses.diagnosis (hplace : (f = .compound ∧ e = root) ∨ f.Suits e.name)
    (h : f.Refuses e v) :
    ∃ defect, v = f.violation e.name defect
      ∧ (defect.IsTrueOf root e ∨ f.Misstates e defect) := by
  cases h with
  | @name defect hname =>
    rcases hplace with ⟨rfl, rfl⟩ | hsuits
    · rw [refuses?] at hname
      split at hname
      case isTrue => cases hname
      case isFalse hroot =>
        obtain rfl := Option.some.inj hname
        exact ⟨_, rfl, .inl ⟨rfl, hroot⟩⟩
    · obtain ⟨hrefuser, hform, rfl⟩ := refuser?_of_refuses? hsuits hname
      refine ⟨_, by rw [hrefuser]; rfl, ?_⟩
      by_cases hown : ∃ c ∈ e.children, c.name = e.name
      -- it is true all the same of an element with a child of its own name
      · exact Or.inl hown
      · exact Or.inr (.itself hform (by simpa using hown))
  | attributes _ hattributes =>
    obtain ⟨w, hw, rfl⟩ := Violation.blame_eq_error_iff.mp hattributes
    have hconfirms : root.Confirms e w := AttributeRule.confirms_of_checkAll hw
    obtain ⟨defect, rfl, htrue⟩ := hconfirms
    exact ⟨defect, rfl, .inl htrue⟩
  | piece _ _ hcontent _ hpiece => exact ⟨_, rfl, .inl (hpiece.isTrueOf hcontent)⟩
  | closing _ _ hcontent hclosing =>
    obtain ⟨w, hw, rfl⟩ := Violation.blame_eq_error_iff.mp hclosing
    obtain ⟨done, c, rest, hclosings, -, hc⟩ := forM_eq_error_iff.mp hw
    have hmem : c ∈ f.closings := hclosings ▸ List.mem_append_right _ List.mem_cons_self
    obtain ⟨defect, rfl, hdefect⟩ := Closing.diagnosis root hmem hcontent hc
    exact ⟨defect, rfl, hdefect⟩

end Form

/-- **Every violation is found in an element of the tree** that has the name it gives.  What it says
is true of this element, but for two diagnoses. -/
theorem exists_diagnosed {e : Element} {v : Violation} (h : buildCompound e = .error v) :
    ∃ f d, Form.compound.Reaches e f d ∧ e.Contains d ∧ f.Refuses d v ∧ v.element = d.name
      ∧ (v.defect.IsTrueOf e d ↔ ¬ f.Misstates d v.defect) := by
  obtain ⟨f, d, hreaches, hrefuses⟩ := Form.exists_refuses h
  obtain ⟨defect, rfl, hdefect⟩ := hrefuses.diagnosis hreaches.eq_or_suits
  refine ⟨f, d, hreaches, hreaches.contains, hrefuses, rfl, ?_, ?_⟩
  · intro htrue hmisstates
    exact hmisstates.not_isTrueOf htrue
  · exact hdefect.resolve_right

/-- A field with a blank name. -/
def unnamedField : Element where
  name := "memberdef"
  attributes := [⟨"kind", "variable"⟩, ⟨"id", "a_1x"⟩, ⟨"prot", "public"⟩]
  content := [.child { name := "name", content := [.text " "] }]

/-- A class with this field. -/
def unnamedFieldClass : Element where
  name := "compounddef"
  attributes := [⟨"id", "a"⟩, ⟨"kind", "class"⟩]
  content :=
    [.child { name := "compoundname", content := [.text "A"] },
     .child
      { name := "sectiondef"
        attributes := [⟨"kind", "public-attrib"⟩]
        content := [.child unnamedField] }]

/-- The field is refused for its name. -/
theorem exists_diagnosed_unnamedField :
    ∃ v, buildCompound unnamedFieldClass = .error v
      ∧ ∃ f d, Form.compound.Reaches unnamedFieldClass f d ∧ unnamedFieldClass.Contains d
        ∧ f.Refuses d v ∧ v.element = d.name
        ∧ (v.defect.IsTrueOf unnamedFieldClass d ↔ ¬ f.Misstates d v.defect) := by
  have hrefused : buildCompound unnamedFieldClass
      = .error ⟨"memberdef", some "member builder", .missingElement "name"⟩ := by rfl
  exact ⟨_, hrefused, exists_diagnosed hrefused⟩

/-- The name is said to be absent, which is true of no element of the tree that is called like the
one named.  That it is empty would be true. -/
theorem not_isTrueOf_unnamedField :
    buildCompound unnamedFieldClass
        = .error ⟨"memberdef", some "member builder", .missingElement "name"⟩
      ∧ ∀ d, unnamedFieldClass.Contains d → d.name = "memberdef" →
        ¬ (Defect.missingElement "name").IsTrueOf unnamedFieldClass d
          ∧ (Defect.emptyValue "name").IsTrueOf unnamedFieldClass d := by
  -- Down the tree there is only one `memberdef`.
  have hself : ∀ d, unnamedFieldClass.Contains d → d.name = "memberdef" → d = unnamedField := by
    intro d hd hname
    rcases hd with _ | ⟨hc, hd⟩
    · exact absurd hname (by decide)
    rcases List.mem_pair.mp hc with rfl | rfl
    · rcases hd with _ | ⟨hc, -⟩
      · exact absurd hname (by decide)
      · exact absurd hc List.not_mem_nil
    rcases hd with _ | ⟨hc, hd⟩
    · exact absurd hname (by decide)
    obtain rfl := List.mem_singleton.mp hc
    rcases hd with _ | ⟨hc, hd⟩
    · rfl
    obtain rfl := List.mem_singleton.mp hc
    rcases hd with _ | ⟨hc, -⟩
    · exact absurd hname (by decide)
    · exact absurd hc List.not_mem_nil
  refine ⟨by rfl, fun d hd hname => ?_⟩
  obtain rfl := hself d hd hname
  have hchild : (⟨"name", [], [.text " "]⟩ : Element) ∈ unnamedField.children :=
    List.mem_singleton_self _
  exact ⟨fun hnone => hnone _ hchild rfl, .inr (.inl ⟨_, hchild, rfl, by decide⟩)⟩

end DocGraph
