import DocGraph.Proofs.Grammar

namespace DocGraph

/-!
# What builders accept

* `Form.becomes_ofKind`, `Form.texts_ofKind` — the nodes of a kind are those of the children of its
  tag, and say what these say;
* `Form.Closing.check_eq_ok_iff` — closing conditions are checked on the content of a node, and hold
  of the element;
* `Form.isOk_build_iff` — an element is built if it fits its form and its children are built;
* `isOk_buildCompound_iff` — **a compound is accepted if all of it conforms to the grammar**.
-/

/-! ### Elements and nodes -/

/-- Children are smaller. -/
theorem Element.sizeOf_lt_of_mem_children {e c : Element} (hc : c ∈ e.children) :
    sizeOf c < sizeOf e := by
  obtain ⟨name, attributes, pieces⟩ := e
  obtain ⟨piece, hpiece, hchild⟩ := List.mem_filterMap.mp hc
  obtain rfl : piece = .child c := by
    cases piece with
    | text s => cases hchild
    | child c' => exact congrArg Content.child (Option.some.inj hchild)
  have hbelow := List.sizeOf_lt_of_mem hpiece
  simp only [Content.child.sizeOf_spec, Element.mk.sizeOf_spec] at hbelow ⊢
  omega

theorem Node.textOf_text (s : String) (content : List (Content Node)) :
    Node.textOf (.text s :: content) = s ++ Node.textOf content := by
  rw [Node.textOf]

/-- Character data that is put before a content is put before its text. -/
theorem Node.textOf_consText (s : String) (content : List (Content Node)) :
    Node.textOf (Content.consText s content) = s ++ Node.textOf content := by
  match content with
  | [] => exact textOf_text s []
  | .child n :: rest => exact textOf_text s (.child n :: rest)
  | .text s' :: rest =>
    have hcons : Content.consText s (.text s' :: rest) = .text (s ++ s') :: rest := rfl
    rw [hcons, textOf_text, textOf_text, String.append_assoc]

namespace Form

variable {f : Form} {e c : Element} {name tag : String} {before : List NodeKind}
variable {pieces : List (Content Element)} {content : List (Content Node)} {n : Node} {slot : Slot}

/-! ### The text of nodes -/

/-- Where no child elements may stand and all character data is kept, it is the text. -/
theorem textOf_of_buildContent (hslots : ∀ tag, f.slot? tag = none) (hmodel : f.model = .verbatim)
    (hcontent : f.buildContent name before pieces = .ok content) :
    Node.textOf content = Content.texts pieces := by
  induction pieces generalizing content with
  | nil =>
    rw [buildContent_nil] at hcontent
    obtain rfl := Except.ok.inj hcontent
    rw [Node.textOf]
    rfl
  | cons piece rest ih =>
    cases piece with
    -- A verbatim form keeps every text, an empty one by leaving it out.
    | text s =>
      obtain ⟨kept, others, hkept, hothers, rfl⟩ := buildContent_text_eq_ok_iff.mp hcontent
      have htexts : Content.texts (.text s :: rest) = s ++ Content.texts rest := String.join_cons
      rw [hmodel] at hkept
      obtain rfl := Except.ok.inj hkept
      rw [htexts, ← ih hothers]
      split
      case isTrue => exact Node.textOf_consText s others
      case isFalse hempty =>
        obtain rfl : s = "" := by simpa using hempty
        rw [String.empty_append]
    -- No child has a slot, so one that was placed cannot be.
    | child c =>
      obtain ⟨slot, -, -, hplace, -⟩ := buildContent_child_eq_ok_iff.mp hcontent
      have hslot := (place_eq_ok_iff.mp hplace).1
      rw [hslots] at hslot
      cases hslot

/-- **An element that holds only text** becomes a node with this text. -/
theorem text_of_build_words (hn : words.build c = .ok n) : n.text = c.text := by
  obtain ⟨-, -, content, hcontent, -, rfl⟩ := build_eq_ok_iff.mp hn
  have htext : (words.node c content).text = Node.textOf content := by rw [node, Node.text]; rfl
  rw [htext]
  exact textOf_of_buildContent (fun _ => rfl) rfl hcontent

/-! ### The nodes of a kind -/

/-- The children of a tag become the nodes of its kind. -/
theorem becomes_ofKind {children : List Element} (htag : kindOf tag ≠ .entity)
    (h : List.Forall₂ f.Becomes children (Content.children content)) :
    List.Forall₂ f.Becomes (children.filter (·.name == tag)) (ofKind (kindOf tag) content) := by
  unfold ofKind
  refine List.rel_filter (R := f.Becomes) ?_ h
  intro c n hcn
  show (c.name == tag) = true ↔ (n.kind == kindOf tag) = true
  rw [beq_iff_eq, beq_iff_eq, hcn.kind_eq]
  exact ⟨fun heq => heq ▸ rfl, fun heq => eq_of_kindOf_eq htag heq⟩

/-- Where children hold only text, their nodes have their texts. -/
theorem map_text_of_becomes {children : List Element} {nodes : List Node}
    (hname : ∀ c ∈ children, c.name = tag)
    (hwords : (f.slot? tag).all (·.form == words) = true)
    (h : List.Forall₂ f.Becomes children nodes) :
    nodes.map Node.text = children.map Element.text := by
  induction h with
  | nil => rfl
  | @cons c n children nodes hcn _ ih =>
    obtain ⟨hc, hchildren⟩ := List.forall_mem_cons.mp hname
    obtain ⟨slot, hslot, hn⟩ := hcn
    have hform : slot.form = words := by
      rw [hc] at hslot
      simpa [hslot] using hwords
    rw [hform] at hn
    rw [List.map_cons, List.map_cons, text_of_build_words hn, ih hchildren]

/-- The texts of the nodes of a kind are those of the children of its tag. -/
theorem texts_ofKind {children : List Element} (htag : kindOf tag ≠ .entity)
    (hwords : (f.slot? tag).all (·.form == words) = true)
    (h : List.Forall₂ f.Becomes children (Content.children content)) :
    (ofKind (kindOf tag) content).map Node.text
      = (children.filter (·.name == tag)).map Element.text := by
  refine map_text_of_becomes ?_ hwords (becomes_ofKind htag h)
  intro c hc
  exact beq_iff_eq.mp (List.mem_filter.mp hc).2

/-! ### Closing conditions -/

/-- What the schema provides for a closing condition of a form: what is told, and names, in children
that hold only text. -/
def Closing.isProvided (f : Form) : Closing → Bool
  | .present tag => kindOf tag != .entity
  | .told tag => kindOf tag != .entity && (f.slot? tag).all (·.form == words)
  | .named => (f.slot? NodeKind.name.tag).all (·.form == words)
  | .paired => f == variableList
  | .worded | .flagged _ => true

/-- Every closing condition of a form has what its check relies on. -/
theorem isProvided_of_mem_closings : ∀ c ∈ f.closings, c.isProvided f = true := by
  cases f with
  | sect level => exact nofun
  | internal level => exact nofun
  | _ => decide

/-- What the first child of a tag tells. -/
theorem firstText?_eq (htag : kindOf tag ≠ .entity)
    (hwords : (f.slot? tag).all (·.form == words) = true)
    (h : List.Forall₂ f.Becomes e.children (Content.children content)) :
    firstText? (kindOf tag) content = (e.firstChild? tag).map Element.text := by
  rw [firstText?, ← List.head?_map, texts_ofKind htag hwords h, List.head?_map, List.head?_filter]
  rfl

/-- What the last child of a tag tells. -/
theorem lastText?_eq (htag : kindOf tag ≠ .entity)
    (hwords : (f.slot? tag).all (·.form == words) = true)
    (h : List.Forall₂ f.Becomes e.children (Content.children content)) :
    lastText? (kindOf tag) content
      = (e.children.filter (·.name == tag)).getLast?.map Element.text := by
  rw [lastText?, ← List.getLast?_map, texts_ofKind htag hwords h, List.getLast?_map]

/-- The kinds of the nodes are those of the children. -/
theorem kinds_of_becomes {children : List Element} {nodes : List Node}
    (h : List.Forall₂ f.Becomes children nodes) :
    nodes.map (·.kind) = children.map (kindOf ·.name) := by
  induction h with
  | nil => rfl
  | cons hcn _ ih => rw [List.map_cons, List.map_cons, hcn.kind_eq, ih]

/-- Terms and definitions that become nodes alternate if each comes when it is its turn. -/
theorem alternate_iff_of_becomes {children : List Element}
    (h : ∀ c ∈ children, ∃ n, variableList.Becomes c n) :
    TakeTurns [] children ∧ children.getLast?.map (kindOf ·.name) ≠ some .varListEntry
      ↔ Alternate (children.map (·.name)) := by
  have hfirst : ([] : List NodeKind).head? ≠ some .varListEntry := nofun
  refine alternate_iff (fun c hc => ?_) hfirst
  obtain ⟨n, slot, hslot, -⟩ := h c hc
  exact tag_eq_of_slot?_variableList hslot

/-- The content of a variable list is complete if its terms and definitions alternate. -/
theorem alternate_iff_of_buildContent
    (hcontent : variableList.buildContent name [] pieces = .ok content) :
    (Content.children content).getLast?.map (·.kind) ≠ some .varListEntry
      ↔ Alternate ((Content.children pieces).map (·.name)) := by
  have hkinds := kinds_of_becomes (becomes_of_buildContent hcontent)
  obtain ⟨-, hbecome, -, hturns⟩ := isOk_buildContent_iff.mp ⟨content, hcontent⟩
  rw [← alternate_iff_of_becomes hbecome, ← List.getLast?_map, hkinds, List.getLast?_map,
    iff_true_intro (hturns rfl), true_and]

namespace Closing

/-- A check for blanks succeeds where there are other characters. -/
theorem blank_eq_ok_iff {v : Violation} {text : String} :
    (if isBlankText text then Except.error v else .ok ()) = .ok () ↔ isBlankText text = false := by
  cases isBlankText text <;> simp

/-- A child that has to be there is found among the nodes if and only if it is among the elements.
-/
theorem check_present_iff (htag : kindOf tag ≠ .entity)
    (h : List.Forall₂ f.Becomes e.children (Content.children content)) :
    (present tag).check e content = .ok () ↔ (present tag).Holds e := by
  have hnone : (ofKind (kindOf tag) content).isEmpty = true ↔ ¬ (present tag).Holds e := by
    rw [List.isEmpty_iff, ← List.length_eq_zero_iff, ← (becomes_ofKind htag h).length_eq]
    simp [Holds]
  unfold check
  dsimp only
  by_cases hholds : (present tag).Holds e
  · rw [if_neg fun hempty => hnone.mp hempty hholds]
    exact iff_of_true rfl hholds
  · rw [if_pos (hnone.mpr hholds)]
    exact iff_of_false nofun hholds

/-- The text that has to be told is that of the first child element with the tag. -/
theorem check_told_iff (htag : kindOf tag ≠ .entity)
    (hwords : (f.slot? tag).all (·.form == words) = true)
    (h : List.Forall₂ f.Becomes e.children (Content.children content)) :
    (told tag).check e content = .ok () ↔ (told tag).Holds e := by
  unfold check Holds
  dsimp only
  rw [firstText?_eq htag hwords h]
  cases e.firstChild? tag with
  | none => simp
  | some c => simp

/-- The name that counts is that of the last child element with the tag. -/
theorem check_named_iff (hwords : (f.slot? NodeKind.name.tag).all (·.form == words) = true)
    (h : List.Forall₂ f.Becomes e.children (Content.children content)) :
    named.check e content = .ok () ↔ named.Holds e := by
  have hname : kindOf NodeKind.name.tag = .name := kindOf_tag (by decide)
  have htag : kindOf NodeKind.name.tag ≠ .entity := by rw [hname]; decide
  have hlast := lastText?_eq htag hwords h
  rw [hname] at hlast
  unfold check Holds
  dsimp only
  rw [blank_eq_ok_iff, hlast]
  cases (e.children.filter (·.name == NodeKind.name.tag)).getLast? with
  | none => simp [isBlankText]
  | some c => simp

/-- The text of the element itself is looked at, before and after building. -/
theorem check_worded_iff : worded.check e content = .ok () ↔ worded.Holds e := by
  unfold check Holds
  dsimp only
  rw [blank_eq_ok_iff]

/-- Terms and definitions alternate if and only if no term is left over in the end, for all else
that could disturb them has been refused on the way. -/
theorem check_paired_iff (hcontent : variableList.buildContent e.name [] e.content = .ok content) :
    paired.check e content = .ok () ↔ paired.Holds e := by
  have hlast := alternate_iff_of_buildContent hcontent
  unfold check
  dsimp only
  by_cases hterm : (Content.children content).getLast?.map (·.kind) = some .varListEntry
  · rw [if_pos hterm]
    exact iff_of_false nofun fun h => hlast.mpr h hterm
  · rw [if_neg hterm]
    exact iff_of_true rfl (hlast.mp hterm)

/-- **Closing conditions** are checked on the content of a node, and hold of the element. -/
theorem check_eq_ok_iff {closing : Closing} (hprovided : closing.isProvided f = true)
    (hcontent : f.buildContent e.name [] e.content = .ok content) :
    closing.check e content = .ok () ↔ closing.Holds e := by
  have hchildren : List.Forall₂ f.Becomes e.children (Content.children content) :=
    becomes_of_buildContent hcontent
  cases closing with
  | present tag => exact check_present_iff (bne_iff_ne.mp hprovided) hchildren
  | told tag =>
    obtain ⟨htag, hwords⟩ := Bool.and_eq_true_iff.mp hprovided
    exact check_told_iff (bne_iff_ne.mp htag) hwords hchildren
  | named => exact check_named_iff hprovided hchildren
  | worded => exact check_worded_iff
  | paired =>
    -- Only variable lists provide this closing, and its test reads the built content itself.
    obtain rfl : f = variableList := beq_iff_eq.mp hprovided
    exact check_paired_iff hcontent
  | flagged name =>
    show (AttributeRule.mk name .flag).check e = .ok () ↔ Demand.flag.Admits (e.attribute? name)
    exact AttributeRule.check_eq_ok_iff

end Closing

/-! ### One element -/

/-- **No form refuses** elements of its kinds for their names, save that of characters. -/
theorem refuses?_eq_none (hkind : kindOf tag ∈ f.kinds) (hf : f ≠ .entity) :
    f.refuses? tag = none := by
  -- The entity form is the only one that takes unknown tags, so the kind is the tag's own.
  have hknown : kindOf tag ≠ .entity := fun hentity => hf (eq_of_form? rfl (hentity ▸ hkind))
  have htag : NodeKind.ofTag? tag = some (kindOf tag) := ofTag?_eq_kindOf hknown
  cases f with
  | compound =>
    have hcompound : kindOf tag = .compoundDef := List.mem_singleton.mp hkind
    rw [refuses?, if_pos (by rw [← tag_kindOf hknown, hcompound])]
  | entity => exact absurd rfl hf
  | misplaced => exact absurd hkind List.not_mem_nil
  -- The forms shared by several tags test the tag's kind, and every kind of theirs passes.
  | innerRef =>
    have hinner : ∀ k ∈ innerRef.kinds, (InnerKind.ofTag? k.tag).isSome = true := by decide
    have hsome := hinner _ hkind
    rw [tag_kindOf hknown] at hsome
    rw [refuses?, htag, hsome]
    rfl
  | description =>
    have hdescription : ∀ k ∈ description.kinds, k.isDescription = true := by decide
    rw [refuses?, htag, Option.any_some, hdescription _ hkind]
    rfl
  | sect level =>
    rw [refuses?, Option.mem_toList.mp hkind]
    rfl
  | reimplementation | memberUse => rw [refuses?, htag]; rfl
  | _ => rfl

/-- Of the forms that suit a tag, only two refuse elements for their names. -/
theorem refuses?_eq_none_iff (h : f.Suits tag) :
    f.refuses? tag = none
      ↔ f ≠ .misplaced ∧ (f = .entity → (characterEntity? tag).isSome = true) := by
  by_cases hentity : f = .entity
  · subst hentity
    simp [refuses?, Option.isSome_iff_ne_none]
  · rcases h with rfl | hkind
    · simp [refuses?]
    · have hplaced : f ≠ .misplaced := by
        rintro rfl
        exact List.not_mem_nil hkind
      exact iff_of_true (refuses?_eq_none hkind hentity) ⟨hplaced, fun h => absurd h hentity⟩

/-- A child may stand where its form does not refuse its tag. -/
theorem permits_iff :
    f.Permits tag ↔ ∃ slot, f.slot? tag = some slot ∧ slot.form.refuses? tag = none := by
  refine exists_congr fun slot => and_congr_right fun hslot => ?_
  exact (refuses?_eq_none_iff (suits_of_slot? hslot)).symm

/-- The attributes of an element are those that its form demands. -/
theorem checkAttributes_eq_ok_iff :
    f.checkAttributes e = .ok () ↔ (∀ a ∈ e.attributes, ∃ r ∈ f.attributes, r.name = a.name)
      ∧ ∀ r ∈ f.attributes, r.demand.Admits (e.attribute? r.name) := by
  rw [checkAttributes, Violation.blame_eq_ok_iff, AttributeRule.checkAll_eq_ok_iff]

/-- **An element is built** if it fits its form and its children are built. -/
theorem isOk_build_iff :
    (∃ n, f.build e = .ok n)
      ↔ f.refuses? e.name = none ∧ f.Fits e ∧ ∀ c ∈ e.children, ∃ n, f.Becomes c n := by
  constructor
  · rintro ⟨n, hn⟩
    obtain ⟨hrefuses, hattributes, content, hcontent, hclosing, -⟩ := build_eq_ok_iff.mp hn
    obtain ⟨hnames, hvalues⟩ := checkAttributes_eq_ok_iff.mp hattributes
    obtain ⟨htexts, hbecome, honces, -⟩ := isOk_buildContent_iff.mp ⟨content, hcontent⟩
    refine ⟨hrefuses, ⟨hnames, hvalues, htexts, ?_, ?_, ?_⟩, hbecome⟩
    · intro c hc
      obtain ⟨n, slot, hslot, hn⟩ := hbecome c hc
      exact permits_iff.mpr ⟨slot, hslot, (build_eq_ok_iff.mp hn).1⟩
    · intro tag slot hslot honce
      exact (occurOnce_iff.mp honces tag slot hslot honce).1
    · intro closing hclosed
      have hprovided := isProvided_of_mem_closings closing hclosed
      exact (Closing.check_eq_ok_iff hprovided hcontent).mp
        (checkClosing_eq_ok_iff.mp hclosing closing hclosed)
  · rintro ⟨hrefuses, hfits, hbecome⟩
    -- Nothing came before the first child.
    have honces : f.OccurOnce [] e.children := by
      refine occurOnce_iff.mpr fun tag slot hslot honce => ⟨hfits.once tag slot hslot honce, ?_⟩
      exact nofun
    have hturns : f = .variableList → TakeTurns [] e.children := by
      rintro rfl
      -- Building asks child by child what the form asks of all children at the end.
      have halternate := hfits.closed .paired (by decide)
      exact ((alternate_iff_of_becomes hbecome).mpr halternate).1
    obtain ⟨content, hcontent⟩ := isOk_buildContent_iff.mpr ⟨hfits.texts, hbecome, honces, hturns⟩
    refine ⟨f.node e content, build_eq_ok_iff.mpr ⟨hrefuses, ?_, content, hcontent, ?_, rfl⟩⟩
    · exact checkAttributes_eq_ok_iff.mpr ⟨hfits.names, hfits.values⟩
    · refine checkClosing_eq_ok_iff.mpr fun closing hclosed => ?_
      have hprovided := isProvided_of_mem_closings closing hclosed
      exact (Closing.check_eq_ok_iff hprovided hcontent).mpr (hfits.closed closing hclosed)

/-! ### Trees -/

/-- **An element is built** if it and everything below it conforms. -/
theorem isOk_build_iff_conforms (f : Form) (e : Element) :
    (∃ n, f.build e = .ok n) ↔ f.refuses? e.name = none ∧ f.Conforms e := by
  rw [isOk_build_iff, conforms_iff]
  refine and_congr_right fun _ => and_congr_right fun hfits => forall₂_congr fun c hc => ?_
  -- The child has one form, which does not refuse its tag.
  obtain ⟨slot, hslot, hpermitted⟩ := permits_iff.mp (hfits.children c hc)
  have hbelow := isOk_build_iff_conforms slot.form c
  constructor
  · rintro ⟨n, slot', hslot', hn⟩ slot'' hslot''
    rw [hslot] at hslot' hslot''
    cases hslot'
    cases hslot''
    exact (hbelow.mp ⟨n, hn⟩).2
  · intro h
    obtain ⟨n, hn⟩ := hbelow.mpr ⟨hpermitted, h slot hslot⟩
    exact ⟨n, slot, hslot, hn⟩
termination_by e
decreasing_by exact Element.sizeOf_lt_of_mem_children hc

end Form

/-- **What is accepted as a compound** conforms to the grammar, and all that conforms is accepted:
every element of the tree has the attributes, the character data and the children which its form
asks, and its form is given by where it stands.  The order of the checks matters only to which
violation is reported. -/
theorem isOk_buildCompound_iff (e : Element) :
    (∃ n, buildCompound e = .ok n) ↔ e.name = "compounddef" ∧ Form.compound.Conforms e := by
  have hroot : Form.compound.refuses? e.name = none ↔ e.name = "compounddef" := by
    rw [Form.refuses?]
    by_cases hname : e.name = NodeKind.compoundDef.tag
    · rw [if_pos hname]
      exact iff_of_true rfl hname
    · rw [if_neg hname]
      exact iff_of_false nofun hname
  rw [buildCompound, Form.isOk_build_iff_conforms, hroot]

end DocGraph
