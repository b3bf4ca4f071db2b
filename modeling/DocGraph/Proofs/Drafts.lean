import DocGraph.Proofs.Forms
import DocGraph.Proofs.Hoisting

namespace DocGraph

/-!
# Nodes under construction, and finished content

Building walks through a content from left to right, and takes data from each child as it is pushed.
What that comes to can be said of the finished content alone:

* `Except.bind_eq_ok_iff`, `forM_eq_ok_iff`, `Violation.blame_eq_ok_iff` and others — when actions
  that may fail succeed;
* `Content.join` — the pieces of a content after those that are there already;
* `Form.buildContent` — the pieces that the content of an element becomes, each put before what the
  rest comes to;
* `Form.Closing.check`, `Form.checkClosing` — closing conditions, read off a finished content;
* `Form.node` — the node of an element, with its data read off its content;
* `Draft.Holds` — a node under construction holds a content, with the data that there is to read off
  it and the slots that its children fill;
* `Draft.Holds.addText`, `Draft.Holds.push`, `Draft.Holds.pushOnce` — each step of building keeps it
  so, and `Draft.Holds.push_slot` tells when a child is refused;
* `Form.walk_agree` — hence, by induction over the pieces, so does the whole walk;
* `Form.build_eq` — building an element, by its finished content.
-/

/-! ### Results of actions that may fail -/

/-- What follows on an action that has succeeded is all that is left. -/
theorem Except.ok_bind {ε α β : Type} (a : α) (f : α → Except ε β) : (.ok a >>= f) = f a := rfl

/-- An action after another one succeeds if both do. -/
theorem Except.bind_eq_ok_iff {ε α β : Type} {x : Except ε α} {f : α → Except ε β} {b : β} :
    (x >>= f) = .ok b ↔ ∃ a, x = .ok a ∧ f a = .ok b := by
  cases x with
  | error ε => simp [bind, Except.bind]
  | ok a => simp [bind, Except.bind]

theorem Except.map_eq_ok_iff {ε α β : Type} {x : Except ε α} {f : α → β} {b : β} :
    x.map f = .ok b ↔ ∃ a, x = .ok a ∧ f a = b := by
  cases x <;> simp [Except.map]

theorem Except.mapError_eq_ok_iff {ε ε' α : Type} {x : Except ε α} {f : ε → ε'} {a : α} :
    x.mapError f = .ok a ↔ x = .ok a := by
  cases x with
  | error ε => exact ⟨nofun, nofun⟩
  | ok b => exact ⟨fun h => congrArg _ (Except.ok.inj h), fun h => congrArg _ (Except.ok.inj h)⟩

/-- A success is what is left when failures are forgotten. -/
theorem toOption_eq_some_iff {ε α : Type} {x : Except ε α} {a : α} :
    x.toOption = some a ↔ x = .ok a := by
  cases x <;> simp [Except.toOption]

/-- A result of which something holds is there. -/
theorem exists_eq_ok_of_any {ε α : Type} {x : Except ε α} {P : α → Bool}
    (hx : x.toOption.any P = true) : ∃ a, x = .ok a ∧ P a = true := by
  rw [Option.any_eq_true] at hx
  simpa only [toOption_eq_some_iff] using hx

/-- A list of checks succeeds if every one does. -/
theorem forM_eq_ok_iff {ε α : Type} {check : α → Except ε Unit} {l : List α} :
    l.forM check = .ok () ↔ ∀ a ∈ l, check a = .ok () := by
  induction l with
  | nil => simp [pure, Except.pure]
  | cons a l ih =>
    have hcons : (a :: l).forM check = check a >>= fun _ => l.forM check := rfl
    rw [hcons, Except.bind_eq_ok_iff, List.forall_mem_cons]
    constructor
    · rintro ⟨⟨⟩, ha, hl⟩
      exact ⟨ha, ih.mp hl⟩
    · rintro ⟨ha, hl⟩
      exact ⟨(), ha, ih.mpr hl⟩

/-- Lists of checks that come to the same come to the same together. -/
theorem forM_congr {ε α : Type} {check check' : α → Except ε Unit} {l : List α}
    (h : ∀ a ∈ l, check a = check' a) : l.forM check = l.forM check' := by
  induction l with
  | nil => rfl
  | cons a l ih =>
    obtain ⟨ha, hl⟩ := List.forall_mem_cons.mp h
    have hcons : ∀ c : α → Except ε Unit, (a :: l).forM c = c a >>= fun _ => l.forM c :=
      fun _ => rfl
    rw [hcons, hcons, ha, ih hl]

/-- To put the name of a builder to failures changes no success. -/
theorem Violation.blame_eq_ok_iff {α : Type} {builder : String} {check : Except Violation α}
    {a : α} : Violation.blame builder check = .ok a ↔ check = .ok a := by
  cases check with
  | error v =>
    have herror : Violation.blame builder (.error v : Except Violation α)
        = .error (v.rejectedBy builder) := rfl
    simp [herror]
  | ok b => exact Iff.rfl

/-! ### Content after content -/

namespace Content

variable {α : Type} {content others : List (Content α)} {s t : String} {a : α}

/-- Pieces of content after others, where adjacent character data is one piece. -/
def join (content others : List (Content α)) : List (Content α) :=
  match content.getLast? with
  | some (.text s) => content.dropLast ++ consText s others
  | _ => content ++ others

/-- Character data at the end joins that at the beginning of what follows. -/
theorem join_append_text :
    join (content ++ [.text s]) others = content ++ consText s others := by
  simp [join]

theorem join_append_child :
    join (content ++ [.child a]) others = content ++ .child a :: others := by
  simp [join]

/-- Character data is put before a content piece by piece, or all at once. -/
theorem consText_consText : consText t (consText s content) = consText (t ++ s) content := by
  match content with
  | [] => rfl
  | .text u :: rest => simp [consText, String.append_assoc]
  | .child a :: rest => rfl

/-- Character data may be put at the end of the first pieces or before the others. -/
theorem join_consText (content others : List (Content α)) (s : String) :
    join content (consText s others) = join (appendText s content) others := by
  rcases List.eq_nil_or_concat content with rfl | ⟨before, last, rfl⟩
  · rfl
  · rw [List.concat_eq_append]
    cases last with
    | text t =>
      rw [appendText_append_text, join_append_text, join_append_text, consText_consText]
    | child a =>
      have hsplit : before ++ [.child a, .text s] = (before ++ [.child a]) ++ [.text s] := by simp
      rw [appendText_append_child, hsplit, join_append_text, join_append_child]
      simp

/-- So may a child. -/
theorem join_cons_child (content others : List (Content α)) (a : α) :
    join content (.child a :: others) = join (content ++ [.child a]) others := by
  rw [join_append_child]
  rcases List.eq_nil_or_concat content with rfl | ⟨before, last, rfl⟩
  · rfl
  · rw [List.concat_eq_append]
    -- joining looks at the last piece only, and a child is never merged with it
    cases last with
    | text t =>
      rw [join_append_text, List.append_assoc]
      rfl
    | child b =>
      rw [join_append_child, List.append_assoc]
      rfl

theorem join_nil (content : List (Content α)) : join content [] = content := by
  rcases List.eq_nil_or_concat content with rfl | ⟨before, last, rfl⟩
  · rfl
  · rw [List.concat_eq_append]
    cases last with
    | text t => exact join_append_text
    | child b => exact join_append_child

end Content

namespace Form

/-! ### Building by finished content -/

/-- Whether a closing condition holds of an element and its content. -/
def Closing.check (e : Element) (content : List (Content Node)) :
    Closing → Except Violation Unit
  | .present tag =>
    if (ofKind (kindOf tag) content).isEmpty then .error (e.violation (.missingElement tag))
    else .ok ()
  | .told tag =>
    match firstText? (kindOf tag) content with
    | none => .error (e.violation (.missingElement tag))
    | some text =>
      if isBlankText text then .error (e.violation (.emptyValue tag)) else .ok ()
  | .named =>
    if isBlankText ((lastText? .name content).getD "") then
      .error (e.violation (.missingElement NodeKind.name.tag))
    else .ok ()
  | .worded => if isBlankText e.text then .error (e.violation (.emptyValue e.name)) else .ok ()
  | .paired =>
    if ((Content.children content).getLast?.map (·.kind)) = some .varListEntry then
      .error (e.violation .unpairedTerm)
    else .ok ()
  | .flagged name => (AttributeRule.mk name .flag).check e

/-- The closing conditions of a form hold of an element and its content. -/
def checkClosing (f : Form) (e : Element) (content : List (Content Node)) :
    Except Violation Unit :=
  Violation.blame f.builder (f.closings.forM (Closing.check e content))

/-- The content that the content of an element with this form and name becomes, after children of
the kinds `before`. -/
def buildContent (f : Form) (name : String) (before : List NodeKind) :
    List (Content Element) → Except Violation (List (Content Node))
  | [] => .ok []
  | .text s :: rest =>
    match f.model.keeps s with
    | .error defect => .error (f.violation name defect)
    | .ok kept => do
      let others ← buildContent f name before rest
      return if kept then Content.consText s others else others
  | .child e :: rest =>
    match f.place before e.name with
    | .error defect => .error (f.violation name defect)
    | .ok slot => do
      let node ← build slot.form e
      if slot.once && before.contains node.kind then
        throw (f.violation name (.duplicateElement e.name))
      let others ← buildContent f name (node.kind :: before) rest
      return .child node :: others

/-- The node of an element with this form, from its content.  Building comes to it by `build_eq`,
though it takes data from one child after the other. -/
def node (f : Form) (e : Element) (content : List (Content Node)) : Node where
  kind := kindOf e.name
  data := f.dataOf e content
  content := f.arrange content

variable {f : Form} {e : Element} {name tag s : String} {slot : Slot}
variable {content : List (Content Node)} {n : Node}

/-- A node is finished with the kind that its element has by its tag. -/
theorem kind_of_finish {draft : Draft} (hn : f.finish e draft = .ok n) :
    n.kind = kindOf e.name := by
  obtain ⟨⟨⟩, -, hn⟩ := Except.bind_eq_ok_iff.mp hn
  obtain rfl := Except.ok.inj hn
  rfl

/-- **A node has the kind** that its element has by its tag. -/
theorem kind_of_build (hn : f.build e = .ok n) : n.kind = kindOf e.name := by
  obtain ⟨name, attributes, pieces⟩ := e
  rw [build] at hn
  cases hrefuses : f.refuses? name with
  | some defect =>
    rw [hrefuses] at hn
    cases hn
  | none =>
    rw [hrefuses] at hn
    obtain ⟨⟨⟩, -, hn⟩ := Except.bind_eq_ok_iff.mp hn
    obtain ⟨draft, -, hn⟩ := Except.bind_eq_ok_iff.mp hn
    exact kind_of_finish hn

/-- A child element finds its slot; in a variable list, only where it is its turn. -/
theorem place_eq_ok_iff {before : List NodeKind} :
    f.place before tag = .ok slot ↔ f.slot? tag = some slot
      ∧ (f = .variableList →
        (tag = NodeKind.varListEntry.tag → before.head? ≠ some .varListEntry)
          ∧ (tag = NodeKind.listItem.tag → before.head? = some .varListEntry)) := by
  simp only [place]
  split
  case isTrue hterm =>
    obtain ⟨rfl, rfl, hpending⟩ := hterm
    simp [hpending]
  case isFalse hterm =>
    split
    case isTrue hdefinition =>
      obtain ⟨rfl, rfl, hpending⟩ := hdefinition
      simp [hpending]
    case isFalse hdefinition =>
      -- Neither test stops the child, which is what the right-hand side asks for.
      have hturn : f = .variableList →
          (tag = NodeKind.varListEntry.tag → before.head? ≠ some .varListEntry)
            ∧ (tag = NodeKind.listItem.tag → before.head? = some .varListEntry) :=
        fun hf => ⟨fun htag hpending => hterm ⟨hf, htag, hpending⟩,
          fun htag => Decidable.by_contra fun hpending => hdefinition ⟨hf, htag, hpending⟩⟩
      rw [iff_true_intro hturn, and_true]
      cases f.slot? tag <;> simp

/-! ### Children that occur once -/

/-- Whether a form lets children of a kind occur only once. -/
def allowsOnce (f : Form) (kind : NodeKind) : Bool :=
  kind ≠ .entity && (f.slot? kind.tag).any (·.once)

/-- The slot of a child tells whether others of its kind may occur. -/
theorem allowsOnce_kindOf (hslot : f.slot? tag = some slot) :
    f.allowsOnce (kindOf tag) = slot.once := by
  by_cases htag : kindOf tag = .entity
  · have honce : slot.once = false :=
      Bool.eq_false_iff.mpr fun honce => kindOf_ne_entity_of_once hslot honce htag
    rw [allowsOnce, htag, honce]
    rfl
  · rw [allowsOnce, tag_kindOf htag, hslot]
    simp [htag]

/-- Where data holds something of one child, its form lets no other of the kind occur. -/
theorem allowsOnce_of_mem_heldOnce {kind : NodeKind} (hkind : kind ∈ (f.start e).heldOnce) :
    f.allowsOnce kind = true := by
  cases f with
  | innerRef =>
    rw [start] at hkind
    cases hinner : InnerKind.ofTag? e.name <;> simp [hinner, NodeData.heldOnce] at hkind
  | ref =>
    rw [start] at hkind
    cases href : RefKind.ofName? (e.value "kindref") <;> simp [href, NodeData.heldOnce] at hkind
  | htmlLiteral =>
    rw [start] at hkind
    cases hflag : e.flag? "block" <;> simp [hflag, NodeData.heldOnce] at hkind
  | sect level =>
    obtain rfl := List.mem_singleton.mp hkind
    rfl
  | compound | sectionDef | member | enumValue | param | tocSect | table | simpleSect
  | description =>
    dsimp only [start, NodeData.heldOnce] at hkind
    revert kind
    decide
  -- all other data holds nothing
  | _ => exact absurd hkind List.not_mem_nil

end Form

/-! ### What a node under construction holds -/

namespace Draft

/-- **A node under construction holds a content.**  Whatever it has taken so far from the children
that were pushed is what there is to read off them. -/
structure Holds (draft : Draft) (f : Form) (e : Element) (content : List (Content Node)) :
    Prop where
  content_eq : draft.content.toList = content
  data_eq : draft.data = f.dataOf e content
  /-- The kinds of all children are known, last one first. -/
  before_eq : draft.before = ((Content.children content).map (·.kind)).reverse
  /-- A slot is filled if and only if there is a child of its kind. -/
  slot_iff : ∀ kind, f.allowsOnce kind = true → ((draft.slot? kind).isSome ↔ kind ∈ draft.before)

variable {draft : Draft} {f : Form} {e : Element} {content : List (Content Node)} {n : Node}
variable {kind : NodeKind} {tag : String} {slot : Form.Slot}

/-- Before the first piece there is nothing to hold. -/
theorem holds_start (f : Form) (e : Element) : Holds { data := f.start e } f e [] where
  content_eq := rfl
  data_eq := (f.dataOf_nil e).symm
  before_eq := rfl
  slot_iff := by simp [slot?]

/-- The kinds that have not been met are those without children. -/
theorem Holds.not_mem_before_iff (h : draft.Holds f e content) :
    kind ∉ draft.before ↔ ofKind kind content = [] := by
  rw [h.before_eq, List.mem_reverse, List.eq_nil_iff_forall_not_mem]
  simp [mem_ofKind_iff]

/-! ### Character data -/

/-- Character data changes the content alone, in place or at its end. -/
theorem addText_eq (draft : Draft) (s : String) :
    ∃ grown : Array (Content Node), draft.addText s = { draft with content := grown }
      ∧ grown.toList = Content.appendText s draft.content.toList := by
  obtain ⟨data, ⟨pieces⟩, before, slots⟩ := draft
  rcases List.eq_nil_or_concat pieces with rfl | ⟨done, last, rfl⟩
  · exact ⟨_, rfl, rfl⟩
  · rw [List.concat_eq_append]
    cases last with
    | text t =>
      refine ⟨(done ++ [Content.text (t ++ s)]).toArray, ?_, ?_⟩
      · simp [addText]
      · simp [Content.appendText_append_text]
    | child m =>
      refine ⟨(done ++ [Content.child m, .text s]).toArray, ?_, ?_⟩
      · simp [addText]
      · simp [Content.appendText_append_child]

/-- No kind is met in character data. -/
theorem before_addText (draft : Draft) (s : String) : (draft.addText s).before = draft.before := by
  obtain ⟨grown, hgrown, -⟩ := draft.addText_eq s
  rw [hgrown]

/-- Character data joins that before it, so no place changes. -/
theorem Holds.addText (h : draft.Holds f e content) (s : String) :
    (draft.addText s).Holds f e (Content.appendText s content) := by
  obtain ⟨grown, hgrown, hcontent⟩ := draft.addText_eq s
  rw [hgrown]
  constructor
  case content_eq => rw [hcontent, h.content_eq]
  case data_eq => exact h.data_eq.trans ((f.start e).readOff_appendText content s).symm
  case before_eq => rw [Content.children_appendText]; exact h.before_eq
  case slot_iff => exact h.slot_iff

/-! ### Children -/

/-- The data that is taken from a child is what there is to read off the content with the child, if
no child comes a second time where it may not. -/
theorem Holds.take_eq (h : draft.Holds f e content)
    (hfirst : f.allowsOnce n.kind = true → n.kind ∉ draft.before) :
    draft.data.take ⟨n, draft.content.size⟩ = f.dataOf e (content ++ [.child n]) := by
  have hisFirst : n.IsFirstIn (f.start e).heldOnce content := fun hheld =>
    h.not_mem_before_iff.mp (hfirst (Form.allowsOnce_of_mem_heldOnce hheld))
  have hplace : draft.content.size = content.length := by
    rw [← h.content_eq, Array.length_toList]
  rw [h.data_eq, hplace]
  exact NodeData.take_readOff hisFirst

/-- The kinds of children are kept in step with them. -/
theorem Holds.before_push (h : draft.Holds f e content) :
    n.kind :: draft.before
      = ((Content.children (content ++ [.child n])).map (·.kind)).reverse := by
  rw [h.before_eq, Content.children_append]
  simp

/-- A child is pushed that may come again. -/
theorem Holds.push (h : draft.Holds f e content) (honce : f.allowsOnce n.kind = false) :
    (draft.push n).Holds f e (content ++ [.child n]) where
  content_eq := by rw [Draft.push, Array.toList_push, h.content_eq]
  data_eq := h.take_eq (by simp [honce])
  before_eq := h.before_push
  slot_iff kind hkind := by
    -- the child is of another kind, and no slot changes
    have hne : kind ≠ n.kind := by
      rintro rfl
      simp [honce] at hkind
    have hslot : (draft.push n).slot? kind = draft.slot? kind := rfl
    rw [hslot, h.slot_iff kind hkind, Draft.push, List.mem_cons, or_iff_right hne]

/-- A child is pushed into the slot of its kind, which no other child has filled. -/
theorem Holds.pushOnce (h : draft.Holds f e content) (hfree : n.kind ∉ draft.before) :
    Holds { draft.push n with slots := (n.kind, draft.content.size) :: draft.slots } f e
      (content ++ [.child n]) where
  content_eq := by rw [Draft.push, Array.toList_push, h.content_eq]
  data_eq := h.take_eq fun _ => hfree
  before_eq := h.before_push
  slot_iff kind hkind := by
    have hslot := h.slot_iff kind hkind
    rw [slot?, List.lookup_cons, Draft.push, List.mem_cons]
    by_cases heq : kind = n.kind
    · simp [heq]
    · rw [beq_eq_false_iff_ne.mpr heq, or_iff_right heq]
      exact hslot

/-- **A child is refused only if it comes again** where it may not; otherwise it is held with what
was held before. -/
theorem Holds.push_slot (h : draft.Holds f e content) (hslot : f.slot? tag = some slot)
    (hkind : n.kind = Form.kindOf tag) :
    match if slot.once then draft.pushOnce? n else some (draft.push n) with
    | none => (slot.once && draft.before.contains n.kind) = true
    | some grown => (slot.once && draft.before.contains n.kind) = false
        ∧ grown.Holds f e (content ++ [.child n]) ∧ grown.before = n.kind :: draft.before := by
  have honce : f.allowsOnce n.kind = slot.once := hkind ▸ Form.allowsOnce_kindOf hslot
  cases hslotOnce : slot.once with
  | false =>
    rw [hslotOnce] at honce
    exact ⟨rfl, h.push honce, rfl⟩
  | true =>
    rw [hslotOnce] at honce
    -- The draft has a place in this slot just if a child of the kind came before.
    have hfilled := h.slot_iff n.kind honce
    cases hplace : draft.slot? n.kind with
    | some place =>
      rw [hplace] at hfilled
      simpa [pushOnce?, hplace] using hfilled
    | none =>
      have hfree : n.kind ∉ draft.before := by simpa [hplace] using hfilled
      simpa [pushOnce?, hplace, hfree] using ⟨h.pushOnce hfree, rfl⟩

/-! ### The end -/

/-- A slot is empty if there are no children of its kind. -/
theorem Holds.slot?_eq_none_iff (h : draft.Holds f e content) (honce : f.allowsOnce kind = true) :
    draft.slot? kind = none ↔ ofKind kind content = [] := by
  rw [← h.not_mem_before_iff, ← h.slot_iff kind honce, Option.not_isSome_iff_eq_none]

/-- What has to be there is there if its slot is filled. -/
theorem Holds.check_present (h : draft.Holds f e content)
    (honce : f.allowsOnce (Form.kindOf tag) = true) :
    draft.check e (.present tag) = (Form.Closing.present tag).check e content := by
  rw [check, Form.Closing.check]
  have hnone := h.slot?_eq_none_iff honce
  cases hslot : draft.slot? (Form.kindOf tag) with
  | none => simp [hnone.mp hslot]
  | some place => simp [← hnone, hslot]

/-- What has to be told is told by the text that was taken. -/
theorem Holds.check_told (h : draft.Holds f e content)
    (honce : f.allowsOnce (Form.kindOf tag) = true)
    (htext : draft.data.requiredText = (firstText? (Form.kindOf tag) content).getD "") :
    draft.check e (.told tag) = (Form.Closing.told tag).check e content := by
  rw [check, Form.Closing.check, htext]
  have hnone := h.slot?_eq_none_iff honce
  cases hkinds : ofKind (Form.kindOf tag) content with
  | nil =>
    have hblank : isBlankText "" = true := by decide
    simp [firstText?, hkinds, hnone.mpr hkinds, hblank]
  | cons m others =>
    obtain ⟨place, hplace⟩ : ∃ place, draft.slot? (Form.kindOf tag) = some place :=
      Option.ne_none_iff_exists'.mp fun hslot => by simp [hkinds] at hnone; exact hnone hslot
    simp [firstText?, hkinds, hplace]

/-- A term waits for its definition if it is the last child. -/
theorem Holds.check_paired (h : draft.Holds f e content) :
    draft.check e .paired = Form.Closing.paired.check e content := by
  have hlast : draft.before.head? = (Content.children content).getLast?.map (·.kind) := by
    rw [h.before_eq, List.head?_reverse, List.getLast?_map]
  rw [check, Form.Closing.check, hlast]

/-- **Closing conditions** may as well be read off the finished content. -/
theorem Holds.check_eq (h : draft.Holds f e content) {closing : Form.Closing}
    (hclosing : closing ∈ f.closings) : draft.check e closing = closing.check e content := by
  cases f with
  | compound =>
    obtain rfl := List.mem_singleton.mp hclosing
    exact h.check_told (by decide) (by rw [h.data_eq]; rfl)
  | tocSect =>
    obtain rfl := List.mem_singleton.mp hclosing
    exact h.check_told (by decide) (by rw [h.data_eq]; rfl)
  | listedMember | sectionMember | member | enumValue =>
    obtain rfl := List.mem_singleton.mp hclosing
    rw [check, Form.Closing.check, h.data_eq]
    rfl
  | graphNode | parameterItem | xrefSect =>
    obtain rfl := List.mem_singleton.mp hclosing
    exact h.check_present (by decide)
  | variableList =>
    obtain rfl := List.mem_singleton.mp hclosing
    exact h.check_paired
  | exportItem | htmlLiteral =>
    obtain rfl := List.mem_singleton.mp hclosing
    rfl
  -- no other form has a closing condition
  | _ => exact absurd hclosing List.not_mem_nil

end Draft

namespace Form

variable {f : Form} {e : Element} {name : String} {draft : Draft} {content : List (Content Node)}

/-- **A node is finished** as if all was read off its content. -/
theorem finish_eq (h : draft.Holds f e content) :
    f.finish e draft = do
      f.checkClosing e content
      return f.node e content := by
  have hclosings : f.closings.forM (draft.check e) = f.closings.forM (Closing.check e content) :=
    forM_congr fun closing hclosing => h.check_eq hclosing
  rw [finish, hclosings, h.data_eq, h.content_eq]
  rfl

/-! ### The walk -/

/-- A walk and a content come to the same: to one violation, or to a node under construction that
holds the content after what it held before. -/
inductive Agree (f : Form) (e : Element) (content : List (Content Node)) :
    Except Violation Draft → Except Violation (List (Content Node)) → Prop
  | error (v : Violation) : Agree f e content (.error v) (.error v)
  | ok {grown : Draft} {others : List (Content Node)} :
    grown.Holds f e (Content.join content others) → Agree f e content (.ok grown) (.ok others)

variable {walked : Except Violation Draft} {built : Except Violation (List (Content Node))}

/-- Character data may be added before the walk goes on, or put before what it comes to. -/
theorem Agree.text {s : String} (h : f.Agree e (Content.appendText s content) walked built) :
    f.Agree e content walked (built >>= fun others => .ok (Content.consText s others)) := by
  cases h with
  | error v => exact .error v
  | ok hgrown => exact .ok (Content.join_consText content _ s ▸ hgrown)

theorem Agree.child {n : Node} (h : f.Agree e (content ++ [.child n]) walked built) :
    f.Agree e content walked (built >>= fun others => .ok (.child n :: others)) := by
  cases h with
  | error v => exact .error v
  | ok hgrown => exact .ok (Content.join_cons_child content _ n ▸ hgrown)

section

variable {rest : List (Content Element)}
  (ih : ∀ {draft : Draft} {content : List (Content Node)}, draft.Holds f e content →
    f.Agree e content (f.walk name draft rest) (f.buildContent name draft.before rest))
include ih

/-- Character data is refused, left out or added on both sides. -/
theorem walk_agree_text (s : String) (h : draft.Holds f e content) :
    f.Agree e content (f.walk name draft (.text s :: rest))
      (f.buildContent name draft.before (.text s :: rest)) := by
  rw [walk, buildContent]
  cases f.model.keeps s with
  | error defect => exact .error _
  | ok kept =>
    cases kept with
    | false =>
      have hrest := ih h
      rwa [← bind_pure (f.buildContent name draft.before rest)] at hrest
    | true => exact (draft.before_addText s ▸ ih (h.addText s)).text

/-- A child is out of place, refused, one too many or pushed on both sides. -/
theorem walk_agree_child (c : Element) (h : draft.Holds f e content) :
    f.Agree e content (f.walk name draft (.child c :: rest))
      (f.buildContent name draft.before (.child c :: rest)) := by
  rw [walk, buildContent]
  cases hplace : f.place draft.before c.name with
  | error defect => exact .error _
  | ok slot =>
    dsimp only
    cases hn : slot.form.build c with
    | error v => exact .error v
    | ok n =>
      have hslot : f.slot? c.name = some slot := (place_eq_ok_iff.mp hplace).1
      have hpush := h.push_slot hslot (kind_of_build hn)
      rw [Except.ok_bind, Except.ok_bind]
      -- `push_slot` says how either way of pushing ends.
      generalize (if slot.once then draft.pushOnce? n else some (draft.push n)) = pushed at *
      cases pushed with
      | none =>
        rw [if_pos hpush]
        exact .error _
      | some grown =>
        obtain ⟨hfresh, hgrown, hbefore⟩ := hpush
        rw [hfresh]
        exact (hbefore ▸ ih hgrown).child

end

/-- **A walk comes to what the pieces come to**, one put before the other. -/
theorem walk_agree (pieces : List (Content Element)) (h : draft.Holds f e content) :
    f.Agree e content (f.walk name draft pieces) (f.buildContent name draft.before pieces) := by
  induction pieces generalizing draft content with
  | nil =>
    rw [walk, buildContent]
    -- the draft is finished, and holds the content so far
    exact .ok ((Content.join_nil content).symm ▸ h)
  | cons piece rest ih =>
    cases piece with
    | text s => exact walk_agree_text ih s h
    | child c => exact walk_agree_child ih c h

/-! ### Elements -/

/-- A node is finished as it may be read off the content that a whole walk comes to. -/
theorem Agree.finish_eq (h : f.Agree e [] walked built) :
    (walked >>= f.finish e) = do
      let content ← built
      f.checkClosing e content
      return f.node e content := by
  cases h with
  | error v => rfl
  | ok hgrown => exact Form.finish_eq hgrown

/-- **Building an element** comes to this: its name and its attributes, then its content, then the
closing conditions, read off the content as its data is. -/
theorem build_eq (f : Form) (e : Element) :
    f.build e =
      match f.refuses? e.name with
      | some defect => .error { element := e.name, builder := f.refuser?, defect }
      | none => do
        f.checkAttributes e
        let content ← f.buildContent e.name [] e.content
        f.checkClosing e content
        return f.node e content := by
  obtain ⟨name, attributes, pieces⟩ := e
  rw [build]
  cases f.refuses? name with
  | some defect => rfl
  | none =>
    dsimp only
    rw [(walk_agree pieces (Draft.holds_start f ⟨name, attributes, pieces⟩)).finish_eq]

end Form

end DocGraph
