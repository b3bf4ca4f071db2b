import DocGraph.Proofs.Spelling

namespace DocGraph.Markup

/-!
# What reading makes of events

Events are read as a document exactly if they spell one, and otherwise with the error of their
fault.

* `HasRead` — the invariant: what has been read so far, from the stack and the root.  Each step
  keeps it (`HasRead.step`) or fails with a fault (`HasRead.faulty_of_step`), and so does a run;
* `Event.isBare`, `Balanced` — what holds of the events of any bytes (`bare_scan`,
  `balanced_scan`): a start brings no content, and each end has its start;
* `foldlM_carrying`, `foldlM_texts` — what carries nothing does nothing, and character data may be
  divided;
* `ReadsEvents`, `readsEvents` — the main statement.
-/

variable {e x : Element} {events events' before : List Event} {root : Option Element}
variable {f f' : Forest} {ev : Event}

/-! ### What has been read -/

/-- **The invariant** of reading: a document so far, and after it elements that are open. -/
def HasRead (f : Forest) (events : List Event) : Prop :=
  ∃ outside inside opens, events = outside ++ inside ∧ IsDocument f.root outside
    ∧ LeavesOpen opens inside ∧ f.frames = opens.map frameOf

theorem hasRead_nil : HasRead {} [] := ⟨[], [], [], rfl, isDocument_nil, .nil, rfl⟩

/-- A complete element has been read once it has been added. -/
theorem HasRead.addElement (h : HasRead f before) (hx : Spells [.child x] events)
    (hf : f.addElement x = .ok f') : HasRead f' (before ++ events) := by
  obtain ⟨outside, inside, opens, rfl, hroot, hopens, hframes⟩ := h
  unfold Forest.addElement at hf
  -- Outside all frames the element becomes the root; inside one it joins the innermost.
  cases opens with
  | nil =>
    cases hopens
    simp only [hframes, List.map_nil] at hf
    split at hf
    case h_1 => cases hf
    case h_2 hnone =>
      cases hf
      rw [hnone] at hroot
      exact ⟨outside ++ events, [], [], by simp, hroot.append_root hx, .nil, rfl⟩
  | cons innermost outer =>
    obtain ⟨e, pieces⟩ := innermost
    simp only [hframes, List.map_cons, addChild_frameOf] at hf
    cases hf
    exact ⟨outside, inside ++ events, (e, pieces ++ [.child x]) :: outer, by simp, hroot,
      hopens.append hx, rfl⟩

/-- A complete element that cannot be added is a second one. -/
theorem HasRead.faulty_of_addElement {error : Error} (h : HasRead f before)
    (hx : Spells [.child x] events) (hf : f.addElement x = .error error) (rest : List Event) :
    Faulty error (before ++ events ++ rest) := by
  obtain ⟨outside, inside, opens, rfl, hroot, hopens, hframes⟩ := h
  unfold Forest.addElement at hf
  cases opens with
  | nil =>
    cases hopens
    simp only [hframes, List.map_nil] at hf
    split at hf
    case h_1 hsome =>
      cases hf
      rw [hsome] at hroot
      rw [List.append_nil]
      exact .second hroot hx
    case h_2 => cases hf
  | cons innermost outer =>
    simp only [hframes, List.map_cons] at hf
    cases hf

/-- The innermost open element, once it ends: what has been read before it, and its events. -/
theorem HasRead.of_closed {innermost : Frame} {outer : List Frame}
    (h : HasRead ⟨innermost :: outer, root⟩ before) :
    ∃ outside events, before ++ [.closed] = outside ++ events ∧ HasRead ⟨outer, root⟩ outside
      ∧ Spells [.child innermost.complete] events := by
  obtain ⟨outside, inside, opens, rfl, hroot, hopens, hframes⟩ := h
  cases hopens with
  | nil => cases hframes
  | @opened opens inside events e pieces hopens hpieces =>
    obtain ⟨rfl, rfl⟩ := List.cons.inj hframes
    refine ⟨outside ++ inside, .opened e :: (events ++ [.closed]), by simp,
      ⟨outside, inside, opens, rfl, hroot, hopens, rfl⟩, ?_⟩
    rw [complete_frameOf]
    exact .nested hpieces .nil

/-- **Each step** keeps the invariant. -/
theorem HasRead.step (h : HasRead f before) (hev : ev.carries = true) (hf : f.step ev = .ok f') :
    HasRead f' (before ++ [ev]) := by
  -- Opening starts a frame with nothing spelled; closing hands what is complete to the outer one.
  cases ev with
  | opened e =>
    obtain ⟨outside, inside, opens, rfl, hroot, hopens, hframes⟩ := h
    cases hf
    refine ⟨outside, inside ++ [.opened e], (e, []) :: opens, by simp, hroot,
      .opened hopens .nil, ?_⟩
    simp only [hframes, List.map_cons]
    rfl
  | closed =>
    obtain ⟨frames, root⟩ := f
    cases frames with
    | nil => cases hf
    | cons innermost outer =>
      obtain ⟨outside, events, heq, hread, hevents⟩ := h.of_closed
      rw [heq]
      exact hread.addElement hevents hf
  | leaf e => exact h.addElement (.leaf .nil) hf
  | text s =>
    obtain ⟨outside, inside, opens, rfl, hroot, hopens, hframes⟩ := h
    unfold Forest.step Forest.addText at hf
    cases opens with
    | nil =>
      cases hopens
      simp only [hframes, List.map_nil] at hf
      split at hf
      case isTrue hs =>
        cases hf
        exact ⟨outside ++ [.text s], [], [], by simp, hroot.append_blank hs, .nil, hframes⟩
      case isFalse => cases hf
    | cons innermost outer =>
      obtain ⟨e, pieces⟩ := innermost
      simp only [hframes, List.map_cons, addText_frameOf] at hf
      cases hf
      exact ⟨outside, inside ++ [.text s], (e, pieces ++ [.text s]) :: outer, by simp, hroot,
        hopens.append (.text .nil), rfl⟩
  | skipped => cases hev

/-- A step that fails, but for an end without a start, has met a fault. -/
theorem HasRead.faulty_of_step {error : Error} (h : HasRead f before)
    (hf : f.step ev = .error error) (hclose : error ≠ .unbalancedClose) (rest : List Event) :
    Faulty error (before ++ ev :: rest) := by
  -- Only elements and character data at the top level can be refused.
  cases ev with
  | opened e => cases hf
  | closed =>
    obtain ⟨frames, root⟩ := f
    cases frames with
    | nil =>
      cases hf
      exact absurd rfl hclose
    | cons innermost outer =>
      obtain ⟨outside, events, heq, hread, hevents⟩ := h.of_closed
      have hfaulty := hread.faulty_of_addElement hevents hf rest
      rw [← heq] at hfaulty
      simpa using hfaulty
  | leaf e =>
    have hfaulty := h.faulty_of_addElement (.leaf .nil) hf rest
    simpa using hfaulty
  | text s =>
    obtain ⟨outside, inside, opens, rfl, hroot, hopens, hframes⟩ := h
    unfold Forest.step Forest.addText at hf
    cases opens with
    | nil =>
      cases hopens
      simp only [hframes, List.map_nil] at hf
      split at hf
      case isTrue => cases hf
      case isFalse hs =>
        cases hf
        rw [List.append_nil]
        exact .text hroot (Bool.eq_false_iff.mpr hs)
    | cons innermost outer =>
      simp only [hframes, List.map_cons] at hf
      cases hf
  | skipped => cases hf

/-- **A run** keeps the invariant. -/
theorem HasRead.run (h : HasRead f before) (hev : ∀ ev ∈ events, ev.carries = true)
    (hf : events.foldlM Forest.step f = .ok f') : HasRead f' (before ++ events) := by
  induction events generalizing f before with
  | nil =>
    cases hf
    rwa [List.append_nil]
  | cons ev events ih =>
    rw [List.foldlM_cons] at hf
    cases hstep : f.step ev with
    | error e =>
      rw [hstep] at hf
      cases hf
    | ok g =>
      rw [hstep] at hf
      have hg := h.step (hev ev List.mem_cons_self) hstep
      -- what has been read so far grows by `ev`
      have hrun := ih hg (fun ev hmem => hev ev (List.mem_cons_of_mem _ hmem)) hf
      simpa using hrun

/-- A run that fails, but for an end without a start, has met a fault. -/
theorem HasRead.faulty_of_run {error : Error} (h : HasRead f before)
    (hev : ∀ ev ∈ events, ev.carries = true) (hf : events.foldlM Forest.step f = .error error)
    (hclose : error ≠ .unbalancedClose) : Faulty error (before ++ events) := by
  induction events generalizing f before with
  | nil => cases hf
  | cons ev events ih =>
    rw [List.foldlM_cons] at hf
    cases hstep : f.step ev with
    | error e =>
      rw [hstep] at hf
      cases hf
      exact h.faulty_of_step hstep hclose events
    | ok g =>
      rw [hstep] at hf
      have hg := h.step (hev ev List.mem_cons_self) hstep
      have hrun := ih hg (fun ev hmem => hev ev (List.mem_cons_of_mem _ hmem)) hf
      simpa using hrun

/-- At the end, what has been read is a document, or it is faulty. -/
theorem HasRead.finish (h : HasRead f events) :
    (∃ e, f.finish = .ok e ∧ IsDocument (some e) events)
      ∨ ∃ error, f.finish = .error error ∧ Faulty error events := by
  obtain ⟨outside, inside, opens, rfl, hroot, hopens, hframes⟩ := h
  obtain ⟨frames, root⟩ := f
  -- No frame is open and the root is there or not; or the innermost frame is not closed.
  cases opens with
  | nil =>
    cases hopens
    obtain rfl : frames = [] := hframes
    rw [List.append_nil]
    cases root with
    | some e => exact .inl ⟨e, rfl, hroot⟩
    | none => exact .inr ⟨.noRoot, rfl, .noRoot hroot⟩
  | cons innermost outer =>
    obtain ⟨e, pieces⟩ := innermost
    obtain rfl : frames = frameOf (e, pieces) :: outer.map frameOf := hframes
    exact .inr ⟨.unclosedElement e.name, rfl, .unclosed hroot hopens⟩

/-! ### Events that carry nothing -/

theorem carries_of_mem_carrying (h : ev ∈ carrying events) : ev.carries = true :=
  (List.mem_filter.mp h).2

/-- Events that carry nothing do nothing. -/
theorem foldlM_carrying (events : List Event) (f : Forest) :
    (carrying events).foldlM Forest.step f = events.foldlM Forest.step f := by
  induction events generalizing f with
  | nil => rfl
  | cons ev events ih =>
    unfold carrying at ih ⊢
    cases hev : ev.carries with
    | true =>
      rw [List.filter_cons_of_pos hev, List.foldlM_cons, List.foldlM_cons]
      exact congrArg _ (funext fun g => ih g)
    -- only a skipped event carries nothing, and its step changes nothing
    | false =>
      cases ev <;> cases hev
      rw [List.filter_cons_of_neg (by decide), List.foldlM_cons, ih]
      rfl

/-- **Events that carry nothing** change nothing in the tree. -/
theorem treeOf_carrying (events : List Event) : treeOf (carrying events) = treeOf events := by
  unfold treeOf
  rw [foldlM_carrying]

/-! ### What holds of the events of bytes -/

/-- Whether the start of an element, if it is one, brings no content. -/
def Event.isBare : Event → Bool
  | .opened e => e.content.isEmpty
  | .leaf e => e.content.isEmpty
  | _ => true

/-- Each end has its start, with so many elements open before. -/
def Balanced : Nat → List Event → Prop
  | _, [] => True
  | depth, .opened _ :: rest => Balanced (depth + 1) rest
  | 0, .closed :: _ => False
  | depth + 1, .closed :: rest => Balanced depth rest
  | depth, .leaf _ :: rest => Balanced depth rest
  | depth, .text _ :: rest => Balanced depth rest
  | depth, .skipped :: rest => Balanced depth rest

/-- An end tag that is accepted ends an element, and there is one to end. -/
theorem ofEndTag_eq_ok {opened : List String} {name : List UInt8}
    (h : Event.ofEndTag opened name = .ok ev) : ev = .closed ∧ opened ≠ [] := by
  unfold Event.ofEndTag at h
  dsimp only at h
  split at h
  case h_1 => cases h
  case h_2 =>
    split at h <;> cases h
    exact ⟨rfl, List.cons_ne_nil _ _⟩

/-- A start tag brings no content. -/
theorem readStartTag_content {tag : List UInt8} (h : readStartTag tag = .ok e) :
    e.content = [] := by
  obtain ⟨name, -, h⟩ := Except.bind_eq_ok_iff.mp h
  obtain ⟨attributes, -, h⟩ := Except.bind_eq_ok_iff.mp h
  cases h
  rfl

/-- The event of a lexeme brings no content, and if it is an end there is an element to end. -/
theorem ofLexeme_eq_ok {opened : List String} {l : Lexeme}
    (h : Event.ofLexeme opened l = .ok ev) :
    ev.isBare = true ∧ (ev = .closed → opened ≠ []) := by
  -- Tags come without content, and an end tag needs an open element of its name.
  cases l with
  | text bytes =>
    obtain ⟨s, -, rfl⟩ := Except.map_eq_ok_iff.mp h
    exact ⟨rfl, nofun⟩
  | cdata bytes =>
    obtain ⟨s, -, rfl⟩ := Except.map_eq_ok_iff.mp h
    exact ⟨rfl, nofun⟩
  | startTag tag ends =>
    obtain ⟨e, he, rfl⟩ := Except.map_eq_ok_iff.mp h
    have hcontent := readStartTag_content he
    cases ends with
    | true => exact ⟨List.isEmpty_iff.mpr hcontent, nofun⟩
    | false => exact ⟨List.isEmpty_iff.mpr hcontent, nofun⟩
  | endTag name =>
    obtain ⟨rfl, hopened⟩ := ofEndTag_eq_ok (Except.mapError_eq_ok_iff.mp h)
    exact ⟨rfl, fun _ => hopened⟩
  | aside =>
    cases h
    exact ⟨rfl, nofun⟩

/-- What is kept when an event is put in front of events holds of the events of any bytes. -/
theorem scanFrom_induction {P : List String → List Event → Prop} (nil : ∀ opened, P opened [])
    (cons : ∀ opened l ev rest, Event.ofLexeme opened l = .ok ev → P (ev.opens opened) rest →
      P opened (ev :: rest))
    (opened : List String) (bytes : List UInt8) : P opened (scanFrom opened bytes).events := by
  induction opened, bytes using scanFrom.induct with
  -- The scanner stops without an event at an error and at the end of the bytes.
  | case1 opened bytes error hnext =>
    rw [scanFrom]
    split <;> simp_all
  | case2 opened bytes hnext =>
    rw [scanFrom]
    split <;> simp_all
  | case3 opened bytes l rest hnext error hev =>
    rw [scanFrom]
    split <;> simp_all
  | case4 opened bytes l rest hnext ev hev ih =>
    rw [scanFrom]
    split <;> simp_all
    exact cons opened l ev _ hev ih

/-- Starts in the events of bytes bring no content. -/
theorem bare_scan (bytes : List UInt8) : ∀ ev ∈ (scan bytes).events, ev.isBare = true := by
  refine scanFrom_induction (P := fun _ events => ∀ ev ∈ events, ev.isBare = true) nofun ?_ _ _
  intro opened l ev rest hev hrest
  exact List.forall_mem_cons.mpr ⟨(ofLexeme_eq_ok hev).1, hrest⟩

/-- Ends in the events of bytes have their starts. -/
theorem balanced_scan (bytes : List UInt8) : Balanced 0 (scan bytes).events := by
  refine scanFrom_induction (P := fun opened events => Balanced opened.length events)
    (fun opened => by simp [Balanced]) ?_ [] _
  intro opened l ev rest hev hrest
  -- the tags that are open are counted on both sides
  cases ev with
  | closed =>
    cases opened with
    | nil => exact absurd rfl ((ofLexeme_eq_ok hev).2 rfl)
    | cons name opened => exact hrest
  | opened e => exact hrest
  | leaf | text | skipped => cases opened <;> exact hrest

/-- Without a fault, bytes are read as their events are. -/
theorem parse_eq_treeOf {bytes : List UInt8} (h : (scan bytes).fault = none) :
    parse bytes = treeOf (scan bytes).events := by
  unfold parse treeOf
  dsimp only
  rw [h]

/-- Adding an element opens and ends none, and is no end without a start. -/
theorem addElement_balanced (f : Forest) (x : Element) :
    (∀ f', f.addElement x = .ok f' → f'.frames.length = f.frames.length)
      ∧ f.addElement x ≠ .error .unbalancedClose := by
  obtain ⟨frames, root⟩ := f
  cases frames with
  | nil => cases root <;> simp [Forest.addElement]
  | cons innermost outer => simp [Forest.addElement]

/-- Nor does adding character data. -/
theorem addText_balanced (f : Forest) (s : String) :
    (∀ f', f.addText s = .ok f' → f'.frames.length = f.frames.length)
      ∧ f.addText s ≠ .error .unbalancedClose := by
  obtain ⟨frames, root⟩ := f
  cases frames with
  | nil => by_cases hs : isBlankText s = true <;> simp [Forest.addText, hs]
  | cons innermost outer => simp [Forest.addText]

/-- A step of balanced events leaves balanced events, and is no end without a start. -/
theorem Balanced.step (h : Balanced f.frames.length (ev :: events)) :
    (∀ f', f.step ev = .ok f' → Balanced f'.frames.length events)
      ∧ f.step ev ≠ .error .unbalancedClose := by
  -- Opening and closing move the depth by one, and all else leaves it.
  cases ev with
  | opened e =>
    refine ⟨fun f' hf => ?_, nofun⟩
    cases hf
    exact h
  | closed =>
    obtain ⟨frames, root⟩ := f
    cases frames with
    | nil => exact h.elim
    | cons innermost outer =>
      obtain ⟨hlength, hne⟩ := addElement_balanced ⟨outer, root⟩ innermost.complete
      refine ⟨fun f' hf => ?_, hne⟩
      rw [hlength f' hf]
      exact h
  | leaf e =>
    obtain ⟨hlength, hne⟩ := addElement_balanced f e
    refine ⟨fun f' hf => ?_, hne⟩
    rw [hlength f' hf]
    revert h
    cases f.frames.length <;> exact id
  | text s =>
    obtain ⟨hlength, hne⟩ := addText_balanced f s
    refine ⟨fun f' hf => ?_, hne⟩
    rw [hlength f' hf]
    revert h
    cases f.frames.length <;> exact id
  | skipped =>
    refine ⟨fun f' hf => ?_, nofun⟩
    cases hf
    revert h
    cases f.frames.length <;> exact id

/-- **Balanced events** never end an element that has not begun. -/
theorem Balanced.foldlM_ne (h : Balanced f.frames.length events) :
    events.foldlM Forest.step f ≠ .error .unbalancedClose := by
  induction events generalizing f with
  | nil => nofun
  | cons ev events ih =>
    obtain ⟨hrest, hne⟩ := h.step
    rw [List.foldlM_cons]
    cases hstep : f.step ev with
    | error error =>
      show Except.error error ≠ Except.error Error.unbalancedClose
      rw [← hstep]
      exact hne
    | ok g => exact ih (hrest g hstep)

/-- Nothing is closed that has not been opened. -/
theorem Balanced.treeOf_ne (h : Balanced 0 events) : treeOf events ≠ .error .unbalancedClose := by
  have hrun : events.foldlM Forest.step {} ≠ .error .unbalancedClose :=
    Balanced.foldlM_ne (f := {}) h
  unfold treeOf
  cases hf : events.foldlM Forest.step {} with
  | error error =>
    rw [hf] at hrun
    show Except.error error ≠ Except.error Error.unbalancedClose
    exact fun heq => hrun (congrArg Except.error (Except.error.inj heq))
  | ok f =>
    show f.finish ≠ .error .unbalancedClose
    unfold Forest.finish
    split <;> nofun

/-! ### Divided character data -/

/-- Character data may be added piece by piece or all at once. -/
theorem Frame.addText_addText (f : Frame) (s t : String) :
    (f.addText s).addText t = f.addText (s ++ t) := by
  obtain ⟨element, content⟩ := f
  match content with
  | [] => rfl
  | .text u :: rest => simp [Frame.addText, String.append_assoc]
  | .child x :: rest => rfl

/-- Character data that is divided is added as one. -/
theorem foldlM_texts_inside (s : String) (texts : List String) (innermost : Frame)
    (outer : List Frame) (root : Option Element) :
    ((s :: texts).map Event.text).foldlM Forest.step ⟨innermost :: outer, root⟩
      = .ok ⟨innermost.addText (String.join (s :: texts)) :: outer, root⟩ := by
  induction texts generalizing s innermost with
  | nil =>
    rw [String.join_cons, String.join_nil, String.append_empty]
    rfl
  | cons t texts ih =>
    rw [List.map_cons, List.foldlM_cons]
    show ((t :: texts).map Event.text).foldlM Forest.step ⟨innermost.addText s :: outer, root⟩ = _
    rw [ih, Frame.addText_addText, String.join_cons, String.join_cons, String.join_cons]

/-- Two texts are blank together if both are. -/
theorem isBlankText_append (s t : String) :
    isBlankText (s ++ t) = (isBlankText s && isBlankText t) := by
  simp [isBlankText]

/-- Outside all elements, divided character data is blank if all of it is. -/
theorem foldlM_texts_outside (texts : List String) (root : Option Element) (f' : Forest) :
    (texts.map Event.text).foldlM Forest.step ⟨[], root⟩ = .ok f'
      ↔ isBlankText (String.join texts) = true ∧ f' = ⟨[], root⟩ := by
  induction texts with
  | nil => simp [isBlankText, pure, Except.pure, eq_comm]
  | cons s texts ih =>
    rw [List.map_cons, List.foldlM_cons, String.join_cons, isBlankText_append]
    -- Blank text is passed over, and the first that is not blank ends the run.
    cases hs : isBlankText s with
    | true =>
      have hstep : Forest.step ⟨[], root⟩ (.text s) = .ok ⟨[], root⟩ := by
        simp [Forest.step, Forest.addText, hs]
      rw [hstep]
      exact ih
    | false =>
      have hstep : Forest.step ⟨[], root⟩ (.text s) = .error (.textOutsideRoot (trimmed s)) := by
        simp [Forest.step, Forest.addText, hs]
      rw [hstep]
      simp [bind, Except.bind]

/-- **How character data is divided** makes no difference to what is read. -/
theorem foldlM_texts {texts texts' : List String} (hjoin : String.join texts = String.join texts')
    (hne : texts ≠ []) (hne' : texts' ≠ [])
    (hf : (texts.map Event.text).foldlM Forest.step f = .ok f') :
    (texts'.map Event.text).foldlM Forest.step f = .ok f' := by
  obtain ⟨frames, root⟩ := f
  cases frames with
  | nil =>
    rw [foldlM_texts_outside] at hf ⊢
    rwa [← hjoin]
  | cons innermost outer =>
    obtain ⟨s, texts, rfl⟩ := List.exists_cons_of_ne_nil hne
    obtain ⟨s', texts', rfl⟩ := List.exists_cons_of_ne_nil hne'
    rw [foldlM_texts_inside] at hf ⊢
    rwa [← hjoin]

/-! ### Trees without divided character data -/

/-- Character data that is put before a content leaves no two pieces side by side. -/
theorem isMergedContent_consText (s : String) (l : List (Content Element)) :
    Element.isMergedContent (Content.consText s l) = Element.isMergedContent l := by
  match l with
  | [] => simp [Content.consText, Element.isMergedContent, Content.beginsWithText]
  | .text t :: rest => simp [Content.consText, Element.isMergedContent]
  | .child x :: rest => simp [Content.consText, Element.isMergedContent, Content.beginsWithText]

/-- Joined character data is not divided, so only elements within may hold divided data. -/
theorem isMergedContent_merge (pieces : List (Content Element)) :
    Element.isMergedContent (Content.merge pieces) = true
      ↔ ∀ x ∈ Content.children pieces, x.isMerged = true := by
  induction pieces with
  | nil => simp [Content.merge, Content.children, Element.isMergedContent]
  | cons c pieces ih =>
    cases c with
    | text s =>
      rw [Content.merge, isMergedContent_consText, Content.children_cons_text]
      exact ih
    | child x =>
      rw [Content.merge, Element.isMergedContent, Bool.and_eq_true, Content.children_cons_child,
        List.forall_mem_cons, ih]

/-- Elements that events spell have no divided character data, if their starts bring no content. -/
theorem Spells.isMerged {pieces : List (Content Element)} (h : Spells pieces events)
    (hbare : ∀ ev ∈ events, ev.isBare = true) :
    ∀ x ∈ Content.children pieces, x.isMerged = true := by
  -- An element read from a leaf has no content, and one read from tags has its content merged.
  induction h with
  | nil => exact nofun
  | text _ ih => exact ih fun ev hmem => hbare ev (List.mem_cons_of_mem _ hmem)
  | @leaf x pieces events _ ih =>
    have hx : x.content.isEmpty = true := hbare (.leaf x) List.mem_cons_self
    rw [Content.children_cons_child, List.forall_mem_cons]
    refine ⟨?_, ih fun ev hmem => hbare ev (List.mem_cons_of_mem _ hmem)⟩
    obtain ⟨name, attributes, content⟩ := x
    obtain rfl : content = [] := List.isEmpty_iff.mp hx
    rw [Element.isMerged, Element.isMergedContent]
  | @nested x inner pieces events rest _ _ ihinner ih =>
    rw [Content.children_cons_child, List.forall_mem_cons]
    refine ⟨?_, ih fun ev hmem => hbare ev (by simp [hmem])⟩
    rw [Element.isMerged]
    exact (isMergedContent_merge inner).mpr (ihinner fun ev hmem => hbare ev (by simp [hmem]))

/-! ### What is read -/

/-- **The laws of reading.** -/
structure ReadsEvents (events : List Event) : Prop where
  /-- The root of a document is read, and nothing else is. -/
  ok_iff : ∀ e, treeOf events = .ok e ↔ IsDocument (some e) (carrying events)
  /-- What is read has no character data next to other character data. -/
  isMerged : ∀ e, treeOf events = .ok e → e.isMerged = true
  /-- The error is the fault. -/
  error_iff : ∀ error, treeOf events = .error error ↔ Faulty error (carrying events)
  /-- No end is without a start. -/
  ne_unbalancedClose : treeOf events ≠ .error .unbalancedClose
  /-- What carries nothing does nothing, wherever it stands. -/
  skips : ∀ events', carrying events' = carrying events → treeOf events' = treeOf events
  /-- Character data may be divided in any way, also by what carries nothing. -/
  divides : ∀ before run run' after : List Event, ∀ texts texts' : List String,
    events = before ++ run ++ after → carrying run = texts.map .text →
    carrying run' = texts'.map .text → texts ≠ [] → texts' ≠ [] →
    String.join texts = String.join texts' →
    ∀ e, treeOf events = .ok e → treeOf (before ++ run' ++ after) = .ok e

/-- Reading the events of a document, and only these, succeeds. -/
theorem treeOf_eq_ok_iff : treeOf events = .ok e ↔ IsDocument (some e) (carrying events) := by
  rw [← treeOf_carrying]
  apply Iff.intro
  · intro h
    obtain ⟨f, hrun, hfinish⟩ := Except.bind_eq_ok_iff.mp h
    have hread : HasRead f (carrying events) :=
      hasRead_nil.run (fun ev hmem => carries_of_mem_carrying hmem) hrun
    rcases hread.finish with ⟨e', he', hdoc⟩ | ⟨error, herror, -⟩
    · obtain rfl : e' = e := Except.ok.inj (he'.symm.trans hfinish)
      exact hdoc
    · cases herror.symm.trans hfinish
  · intro h
    unfold treeOf
    rw [h.foldlM]
    rfl

/-- Reading any other events, each end of which has its start, fails with their fault. -/
theorem treeOf_eq_error_iff {error : Error} (hclose : treeOf events ≠ .error .unbalancedClose) :
    treeOf events = .error error ↔ Faulty error (carrying events) := by
  rw [← treeOf_carrying] at hclose ⊢
  refine ⟨fun h => ?_, Faulty.treeOf⟩
  have hmem : ∀ ev ∈ carrying events, ev.carries = true :=
    fun ev hmem => carries_of_mem_carrying hmem
  have hne : error ≠ .unbalancedClose := by
    rintro rfl
    exact hclose h
  unfold treeOf at h
  -- The fault is met on the way or found at the end.
  cases hrun : (carrying events).foldlM Forest.step {} with
  | error error' =>
    rw [hrun] at h
    cases h
    exact hasRead_nil.faulty_of_run hmem hrun hne
  | ok f =>
    rw [hrun] at h
    rcases (hasRead_nil.run hmem hrun).finish with ⟨e, he, -⟩ | ⟨error', herror, hfaulty⟩
    · cases he.symm.trans h
    · obtain rfl : error' = error := Except.error.inj (herror.symm.trans h)
      exact hfaulty

/-- Dividing character data in another way does not change what is read. -/
theorem treeOf_divided {before run run' after : List Event} {texts texts' : List String}
    (hrun : carrying run = texts.map .text) (hrun' : carrying run' = texts'.map .text)
    (hne : texts ≠ []) (hne' : texts' ≠ []) (hjoin : String.join texts = String.join texts')
    (he : treeOf (before ++ run ++ after) = .ok e) :
    treeOf (before ++ run' ++ after) = .ok e := by
  obtain ⟨f, hread, hfinish⟩ := Except.bind_eq_ok_iff.mp he
  rw [List.foldlM_append] at hread
  obtain ⟨g, hread, hafter⟩ := Except.bind_eq_ok_iff.mp hread
  rw [List.foldlM_append] at hread
  obtain ⟨h, hbefore, hread⟩ := Except.bind_eq_ok_iff.mp hread
  -- Before and after the run nothing differs; on the run only the joined text counts.
  rw [← foldlM_carrying, hrun] at hread
  have hread' := foldlM_texts hjoin hne hne' hread
  rw [← hrun', foldlM_carrying] at hread'
  unfold treeOf
  rw [List.foldlM_append, List.foldlM_append, hbefore]
  show (run'.foldlM Forest.step h >>= fun g => after.foldlM Forest.step g) >>= Forest.finish = _
  rw [hread']
  show after.foldlM Forest.step g >>= Forest.finish = _
  rw [hafter]
  exact hfinish

/-- **What reading makes of events.**  Without a fault in their bytes, a document is read as its
events are; these bring no content with their starts, and their ends have starts.  Of such events,
those of a document are read as its root, and all others fail with what is wrong with them. -/
theorem readsEvents :
    (∀ bytes, (scan bytes).fault = none →
      parse bytes = treeOf (scan bytes).events
        ∧ (∀ ev ∈ (scan bytes).events, ev.isBare = true) ∧ Balanced 0 (scan bytes).events)
      ∧ ∀ events : List Event, (∀ ev ∈ events, ev.isBare = true) → Balanced 0 events →
        ReadsEvents events := by
  refine ⟨fun bytes hbytes => ⟨parse_eq_treeOf hbytes, bare_scan bytes, balanced_scan bytes⟩,
    fun events hbare hbalanced => ?_⟩
  have hclose : treeOf events ≠ .error .unbalancedClose := hbalanced.treeOf_ne
  constructor
  case ok_iff => exact fun e => treeOf_eq_ok_iff
  case isMerged =>
    intro e he
    obtain ⟨pieces, hpieces, hroot, -⟩ := treeOf_eq_ok_iff.mp he
    refine hpieces.isMerged (fun ev hmem => hbare ev (List.mem_filter.mp hmem).1) e ?_
    rw [hroot]
    exact List.mem_singleton.mpr rfl
  case error_iff => exact fun error => treeOf_eq_error_iff hclose
  case ne_unbalancedClose => exact hclose
  case skips =>
    intro events' hsame
    rw [← treeOf_carrying events', hsame, treeOf_carrying]
  case divides =>
    intro before run run' after texts texts' heq hrun hrun' hne hne' hjoin e he
    rw [heq] at he
    exact treeOf_divided hrun hrun' hne hne' hjoin he

/-- An element with a comment in its character data. -/
def commented : List UInt8 := Utf8.encode "<para>one <!-- and -->two</para>"

/-- The events of that element, with blanks around it. -/
def commentedEvents : List Event :=
  [.text "\n", .opened { name := "para" }, .text "one ", .skipped, .text "two", .closed, .skipped]

theorem readsEvents_commented :
    (scan commented).fault = none ∧ parse commented = treeOf (scan commented).events
      ∧ (∀ ev ∈ commentedEvents, ev.isBare = true) ∧ Balanced 0 commentedEvents
      ∧ treeOf commentedEvents = .ok ⟨"para", [], [.text "one two"]⟩
      ∧ treeOf [.text "\n", .opened { name := "para" }, .text "one two", .closed, .skipped]
        = .ok ⟨"para", [], [.text "one two"]⟩ := by
  have hfault : (scan commented).fault.isNone = true := by decide +kernel
  have hfault := Option.isNone_iff_eq_none.mp hfault
  have hbare : ∀ ev ∈ commentedEvents, ev.isBare = true := by decide
  have hbalanced : Balanced 0 commentedEvents := trivial
  have hreads := readsEvents.2 commentedEvents hbare hbalanced
  have hread : treeOf commentedEvents = .ok ⟨"para", [], [.text "one two"]⟩ := rfl
  refine ⟨hfault, (readsEvents.1 commented hfault).1, hbare, hbalanced, hread, ?_⟩
  exact hreads.divides [.text "\n", .opened { name := "para" }]
    [.text "one ", .skipped, .text "two"] [.text "one two"] [.closed, .skipped]
    ["one ", "two"] ["one two"] rfl rfl rfl nofun nofun (by decide) _ hread

end DocGraph.Markup
