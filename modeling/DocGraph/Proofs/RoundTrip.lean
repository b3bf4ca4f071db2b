import DocGraph.Proofs.Reading
import DocGraph.Proofs.Writing

namespace DocGraph

/-!
# Reading undoes writing

The bytes of a written element fall into the lexemes that it was written with, each lexeme is read
as an event, and the events spell the element.

* `Markup.runUntil_append` — where a run of bytes ends;
* `Markup.next_text`, `Markup.next_startTag`, `Markup.next_endTag` — the lexemes of written text;
* `Element.events` — the events of an element, which spell it (`Markup.spells_events`);
* `Markup.scanFrom_written` — they are those of its bytes, by induction over the element;
* `Markup.parse_written` — the main statement.
-/

namespace Markup

/-! ### Lexemes of written text -/

/-- A run goes on over bytes at none of which it stops. -/
theorem runUntil_append {σ : Type} {step : σ → UInt8 → Option σ} {memory memory' : σ}
    {run : List UInt8} (hrun : run.foldlM step memory = some memory') (rest : List UInt8) :
    runUntil step memory (run ++ rest)
      = (runUntil step memory' rest).map fun found => (run ++ found.1, found.2) := by
  induction run generalizing memory with
  | nil =>
    obtain rfl : memory = memory' := Option.some.inj hrun
    show runUntil step memory rest = _
    cases runUntil step memory rest <;> rfl
  | cons b run ih =>
    rw [List.foldlM_cons] at hrun
    obtain ⟨next, hstep, hrun⟩ := Option.bind_eq_some_iff.mp hrun
    rw [List.cons_append, runUntil, hstep]
    dsimp only
    rw [ih hrun]
    cases runUntil step memory' rest <;> rfl

/-- A tag ends at the first `>` outside quotes. -/
theorem runUntil_tagEnd {tag : List UInt8} (htag : tag.foldlM tagEnd none = some none)
    (rest : List UInt8) : runUntil tagEnd none (tag ++ 0x3e :: rest) = some (tag, rest) := by
  have hend : runUntil tagEnd none (0x3e :: rest) = some ([], rest) := rfl
  rw [runUntil_append htag, hend, Option.map_some, List.append_nil]

/-- A tag goes on over plain bytes. -/
theorem tagEnd_plain {b : UInt8} (hb : IsPlainByte b) : tagEnd none b = some none := by
  have hend := hb.beq_eq_false 0x3e (by decide)
  have hdouble := hb.beq_eq_false 0x22 (by decide)
  have hsingle := hb.beq_eq_false 0x27 (by decide)
  simp [tagEnd, hend, hdouble, hsingle]

/-- In plain bytes no tag ends and no quote begins. -/
theorem foldlM_tagEnd_plain {bytes : List UInt8} (h : ∀ b ∈ bytes, IsPlainByte b) :
    bytes.foldlM tagEnd none = some none := by
  induction bytes with
  | nil => rfl
  | cons b bytes ih =>
    obtain ⟨hb, hbytes⟩ := List.forall_mem_cons.mp h
    rw [List.foldlM_cons, tagEnd_plain hb]
    exact ih hbytes

/-- A tag goes on within quotes. -/
theorem foldlM_tagEnd_quoted {bytes : List UInt8} (h : ∀ b ∈ bytes, b ≠ 0x22) :
    bytes.foldlM tagEnd (some 0x22) = some (some 0x22) := by
  induction bytes with
  | nil => rfl
  | cons b bytes ih =>
    obtain ⟨hb, hbytes⟩ := List.forall_mem_cons.mp h
    have hstep : tagEnd (some 0x22) b = some (some 0x22) := if_neg (by simpa using hb)
    rw [List.foldlM_cons, hstep]
    exact ih hbytes

/-- Nor does a tag end in an attribute, whose value is quoted. -/
theorem foldlM_tagEnd_attribute {a : Attribute} (ha : isPlainName a.name = true) :
    (Utf8.encode a.written).foldlM tagEnd none = some none := by
  have hblank : tagEnd none 0x20 = some none := rfl
  have hequals : tagEnd none 0x3d = some none := rfl
  have hopened : tagEnd none 0x22 = some (some 0x22) := rfl
  have hclosed : tagEnd (some 0x22) 0x22 = some none := rfl
  have hvalue := foldlM_tagEnd_quoted fun b hb => (not_mem_encode_escaped (s := a.value) hb).2
  simp only [encode_attribute, List.foldlM_cons, List.foldlM_append, List.foldlM_nil, hblank,
    hequals, hopened, hclosed, hvalue, foldlM_tagEnd_plain (plain_of_isPlainName ha),
    Option.bind_eq_bind, Option.bind_some, Option.pure_def]

/-- **A start tag does not end** before its last byte. -/
theorem foldlM_tagEnd_startTag {name : String} {attributes : List Attribute}
    (hname : isPlainName name = true)
    (hattributes : ∀ a ∈ attributes, isPlainName a.name = true) :
    (Utf8.encode (name ++ String.join (attributes.map Attribute.written))).foldlM tagEnd none
      = some none := by
  rw [Utf8.encode_append, List.foldlM_append, foldlM_tagEnd_plain (plain_of_isPlainName hname),
    Option.bind_eq_bind, Option.bind_some]
  clear hname
  induction attributes with
  | nil => rfl
  | cons a attributes ih =>
    obtain ⟨ha, hothers⟩ := List.forall_mem_cons.mp hattributes
    rw [List.map_cons, String.join_cons, Utf8.encode_append, List.foldlM_append,
      foldlM_tagEnd_attribute ha]
    exact ih hothers

/-- Written attributes end with a quote, if there are any. -/
theorem getLast?_attributes (attributes : List Attribute) :
    (Utf8.encode (String.join (attributes.map Attribute.written))).getLast? = none
      ∨ (Utf8.encode (String.join (attributes.map Attribute.written))).getLast? = some 0x22 := by
  induction attributes with
  | nil => exact .inl rfl
  | cons a attributes ih =>
    have hlast : (Utf8.encode a.written).getLast? = some 0x22 := by
      rw [encode_attribute]
      simp [List.getLast?_cons, List.getLast?_append]
    right
    rw [List.map_cons, String.join_cons, Utf8.encode_append, List.getLast?_append, hlast]
    rcases ih with h | h <;> rw [h] <;> rfl

/-- The last byte of a written start tag is plain or a quote, so it does not end its element. -/
theorem getLast?_startTag {name : String} (hname : isPlainName name = true)
    (attributes : List Attribute) :
    (Utf8.encode (name ++ String.join (attributes.map Attribute.written))).getLast?
      ≠ some 0x2f := by
  rw [Utf8.encode_append, List.getLast?_append]
  rcases getLast?_attributes attributes with h | h
  · rw [h, Option.none_or]
    intro hlast
    exact absurd (plain_of_isPlainName hname 0x2f (List.mem_of_getLast? hlast)) (by decide)
  · rw [h, Option.some_or]
    decide

/-- Character data ends where markup begins. -/
theorem next_text {run : List UInt8} (hne : run ≠ []) (hrun : ∀ b ∈ run, b ≠ 0x3c)
    (rest : List UInt8) :
    Lexeme.next (run ++ 0x3c :: rest) = .ok (some (.text run, 0x3c :: rest)) := by
  obtain ⟨first, tail, rfl⟩ := List.exists_cons_of_ne_nil hne
  obtain ⟨hfirst, htail⟩ := List.forall_mem_cons.mp hrun
  have hinside : ∀ b ∈ tail, (b != 0x3c) = true := fun b hb => bne_iff_ne.mpr (htail b hb)
  have hmarkup : ¬ (first == 0x3c) = true := by simpa using hfirst
  rw [List.cons_append, Lexeme.next, if_neg hmarkup, List.takeWhile_append_of_pos hinside,
    List.dropWhile_append_of_pos hinside, List.takeWhile_cons_of_neg (by decide),
    List.dropWhile_cons_of_neg (by decide), List.append_nil]

/-- A written start tag begins an element, which does not end with it. -/
theorem next_startTag {name : String} {attributes : List Attribute}
    (hname : isPlainName name = true)
    (hattributes : ∀ a ∈ attributes, isPlainName a.name = true) (rest : List UInt8) :
    Lexeme.next (0x3c
        :: (Utf8.encode (name ++ String.join (attributes.map Attribute.written)) ++ 0x3e :: rest))
      = .ok (some (.startTag
          (Utf8.encode (name ++ String.join (attributes.map Attribute.written))) false, rest)) := by
  have hrun := runUntil_tagEnd (foldlM_tagEnd_startTag hname hattributes) rest
  have hlast := getLast?_startTag hname attributes
  obtain ⟨first, tail, hbytes, hplain⟩ := encode_of_isPlainName hname
  obtain ⟨hfirst, -⟩ := List.forall_mem_cons.mp hplain
  -- The first byte decides what the markup is.
  have hbegins : ∃ more,
      Utf8.encode (name ++ String.join (attributes.map Attribute.written)) = first :: more := by
    rw [Utf8.encode_append, hbytes]
    exact ⟨_, rfl⟩
  obtain ⟨more, hmore⟩ := hbegins
  rw [hmore] at hrun hlast ⊢
  have hmarkup : Lexeme.markup (first :: (more ++ 0x3e :: rest))
      = .ok (.startTag (first :: more) false, rest) := by
    unfold Lexeme.markup
    split
    case h_1 heq => cases heq
    case h_2 heq => exact absurd ((List.cons.inj heq).1 ▸ hfirst) (by decide)
    case h_3 heq => exact absurd ((List.cons.inj heq).1 ▸ hfirst) (by decide)
    case h_4 heq => exact absurd ((List.cons.inj heq).1 ▸ hfirst) (by decide)
    case h_5 =>
      rw [← List.cons_append, hrun]
      exact if_neg hlast
  show (Lexeme.markup (first :: (more ++ 0x3e :: rest))).map some = _
  rw [hmarkup]
  rfl

/-- A plain name has no blanks at its end. -/
theorem trimEnd_plain {name : List UInt8} (h : ∀ b ∈ name, IsPlainByte b) :
    trimEnd name = name := by
  unfold trimEnd
  split
  case isTrue => rfl
  case isFalse =>
    have hdrop : name.reverse.dropWhile isSpace = name.reverse := by
      cases hreverse : name.reverse with
      | nil => rfl
      | cons b rest =>
        have hb : IsPlainByte b := h b (List.mem_reverse.mp (hreverse ▸ List.mem_cons_self))
        exact List.dropWhile_cons_of_neg (by simp [(isSpace_of_isPlainByte hb).1])
    rw [hdrop, List.reverse_reverse]

/-- A written end tag is an end tag. -/
theorem next_endTag {name : String} (hname : isPlainName name = true) (rest : List UInt8) :
    Lexeme.next (0x3c :: 0x2f :: (Utf8.encode name ++ 0x3e :: rest))
      = .ok (some (.endTag (Utf8.encode name), rest)) := by
  have hplain := plain_of_isPlainName hname
  have hrun := runUntil_tagEnd (foldlM_tagEnd_plain hplain) rest
  have hmarkup : Lexeme.markup (0x2f :: (Utf8.encode name ++ 0x3e :: rest))
      = .ok (.endTag (Utf8.encode name), rest) := by
    unfold Lexeme.markup
    split
    case h_1 heq => cases heq
    case h_2 heq => exact absurd (List.cons.inj heq).1 (by decide)
    case h_3 heq => exact absurd (List.cons.inj heq).1 (by decide)
    case h_4 heq =>
      rw [← (List.cons.inj heq).2, hrun]
      dsimp only
      rw [trimEnd_plain hplain]
    case h_5 hother => exact (hother _ rfl).elim
  show (Lexeme.markup (0x2f :: (Utf8.encode name ++ 0x3e :: rest))).map some = _
  rw [hmarkup]
  rfl

/-! ### Events of written text -/

end Markup

mutual

/-- The events of an element as it is written: its start, those of its content, and its end. -/
def Element.events : Element → List Markup.Event
  | ⟨name, attributes, content⟩ =>
    .opened { name, attributes } :: (Element.contentEvents content ++ [.closed])

/-- The events of a content as it is written. -/
def Element.contentEvents : List (Content Element) → List Markup.Event
  | [] => []
  | .text s :: rest => .text s :: Element.contentEvents rest
  | .child e :: rest => e.events ++ Element.contentEvents rest

end

namespace Markup

/-- Content without divided character data is what it comes to. -/
theorem merge_eq_self {content : List (Content Element)}
    (h : Element.isMergedContent content = true) : Content.merge content = content := by
  induction content with
  | nil => rfl
  | cons c content ih =>
    cases c with
    | text s =>
      rw [Element.isMergedContent, Bool.and_eq_true, Bool.not_eq_true'] at h
      rw [Content.merge, ih h.2, Content.consText_eq h.1]
    | child e =>
      rw [Element.isMergedContent, Bool.and_eq_true] at h
      rw [Content.merge, ih h.2]

mutual

/-- **The events of an element** spell it. -/
theorem spells_events : ∀ (e : Element), e.isMerged = true → Spells [.child e] e.events
  | ⟨name, attributes, content⟩, h => by
    rw [Element.isMerged] at h
    have hcontent := spells_contentEvents content h
    have hnested := Spells.nested (e := { name, attributes }) hcontent .nil
    rw [merge_eq_self h] at hnested
    rw [Element.events]
    exact hnested

/-- The events of a content spell it. -/
theorem spells_contentEvents : ∀ (content : List (Content Element)),
    Element.isMergedContent content = true → Spells content (Element.contentEvents content)
  | [], _ => by
    rw [Element.contentEvents]
    exact .nil
  | .text s :: rest, h => by
    rw [Element.isMergedContent, Bool.and_eq_true] at h
    rw [Element.contentEvents]
    exact .text (spells_contentEvents rest h.2)
  | .child e :: rest, h => by
    rw [Element.isMergedContent, Bool.and_eq_true] at h
    rw [Element.contentEvents]
    exact (spells_events e h.1).append (spells_contentEvents rest h.2)

end

/-- Events, and after them those of a stream. -/
def Stream.after (events : List Event) (s : Stream) : Stream :=
  { s with events := events ++ s.events }

/-- Events are put before a stream all at once or one list after the other. -/
theorem Stream.after_after (events events' : List Event) (s : Stream) :
    (s.after events').after events = s.after (events ++ events') := by
  simp [Stream.after]

/-- One lexeme is one event. -/
theorem scanFrom_of_next {opened : List String} {bytes rest : List UInt8} {l : Lexeme} {ev : Event}
    (hnext : Lexeme.next bytes = .ok (some (l, rest))) (hev : Event.ofLexeme opened l = .ok ev) :
    scanFrom opened bytes = (scanFrom (ev.opens opened) rest).after [ev] := by
  rw [scanFrom]
  split
  case h_1 h => cases hnext.symm.trans h
  case h_2 h => cases hnext.symm.trans h
  case h_3 h =>
    cases hnext.symm.trans h
    rw [hev]
    rfl

/-- The bytes of a written element. -/
theorem encode_element (name : String) (attributes : List Attribute)
    (content : List (Content Element)) (rest : List UInt8) :
    Utf8.encode (Element.written ⟨name, attributes, content⟩) ++ rest
      = 0x3c :: (Utf8.encode (name ++ String.join (attributes.map Attribute.written))
          ++ 0x3e :: (Utf8.encode (Element.writtenContent content)
            ++ 0x3c :: 0x2f :: (Utf8.encode name ++ 0x3e :: rest))) := by
  have hopened : Utf8.encode "<" = [0x3c] := by decide
  have hclosed : Utf8.encode ">" = [0x3e] := by decide
  have hends : Utf8.encode "</" = [0x3c, 0x2f] := by decide
  rw [Element.written]
  simp only [Utf8.encode_append, hopened, hclosed, hends, List.append_assoc, List.cons_append,
    List.nil_append]

/-- A content that does not begin with character data, or ends, is markup. -/
theorem encode_writtenContent {content : List (Content Element)}
    (h : Content.beginsWithText content = false) (rest : List UInt8) :
    ∃ more, Utf8.encode (Element.writtenContent content) ++ 0x3c :: rest = 0x3c :: more := by
  match content with
  | [] =>
    rw [Element.writtenContent]
    exact ⟨rest, rfl⟩
  | .text s :: _ => simp [Content.beginsWithText] at h
  | .child ⟨name, attributes, inner⟩ :: others =>
    rw [Element.writtenContent, Utf8.encode_append, List.append_assoc, encode_element]
    exact ⟨_, rfl⟩

mutual

/-- **The bytes of a written element** are scanned as its events. -/
theorem scanFrom_written : ∀ (e : Element), e.isWritable = true → e.isMerged = true →
    ∀ (opened : List String) (rest : List UInt8),
      scanFrom opened (Utf8.encode e.written ++ rest) = (scanFrom opened rest).after e.events
  | ⟨name, attributes, content⟩, hwritable, hmerged, opened, rest => by
    rw [Element.isWritable, Bool.and_eq_true, Bool.and_eq_true] at hwritable
    rw [Element.isMerged] at hmerged
    obtain ⟨⟨hname, hattributes⟩, hcontent⟩ := hwritable
    have hnames : ∀ a ∈ attributes, isPlainName a.name = true := by
      rw [areWritable, Bool.and_eq_true, List.all_eq_true] at hattributes
      exact hattributes.1
    have hstart : Event.ofLexeme opened (.startTag
        (Utf8.encode (name ++ String.join (attributes.map Attribute.written))) false)
          = .ok (.opened { name, attributes }) := by
      rw [Event.ofLexeme, readStartTag_written hname hattributes]
      rfl
    have hend : Event.ofLexeme (name :: opened) (.endTag (Utf8.encode name)) = .ok .closed :=
      Except.mapError_eq_ok_iff.mpr (if_pos rfl)
    rw [encode_element, scanFrom_of_next (next_startTag hname hnames _) hstart]
    show (scanFrom (name :: opened) _).after _ = _
    rw [scanFrom_writtenContent content hcontent hmerged,
      scanFrom_of_next (next_endTag hname rest) hend, Stream.after_after, Stream.after_after,
      Element.events]
    rfl

/-- The bytes of a written content, with markup after it, are scanned as its events. -/
theorem scanFrom_writtenContent : ∀ (content : List (Content Element)),
    Element.isWritableContent content = true → Element.isMergedContent content = true →
    ∀ (opened : List String) (rest : List UInt8),
      scanFrom opened (Utf8.encode (Element.writtenContent content) ++ 0x3c :: rest)
        = (scanFrom opened (0x3c :: rest)).after (Element.contentEvents content)
  | [], _, _, opened, rest => by
    rw [Element.writtenContent, Element.contentEvents]
    rfl
  | .text s :: others, hwritable, hmerged, opened, rest => by
    rw [Element.isWritableContent, Bool.and_eq_true] at hwritable
    rw [Element.isMergedContent, Bool.and_eq_true, Bool.not_eq_true'] at hmerged
    have hs : s ≠ "" := by
      rintro rfl
      exact absurd hwritable.1 (by decide)
    -- No text follows a text, so what is read as character data ends with this one.
    obtain ⟨more, hmore⟩ := encode_writtenContent hmerged.1 rest
    have hnext := next_text (escaped_ne_empty hs) (fun b hb => (not_mem_encode_escaped hb).1) more
    have htext : Event.ofLexeme opened (.text (Utf8.encode (escaped s))) = .ok (.text s) := by
      rw [Event.ofLexeme, decodeText_escaped]
      rfl
    rw [Element.writtenContent, Utf8.encode_append, List.append_assoc, hmore,
      scanFrom_of_next hnext htext, ← hmore]
    show (scanFrom opened _).after _ = _
    rw [scanFrom_writtenContent others hwritable.2 hmerged.2, Stream.after_after,
      Element.contentEvents]
    rfl
  | .child e :: others, hwritable, hmerged, opened, rest => by
    rw [Element.isWritableContent, Bool.and_eq_true] at hwritable
    rw [Element.isMergedContent, Bool.and_eq_true] at hmerged
    rw [Element.writtenContent, Utf8.encode_append, List.append_assoc,
      scanFrom_written e hwritable.1 hmerged.1,
      scanFrom_writtenContent others hwritable.2 hmerged.2, Stream.after_after,
      Element.contentEvents]

end

/-- **Reading undoes writing.**  An element without empty or divided character data, the names of
which are plain, is read from the bytes that are written for it. -/
theorem parse_written {e : Element} (hwritable : e.isWritable = true)
    (hmerged : e.isMerged = true) : parse (Utf8.encode e.written) = .ok e := by
  have hend : scanFrom [] [] = ⟨[], none⟩ := by rw [scanFrom]; rfl
  -- The bytes are scanned as the element's own events, and these are a document of it.
  have hscan : scan (Utf8.encode e.written) = ⟨e.events, none⟩ := by
    obtain ⟨name, attributes, content⟩ := e
    have hevents := scanFrom_written ⟨name, attributes, content⟩ hwritable hmerged [] []
    rw [hend, encode_element] at hevents
    have hbytes := encode_element name attributes content []
    rw [List.append_nil] at hbytes
    rw [hbytes]
    show scanFrom [] (0x3c :: _) = _
    rw [hevents]
    simp [Stream.after]
  have hdocument : IsDocument (some e) e.events :=
    isDocument_nil.append_root (spells_events e hmerged)
  rw [parse_eq_treeOf (by rw [hscan]), hscan]
  unfold treeOf
  rw [hdocument.foldlM]
  rfl

/-- An element with all that has to be written with references, and some blanks. -/
def quoted : Element where
  name := "ref"
  attributes := [⟨"kind", "<a> \"b\""⟩, ⟨"id2", "\n\t'&amp;'"⟩]
  content :=
    [.text " x && y ", .child { name := "br" }, .text "\n",
      .child { name := "b", content := [.text "<é>"] }]

/-- Quotes, angle brackets and ampersands are read again as they were. -/
theorem parse_written_quoted :
    quoted.isWritable = true ∧ quoted.isMerged = true
      ∧ parse (Utf8.encode quoted.written) = .ok quoted := by
  have hwritable : quoted.isWritable = true := by decide
  have hmerged : quoted.isMerged = true := by decide
  exact ⟨hwritable, hmerged, parse_written hwritable hmerged⟩

end Markup

end DocGraph
