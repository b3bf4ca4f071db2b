import DocGraph.Markup.Lexeme

namespace DocGraph.Markup

/-!
# Events

What a document does to the element under construction, in order:

* `Event`, `Event.ofLexeme` — a lexeme decoded; an end tag has to name the innermost open element;
* `Stream`, `scan` — the events of bytes, up to the first fault if there is one.
-/

/-- One step of a document. -/
inductive Event where
  /-- An element begins; it has no content yet. -/
  | opened (element : Element)
  /-- The innermost element ends. -/
  | closed
  /-- An element without content. -/
  | leaf (element : Element)
  /-- Character data. -/
  | text (s : String)
  /-- Markup that carries nothing. -/
  | skipped

/-- The end of the innermost of the open elements; a name that is not UTF-8 is shown empty. -/
def Event.ofEndTag (opened : List String) (name : List UInt8) : Except NestingError Event :=
  let shown := match Utf8.decode name with
    | .ok s => s
    | .error _ => ""
  match opened with
  | [] => .error (.unmatchedEnd shown)
  | innermost :: _ =>
    if Utf8.encode innermost = name then .ok .closed
    else .error (.mismatchedEnd innermost shown)

/-- The event of a lexeme within the open elements, innermost first. -/
def Event.ofLexeme (opened : List String) : Lexeme → Except Error Event
  | .text bytes => ((decodeText bytes).mapError .token).map .text
  | .cdata bytes => ((Utf8.decode bytes).mapError .name).map .text
  | .startTag tag ends =>
    (readStartTag tag).map fun e => if ends then .leaf e else .opened e
  | .endTag name => (ofEndTag opened name).mapError fun e => .token (.nesting e)
  | .aside => .ok .skipped

/-- The open elements after an event. -/
def Event.opens (opened : List String) : Event → List String
  | .opened e => e.name :: opened
  | .closed => opened.tail
  | _ => opened

/-- The events of a document, and the fault after the last one. -/
structure Stream where
  events : List Event
  fault : Option Error

/-- The events of bytes within open elements. -/
def scanFrom (opened : List String) (bytes : List UInt8) : Stream :=
  match _h : Lexeme.next bytes with
  | .error e => ⟨[], some (.token e)⟩
  | .ok none => ⟨[], none⟩
  | .ok (some (lexeme, rest)) =>
    match Event.ofLexeme opened lexeme with
    | .error e => ⟨[], some e⟩
    | .ok event =>
      let stream := scanFrom (event.opens opened) rest
      { stream with events := event :: stream.events }
termination_by bytes.length
decreasing_by exact Lexeme.next_length_lt (by assumption)

/-- The bytes after a byte order mark, if there is one. -/
def skipMark : List UInt8 → List UInt8
  | 0xef :: 0xbb :: 0xbf :: rest => rest
  | bytes => bytes

/-- The events of a document. -/
def scan (bytes : List UInt8) : Stream := scanFrom [] (skipMark bytes)

end DocGraph.Markup
