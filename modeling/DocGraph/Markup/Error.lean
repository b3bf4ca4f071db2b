import DocGraph.Report.Basic
import DocGraph.Text.Numeral
import DocGraph.Text.Utf8

namespace DocGraph.Markup

/-!
# Ill-formed documents

Why bytes are no document, by what was found, with the wording of each cause:

* `UnclosedError` — markup that the end of the input cuts off, or that cannot begin;
* `NestingError` — end tags that do not match;
* `AttributeError` — faults within a start tag, by byte offset from the start of its name;
* `ReferenceError`, `CharacterError` — faults within a reference, by byte offsets in the text;
* `TokenError` — a fault of a single piece of markup;
* `Error` — why there is no tree.
-/

/-- Markup that cannot begin or does not end. -/
inductive UnclosedError where
  | unknownMarkup
  | instruction
  | comment
  | doctype
  | cdata
  | tag
deriving DecidableEq, Repr

/-- The wording of markup that does not end. -/
def UnclosedError.message : UnclosedError → String
  | .unknownMarkup => "unknown or missed symbol in markup"
  | .instruction =>
    "processing instruction or xml declaration not closed: `?>` not found before end of input"
  | .comment => "comment not closed: `-->` not found before end of input"
  | .doctype => "DOCTYPE not closed: `>` not found before end of input"
  | .cdata => "CDATA not closed: `]]>` not found before end of input"
  | .tag => "tag not closed: `>` not found before end of input"

/-- Markup that is complete but does not fit its place. -/
inductive NestingError where
  | missingDoctypeName
  | unmatchedEnd (name : String)
  | mismatchedEnd (expected found : String)
deriving DecidableEq, Repr

/-- The wording of markup out of place. -/
def NestingError.message : NestingError → String
  | .missingDoctypeName =>
    "`<!DOCTYPE>` declaration does not contain a name of a document type"
  | .unmatchedEnd name => s!"close tag `</{name}>` does not match any open tag"
  | .mismatchedEnd expected found => s!"expected `</{expected}>`, but `</{found}>` was found"

/-- Faults of the attributes of a start tag. -/
inductive AttributeError where
  | expectedEquals (position : Nat)
  | expectedValue (position : Nat)
  | unquotedValue (position : Nat)
  | expectedQuote (position : Nat) (quote : Char)
  | duplicated (position earlier : Nat)
deriving DecidableEq, Repr

/-- The wording of a fault of an attribute. -/
def AttributeError.message : AttributeError → String
  | .expectedEquals p => s!"position {p}: attribute key must be directly followed by `=` or space"
  | .expectedValue p => s!"position {p}: `=` must be followed by an attribute value"
  | .unquotedValue p => s!"position {p}: attribute value must be enclosed in `\"` or `'`"
  | .expectedQuote p q => s!"position {p}: missing closing quote `{q}` in attribute value"
  | .duplicated p e =>
    s!"position {p}: duplicated attribute, previous declaration at position {e}"

/-- Faults of a reference to a character by its number. -/
inductive CharacterError where
  | sign
  | number (cause : Numeral.ReadError)
  | invalidCodePoint (n : Nat)
  | zero
deriving DecidableEq, Repr

/-- The wording of a fault of a character number. -/
def CharacterError.message : CharacterError → String
  | .sign => "unexpected number sign"
  | .number cause => cause.message
  | .invalidCodePoint n => s!"`{n}` is not a valid codepoint"
  | .zero => "0x0 character is not permitted in XML"

/-- Faults of a reference. -/
inductive ReferenceError where
  | unknown (start stop : Nat) (name : String)
  | unterminated (start stop : Nat)
  | character (cause : CharacterError)
deriving DecidableEq, Repr

/-- The wording of a fault of a reference. -/
def ReferenceError.message : ReferenceError → String
  | .unknown start stop name => s!"at {start}..{stop}: unrecognized entity `{name}`"
  | .unterminated start stop =>
    s!"Error while escaping character at range {start}..{stop}: Cannot find ';' after '&'"
  | .character cause => s!"invalid character reference: {cause.message}"

/-- Faults of a single piece of markup. -/
inductive TokenError where
  | unclosed (cause : UnclosedError)
  | nesting (cause : NestingError)
  | undecodable (cause : Utf8.DecodeError)
  | attribute (cause : AttributeError)
  | reference (cause : ReferenceError)
deriving DecidableEq, Repr

/-- The wording of a fault of a piece of markup. -/
def TokenError.message : TokenError → String
  | .unclosed cause => s!"syntax error: {cause.message}"
  | .nesting cause => s!"ill-formed document: {cause.message}"
  | .undecodable cause => s!"Malformed UTF-8 input: {cause.message}"
  | .attribute cause => s!"error while parsing attribute: {cause.message}"
  | .reference cause => cause.message

/-- Why bytes are no document. -/
inductive Error where
  /-- A piece of markup is faulty. -/
  | token (cause : TokenError)
  /-- A name or a CDATA section is not UTF-8. -/
  | name (cause : Utf8.DecodeError)
  /-- There is no element at all. -/
  | noRoot
  /-- A second outermost element ended. -/
  | multipleRoots (name : String)
  /-- The input ended within an element. -/
  | unclosedElement (name : String)
  /-- An element ended where none was open. -/
  | unbalancedClose
  /-- Character data other than blanks stands outside the root element. -/
  | textOutsideRoot (text : String)
deriving DecidableEq, Repr

namespace Error

/-- The wording of an error. -/
def message : Error → String
  | .token cause => cause.message
  | .name cause => cause.message
  | .noRoot => "document has no root element"
  | .multipleRoots n => s!"unexpected second root element `{n}`"
  | .unclosedElement n => s!"unexpected end of input inside `{n}`"
  | .unbalancedClose => "unbalanced closing tag"
  | .textOutsideRoot t => s!"unexpected text `{t}` outside of root element"

/-- The wording of the fault within the bytes that an error passes on, if it does. -/
def source? : Error → Option String
  | .token cause => some cause.message
  | .name cause => some cause.message
  | _ => none

/-- What is said below any error. -/
def advice : List Remark :=
  [.help "this file is not well-formed XML; try regenerating the Doxygen output"]

instance : Reportable Error where
  message := message
  remarks _ := advice

end Error

end DocGraph.Markup
