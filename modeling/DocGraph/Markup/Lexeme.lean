import DocGraph.Markup.Error
import DocGraph.Markup.StartTag

namespace DocGraph.Markup

/-!
# Lexemes

The bytes of a document, cut into character data and markup:

* `runUntil` — the bytes up to one that ends a run, found with a memory of the bytes before it;
* `tagEnd`, `commentEnd`, `cdataEnd`, `doctypeEnd`, `instructionEnd` — what ends each kind of
  markup;
* `Lexeme`, `Lexeme.next` — the lexeme that bytes begin with, and the bytes after it, of which there
  are fewer (`Lexeme.next_length_lt`).
-/

/-! ### Runs of bytes -/

/-- The bytes before the first one at which `step` stops, and those after it.  `step` passes on a
memory of the bytes so far. -/
def runUntil {σ : Type} (step : σ → UInt8 → Option σ) (memory : σ) :
    List UInt8 → Option (List UInt8 × List UInt8)
  | [] => none
  | b :: rest =>
    match step memory b with
    | none => some ([], rest)
    | some memory => (runUntil step memory rest).map fun (run, after) => (b :: run, after)

/-- A run takes bytes off, and one more that ends it. -/
theorem runUntil_length_lt {σ : Type} {step : σ → UInt8 → Option σ} {memory : σ}
    {bytes run after : List UInt8} (h : runUntil step memory bytes = some (run, after)) :
    after.length < bytes.length := by
  induction bytes generalizing memory run with
  | nil => simp [runUntil] at h
  | cons b rest ih =>
    simp only [runUntil] at h
    split at h
    · cases h
      simp
    · next memory' _ =>
      obtain ⟨⟨run', after'⟩, h', heq⟩ := Option.map_eq_some_iff.mp h
      cases heq
      exact Nat.lt_succ_of_lt (ih h')

/-- A tag ends at the first `>` outside quotes; the memory is the quote that is open. -/
def tagEnd : Option UInt8 → UInt8 → Option (Option UInt8)
  | none, b =>
    if b == 0x3e then none
    else if b == 0x22 || b == 0x27 then some (some b)
    else some none
  | some quote, b => if b == quote then some none else some (some quote)

/-- A CDATA section ends at a `>` after two closing brackets; the memory counts those. -/
def cdataEnd (brackets : Nat) (b : UInt8) : Option Nat :=
  if b == 0x3e && 2 ≤ brackets then none
  else if b == 0x5d then some (brackets + 1)
  else some 0

/-- A comment ends at a `>` after two dashes other than those that open it; the memory counts the
bytes, and the dashes just before. -/
def commentEnd (memory : Nat × Nat) (b : UInt8) : Option (Nat × Nat) :=
  let (bytes, dashes) := memory
  if b == 0x3e && 4 ≤ bytes && 2 ≤ dashes then none
  else some (bytes + 1, if b == 0x2d then dashes + 1 else 0)

/-- A document type ends at the `>` that balances; the memory counts the `<` still open. -/
def doctypeEnd (depth : Nat) (b : UInt8) : Option Nat :=
  if b == 0x3c then some (depth + 1)
  else if b == 0x3e then (if depth = 0 then none else some (depth - 1))
  else some depth

/-- An instruction ends at a `>` just after a `?`. -/
def instructionEnd (afterMark : Bool) (b : UInt8) : Option Bool :=
  if b == 0x3e && afterMark then none else some (b == 0x3f)

/-! ### Lexemes -/

/-- A piece of a document, still in bytes. -/
inductive Lexeme where
  /-- Character data, in which references stand for characters. -/
  | text (bytes : List UInt8)
  /-- Character data taken literally. -/
  | cdata (bytes : List UInt8)
  /-- A start tag from its name on; an element without content may end with its start tag. -/
  | startTag (tag : List UInt8) (ends : Bool)
  /-- An end tag. -/
  | endTag (name : List UInt8)
  /-- A comment, an instruction, a declaration or a document type. -/
  | aside
deriving DecidableEq, Repr

/-- A byte in lower case, for ASCII. -/
def lowerByte (b : UInt8) : UInt8 := if 0x41 ≤ b && b ≤ 0x5a then b + 0x20 else b

/-- The markup after `<!`, by its next byte. -/
def Lexeme.declared (bytes : List UInt8) : Except TokenError (Lexeme × List UInt8) :=
  match bytes with
  | 0x5b :: _ =>
    match runUntil cdataEnd 0 bytes with
    | some (run, rest) =>
      if (Utf8.encode "[CDATA[").isPrefixOf run then
        .ok (.cdata ((run.drop 7).take (run.length - 9)), rest)
      else .error (.unclosed .cdata)
    | none => .error (.unclosed .cdata)
  | 0x2d :: _ =>
    match runUntil commentEnd (0, 0) bytes with
    | some (run, rest) =>
      if (Utf8.encode "--").isPrefixOf run then .ok (.aside, rest)
      else .error (.unclosed .comment)
    | none => .error (.unclosed .comment)
  | b :: _ =>
    if lowerByte b == 0x64 then
      match runUntil doctypeEnd 0 bytes with
      | some (run, rest) =>
        if (Utf8.encode "doctype").isPrefixOf (run.map lowerByte) then
          if (run.drop 7).all isSpace then .error (.nesting .missingDoctypeName)
          else .ok (.aside, rest)
        else .error (.unclosed .doctype)
      | none => .error (.unclosed .doctype)
    else .error (.unclosed .unknownMarkup)
  | [] => .error (.unclosed .unknownMarkup)

/-- Bytes less the blanks at their end; bytes that are all blank stay. -/
def trimEnd (bytes : List UInt8) : List UInt8 :=
  if bytes.all isSpace then bytes else (bytes.reverse.dropWhile isSpace).reverse

/-- The markup after `<`. -/
def Lexeme.markup (bytes : List UInt8) : Except TokenError (Lexeme × List UInt8) :=
  match bytes with
  | [] => .error (.unclosed .tag)
  | 0x21 :: rest => declared rest
  | 0x3f :: _ =>
    match runUntil instructionEnd false bytes with
    | some (run, rest) =>
      if run.length = 1 then .error (.unclosed .instruction) else .ok (.aside, rest)
    | none => .error (.unclosed .instruction)
  | 0x2f :: rest =>
    match runUntil tagEnd none rest with
    | some (run, rest) => .ok (.endTag (trimEnd run), rest)
    | none => .error (.unclosed .tag)
  | _ =>
    match runUntil tagEnd none bytes with
    | some (run, rest) =>
      if run.getLast? = some 0x2f then .ok (.startTag run.dropLast true, rest)
      else .ok (.startTag run false, rest)
    | none => .error (.unclosed .tag)

/-- The lexeme that bytes begin with, none at their end, and the bytes after it. -/
def Lexeme.next : List UInt8 → Except TokenError (Option (Lexeme × List UInt8))
  | [] => .ok none
  | b :: rest =>
    if b == 0x3c then (markup rest).map some
    else .ok (some (.text (b :: rest.takeWhile (· != 0x3c)), rest.dropWhile (· != 0x3c)))

/-! ### Lexemes are not empty -/

/-- A declaration takes bytes off. -/
theorem Lexeme.declared_length_lt {bytes rest : List UInt8} {l : Lexeme}
    (h : declared bytes = .ok (l, rest)) : rest.length < bytes.length := by
  -- One case for each kind of declaration; only a run that found its end answers.
  unfold declared at h
  split at h
  · split at h
    · next hr =>
      split at h <;> cases h
      exact runUntil_length_lt hr
    · cases h
  · split at h
    · next hr =>
      split at h <;> cases h
      exact runUntil_length_lt hr
    · cases h
  · split at h
    · split at h
      · next hr =>
        split at h
        · split at h <;> cases h
          exact runUntil_length_lt hr
        · cases h
      · cases h
    · cases h
  · cases h

theorem Lexeme.markup_length_lt {bytes rest : List UInt8} {l : Lexeme}
    (h : markup bytes = .ok (l, rest)) : rest.length < bytes.length := by
  -- The byte behind the bracket tells what it opens; each kind runs until its own end.
  unfold markup at h
  split at h
  · cases h
  · have := declared_length_lt h
    simp only [List.length_cons]
    omega
  · split at h
    · next hr =>
      split at h <;> cases h
      exact runUntil_length_lt hr
    · cases h
  · split at h
    · next hr =>
      cases h
      have := runUntil_length_lt hr
      simp only [List.length_cons]
      omega
    · cases h
  · split at h
    · next hr =>
      split at h <;> cases h <;> exact runUntil_length_lt hr
    · cases h

/-- **A lexeme takes bytes off**, so a text has only so many. -/
theorem Lexeme.next_length_lt {bytes rest : List UInt8} {l : Lexeme}
    (h : next bytes = .ok (some (l, rest))) : rest.length < bytes.length := by
  unfold next at h
  split at h
  · cases h
  · next b tail =>
    split at h
    · cases hm : markup tail with
      | error e => simp [hm, Except.map] at h
      | ok r =>
        simp only [hm, Except.map, Except.ok.injEq, Option.some.injEq] at h
        subst h
        have := markup_length_lt hm
        simp only [List.length_cons]
        omega
    -- character data begins with this byte and goes on with part of `tail`
    · cases h
      have := (List.dropWhile_suffix (l := tail) (· != 0x3c)).length_le
      simp only [List.length_cons]
      omega

end DocGraph.Markup
