import DocGraph.Markup.Error

namespace DocGraph.Markup

/-!
# References

Character data and attribute values stand for the text in which each reference, from an ampersand to
the next semicolon, is replaced by a character:

* `characterOf` — the character of a number in decimal, or hexadecimal after an `x`;
* `resolve` — the character of a reference: a number after `#`, or one of five names;
* `expand` — a text with its references replaced.  A reference may not hold an ampersand.
-/

/-- The five names that need no declaration. -/
def predefined : List (String × Char) :=
  [("lt", '<'), ("gt", '>'), ("amp", '&'), ("apos", '\''), ("quot", '"')]

/-- The number written by digits without a sign, as a word of 32 bits. -/
def unsignedDigits (base : Nat) (digits : List Char) : Except CharacterError Nat :=
  match digits with
  | '+' :: _ | '-' :: _ => .error .sign
  | _ => (Numeral.readDigits base (Numeral.WordType.unsigned 32).largest digits).mapError .number

/-- The character with the number written after a reference's `#`. -/
def characterOf (digits : List Char) : Except CharacterError Char := do
  let n ← match digits with
    | 'x' :: hex => unsignedDigits 16 hex
    | _ => unsignedDigits 10 digits
  if n = 0 then throw .zero
  else if n.isValidChar then return Char.ofNat n
  else throw (.invalidCodePoint n)

/-- The character that a reference stands for; `start` and `stop` are the bytes of its name. -/
def resolve (start stop : Nat) (name : List Char) : Except ReferenceError Char :=
  match name with
  | '#' :: digits => (characterOf digits).mapError .character
  | _ =>
    match predefined.lookup (String.ofList name) with
    | some c => .ok c
    | none => .error (.unknown start stop (String.ofList name))

/-- Replace the references of the characters from byte `here` on.  `open?` holds the start of a
reference that has begun and the characters of its name so far, last one first; `total` is the
length of the whole text. -/
def expandFrom (total here : Nat) (open? : Option (Nat × List Char)) :
    List Char → Except ReferenceError (List Char)
  | [] =>
    match open? with
    | none => .ok []
    | some (start, _) => .error (.unterminated start total)
  | c :: rest =>
    match open? with
    | none =>
      if c = '&' then expandFrom total (here + 1) (some (here, [])) rest
      else (expandFrom total (here + c.utf8Size) none rest).map (c :: ·)
    | some (start, name) =>
      if c = '&' then .error (.unterminated start total)
      else if c = ';' then
        match resolve (start + 1) here name.reverse with
        | .ok resolved => (expandFrom total (here + 1) none rest).map (resolved :: ·)
        | .error e => .error e
      else expandFrom total (here + c.utf8Size) (some (start, c :: name)) rest

/-- A text with its references replaced. -/
def expand (s : String) : Except ReferenceError String :=
  (expandFrom s.utf8ByteSize 0 none s.toList).map String.ofList

/-- The text that bytes stand for: decoded first, then its references replaced. -/
def decodeText (bytes : List UInt8) : Except TokenError String := do
  let s ← (Utf8.decode bytes).mapError .undecodable
  (expand s).mapError .reference

end DocGraph.Markup
