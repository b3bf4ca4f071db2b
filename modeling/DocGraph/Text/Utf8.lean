namespace DocGraph.Utf8

/-!
# UTF-8

Bytes to text, with the place and length of the first fault:

* `DecodeError` — how much of the input is well formed, and how many bytes after it are refused;
* `decode` — the text of well-formed bytes.  A sequence is refused at its first byte that no
  well-formed sequence has in that place, so overlong forms, surrogates and values beyond the last
  code point are refused at their second byte;
* `encode` — the bytes of a text.
-/

/-- Why bytes are not text. -/
structure DecodeError where
  /-- Bytes before the fault, all well formed. -/
  validUpTo : Nat
  /-- Bytes refused, or none when the input ends within a sequence that could be completed. -/
  refused : Option Nat
deriving DecidableEq, Repr

/-- The wording of a fault. -/
def DecodeError.message (e : DecodeError) : String :=
  match e.refused with
  | none => s!"incomplete utf-8 byte sequence from index {e.validUpTo}"
  | some n => s!"invalid utf-8 sequence of {n} bytes from index {e.validUpTo}"

/-- Bytes that continue a sequence. -/
def isContinuation (b : UInt8) : Bool := 0x80 ≤ b && b ≤ 0xbf

/-- Whether `second` may follow `first` in a sequence of three bytes: no overlong form and no
surrogate begins so. -/
def opensThree (first second : UInt8) : Bool :=
  if first == 0xe0 then 0xa0 ≤ second && second ≤ 0xbf
  else if first == 0xed then 0x80 ≤ second && second ≤ 0x9f
  else isContinuation second

/-- Whether `second` may follow `first` in a sequence of four bytes: no overlong form and no value
beyond the last code point begins so. -/
def opensFour (first second : UInt8) : Bool :=
  if first == 0xf0 then 0x90 ≤ second && second ≤ 0xbf
  else if first == 0xf4 then 0x80 ≤ second && second ≤ 0x8f
  else isContinuation second

/-- The payload of a continuation byte. -/
def payload (b : UInt8) : Nat := b.toNat % 0x40

/-- Characters of the bytes that follow the first `index` ones. -/
def decodeFrom (index : Nat) : List UInt8 → Except DecodeError (List Char)
  | [] => .ok []
  | a :: rest =>
    if a < 0x80 then
      (decodeFrom (index + 1) rest).map (Char.ofNat a.toNat :: ·)
    else if 0xc2 ≤ a && a ≤ 0xdf then
      match rest with
      | [] => .error ⟨index, none⟩
      | b :: rest =>
        if isContinuation b then
          (decodeFrom (index + 2) rest).map
            (Char.ofNat (a.toNat % 0x20 * 0x40 + payload b) :: ·)
        else .error ⟨index, some 1⟩
    else if 0xe0 ≤ a && a ≤ 0xef then
      match rest with
      | [] => .error ⟨index, none⟩
      | b :: rest =>
        if opensThree a b then
          match rest with
          | [] => .error ⟨index, none⟩
          | c :: rest =>
            if isContinuation c then
              (decodeFrom (index + 3) rest).map
                (Char.ofNat (a.toNat % 0x10 * 0x1000 + payload b * 0x40 + payload c) :: ·)
            else .error ⟨index, some 2⟩
        else .error ⟨index, some 1⟩
    else if 0xf0 ≤ a && a ≤ 0xf4 then
      match rest with
      | [] => .error ⟨index, none⟩
      | b :: rest =>
        if opensFour a b then
          match rest with
          | [] => .error ⟨index, none⟩
          | c :: rest =>
            if isContinuation c then
              match rest with
              | [] => .error ⟨index, none⟩
              | d :: rest =>
                if isContinuation d then
                  (decodeFrom (index + 4) rest).map
                    (Char.ofNat (a.toNat % 0x8 * 0x40000 + payload b * 0x1000
                      + payload c * 0x40 + payload d) :: ·)
                else .error ⟨index, some 3⟩
            else .error ⟨index, some 2⟩
        else .error ⟨index, some 1⟩
    else .error ⟨index, some 1⟩

/-- The text of well-formed bytes. -/
def decode (bytes : List UInt8) : Except DecodeError String :=
  (decodeFrom 0 bytes).map String.ofList

/-- The bytes of a text. -/
def encode (s : String) : List UInt8 := s.toList.flatMap String.utf8EncodeChar

end DocGraph.Utf8
