import DocGraph.Markup.Element
import DocGraph.Markup.Reference

namespace DocGraph.Markup

/-!
# Start tags

The bytes of a start tag, from the first byte of its name to the byte before its end, are a name and
attributes:

* `isSpace` — blanks of markup, which are fewer than those of text;
* `RawAttribute`, `nextAttribute` — the next attribute in bytes, with the place where it was found.
  A repeated key is refused before its value is read;
* `readAttributes` — all attributes; each is decoded before the next one is read;
* `readStartTag` — the element that a start tag begins, still without content.
-/

/-- Blanks of markup. -/
def isSpace (b : UInt8) : Bool := b == 0x20 || b == 0x0d || b == 0x0a || b == 0x09

/-- An attribute as it stands in a tag. -/
structure RawAttribute where
  /-- The byte where the key begins. -/
  position : Nat
  key : List UInt8
  value : List UInt8
deriving DecidableEq, Repr

/-- Bytes that may stand in a key after its first byte. -/
def continuesKey (b : UInt8) : Bool := b != 0x3d && !isSpace b

/-- Where reading goes on: the byte offset and the bytes from there. -/
structure Place where
  position : Nat
  bytes : List UInt8
deriving DecidableEq, Repr

/-- The place after the blanks that stand here. -/
def Place.skipSpace (p : Place) : Place :=
  ⟨p.position + (p.bytes.takeWhile isSpace).length, p.bytes.dropWhile isSpace⟩

/-- The value that begins here, after the equals sign, and the place after its closing quote. -/
def readValue (p : Place) : Except AttributeError (List UInt8 × Place) :=
  let opened := p.skipSpace
  match opened.bytes with
  | [] => .error (.expectedValue opened.position)
  | quote :: rest =>
    if quote == 0x22 || quote == 0x27 then
      let value := rest.takeWhile (· != quote)
      match rest.dropWhile (· != quote) with
      | [] => .error (.expectedQuote (opened.position + 1 + value.length) (Char.ofNat quote.toNat))
      | _ :: after => .ok (value, ⟨opened.position + value.length + 2, after⟩)
    else .error (.unquotedValue opened.position)

/-- The next attribute, none at the end of the tag, and the place after it.  `earlier` holds the
keys read before, each with its position. -/
def nextAttribute (earlier : List (List UInt8 × Nat)) (p : Place) :
    Except AttributeError (Option (RawAttribute × Place)) :=
  let start := p.skipSpace
  match start.bytes with
  | [] => .ok none
  | first :: rest =>
    let key := first :: rest.takeWhile continuesKey
    let sign := Place.skipSpace ⟨start.position + key.length, rest.dropWhile continuesKey⟩
    match sign.bytes with
    | [] => .error (.expectedEquals sign.position)
    | b :: rest =>
      if b != 0x3d then .error (.expectedEquals sign.position)
      else match earlier.lookup key with
        | some position => .error (.duplicated start.position position)
        | none =>
          match readValue ⟨sign.position + 1, rest⟩ with
          | .error e => .error e
          | .ok (value, after) => .ok (some (⟨start.position, key, value⟩, after))

/-! ### Reading ends -/

theorem Place.skipSpace_length_le (p : Place) :
    p.skipSpace.bytes.length ≤ p.bytes.length :=
  (List.dropWhile_suffix isSpace).length_le

/-- A value takes its quotes off at least. -/
theorem readValue_length_lt {p after : Place} {value : List UInt8}
    (h : readValue p = .ok (value, after)) : after.bytes.length < p.bytes.length := by
  have hp := p.skipSpace_length_le
  simp only [readValue] at h
  split at h
  · cases h
  · next quote rest hb =>
    split at h
    · split at h
      · cases h
      · next q' after' hd =>
        cases h
        have := (List.dropWhile_suffix (l := rest) (· != quote)).length_le
        simp only [hd, List.length_cons] at this
        simp only [hb, List.length_cons] at hp
        simp only
        omega
    · cases h

/-- An attribute takes bytes off, so a tag has only so many. -/
theorem nextAttribute_length_lt {earlier : List (List UInt8 × Nat)} {p after : Place}
    {a : RawAttribute} (h : nextAttribute earlier p = .ok (some (a, after))) :
    after.bytes.length < p.bytes.length := by
  have hp := p.skipSpace_length_le
  simp only [nextAttribute] at h
  split at h
  · cases h
  · next first rest hb =>
    simp only [hb, List.length_cons] at hp
    -- The key, the blanks behind it and the value each leave a suffix of what they got.
    have hk := (List.dropWhile_suffix (l := rest) continuesKey).length_le
    have hs := Place.skipSpace_length_le
      ⟨p.skipSpace.position + (first :: rest.takeWhile continuesKey).length,
        rest.dropWhile continuesKey⟩
    split at h
    · cases h
    · next b rest' hb' =>
      have hl := congrArg List.length hb'
      simp only [List.length_cons] at hl hs
      split at h
      · cases h
      · split at h
        · cases h
        · split at h
          · cases h
          · next value after' hv =>
            cases h
            have := readValue_length_lt hv
            simp only at this
            omega

/-! ### Elements -/

/-- The attributes from a place on, decoded one by one. -/
def readAttributes (earlier : List (List UInt8 × Nat)) (p : Place) :
    Except Error (List Attribute) :=
  match _h : nextAttribute earlier p with
  | .error e => .error (.token (.attribute e))
  | .ok none => .ok []
  | .ok (some (a, after)) => do
    let name ← (Utf8.decode a.key).mapError .name
    let value ← (decodeText a.value).mapError .token
    let others ← readAttributes ((a.key, a.position) :: earlier) after
    return ⟨name, value⟩ :: others
termination_by p.bytes.length
decreasing_by exact nextAttribute_length_lt (by assumption)

/-- The element that a start tag begins. -/
def readStartTag (tag : List UInt8) : Except Error Element := do
  let bytes := tag.takeWhile (! isSpace ·)
  let name ← (Utf8.decode bytes).mapError .name
  let attributes ← readAttributes [] ⟨bytes.length, tag.dropWhile (! isSpace ·)⟩
  return { name, attributes }

end DocGraph.Markup
