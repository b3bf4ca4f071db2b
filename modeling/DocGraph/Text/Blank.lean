namespace DocGraph

/-!
# Blank characters

Blank text is indentation and never content, so nearly every module asks for it:

* `CodeRange`, `inRanges` — tables of code points as ranges;
* `isBlank` — the Unicode property White_Space;
* `isBlankText`, `trimmed` — texts of blanks alone, and a text less the blanks at its ends.
-/

/-- Consecutive code points, both ends included. -/
structure CodeRange where
  first : Nat
  last : Nat
deriving DecidableEq, Repr

/-- Whether some range of the table holds the character. -/
def inRanges (table : List CodeRange) (c : Char) : Bool :=
  table.any fun r => r.first ≤ c.toNat && c.toNat ≤ r.last

/-- Code points with the property White_Space, ascending. -/
def blankRanges : List CodeRange :=
  [⟨0x9, 0xd⟩, ⟨0x20, 0x20⟩, ⟨0x85, 0x85⟩, ⟨0xa0, 0xa0⟩, ⟨0x1680, 0x1680⟩, ⟨0x2000, 0x200a⟩,
   ⟨0x2028, 0x2029⟩, ⟨0x202f, 0x202f⟩, ⟨0x205f, 0x205f⟩, ⟨0x3000, 0x3000⟩]

/-- Whether a character is white space of any script. -/
def isBlank (c : Char) : Bool := inRanges blankRanges c

/-- Whether a text holds nothing but blanks; the empty text does. -/
def isBlankText (s : String) : Bool := s.toList.all isBlank

/-- A list less the blanks at its ends. -/
def trimmedChars (cs : List Char) : List Char :=
  ((cs.dropWhile isBlank).reverse.dropWhile isBlank).reverse

/-- A text less the blanks at its ends. -/
def trimmed (s : String) : String := String.ofList (trimmedChars s.toList)

end DocGraph
