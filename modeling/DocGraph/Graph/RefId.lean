import DocGraph.Text.Cut

namespace DocGraph.RefId

/-!
# Ids of members and sections

The id of a member or section is that of its compound, a delimiter and an anchor.  The delimiter
also occurs within the ids of compounds, so the split is made at the last one.

* `hashedOwner?` — the part before an anchor of the usual shape: at most two lower-case letters and
  then 32 hexadecimal digits;
* `owner` — the part that may be the id of a compound;
* `fragment` — the part that tells where in the page of the compound the target is.
-/

/-- What joins the id of a compound to an anchor. -/
def delimiter : List Char := ['_', '1']

/-- How many digits a hashed anchor has. -/
def hashDigits : Nat := 32

/-- How many letters may stand before the digits of a hashed anchor. -/
def hashLetters : Nat := 2

/-- Hexadecimal digits in either case. -/
def isHexDigit (c : Char) : Bool :=
  ('0' ≤ c && c ≤ '9') || ('a' ≤ c && c ≤ 'f') || ('A' ≤ c && c ≤ 'F')

/-- Lower-case letters of ASCII. -/
def isSmallLetter (c : Char) : Bool := 'a' ≤ c && c ≤ 'z'

/-- The part before a hashed anchor with `letters` letters before its digits. -/
def hashedOwnerWith? (id : List Char) (letters : Nat) : Option (List Char) :=
  let digits := id.drop (id.length - hashDigits)
  let before := id.take (id.length - hashDigits)
  let lead := before.drop (before.length - letters)
  let owner := before.take (before.length - letters)
  if hashDigits ≤ id.length && digits.all isHexDigit
      && letters ≤ before.length && lead.all isSmallLetter
      && delimiter.isSuffixOf owner then
    some (owner.take (owner.length - delimiter.length))
  else none

/-- The part before a hashed anchor. -/
def hashedOwner? (id : List Char) : Option (List Char) :=
  (List.range (hashLetters + 1)).findSome? (hashedOwnerWith? id)

/-- The part of an id that may be the id of a compound; all of it if there is no delimiter. -/
def owner (id : String) : String :=
  String.ofList ((hashedOwner? id.toList).getD (beforeLast delimiter id.toList))

/-- The part of an id that tells a place within a page; all of it if there is no delimiter. -/
def fragment (id : String) : String := String.ofList (afterLast delimiter id.toList)

end DocGraph.RefId
