namespace DocGraph

/-!
# Cutting texts

* `cutLast?` — what stands before and after the last occurrence of a separator;
* `afterLast`, `beforeLast` — one of the two, or the whole text if there is no separator;
* `splitOn` — the pieces between all occurrences of a character.
-/

/-- What stands before and after the last occurrence of a separator. -/
def cutLast? (sep : List Char) : List Char → Option (List Char × List Char)
  | [] => if sep.isEmpty then some ([], []) else none
  | c :: rest =>
    match cutLast? sep rest with
    | some (before, after) => some (c :: before, after)
    | none =>
      if sep.isPrefixOf (c :: rest) then some ([], (c :: rest).drop sep.length) else none

/-- What stands after the last occurrence of a separator. -/
def afterLast (sep cs : List Char) : List Char := ((cutLast? sep cs).map (·.2)).getD cs

/-- What stands before the last occurrence of a separator. -/
def beforeLast (sep cs : List Char) : List Char := ((cutLast? sep cs).map (·.1)).getD cs

/-- The pieces between the occurrences of a character; there is at least one. -/
def splitOn (sep : Char) : List Char → List (List Char)
  | [] => [[]]
  | c :: rest =>
    if c = sep then [] :: splitOn sep rest
    else match splitOn sep rest with
      | [] => [[c]]
      | piece :: others => (c :: piece) :: others

end DocGraph
