import DocGraph.Text.Alphanumeric
import DocGraph.Text.LowerCase

namespace DocGraph

/-!
# From names to path components

* `PermalinkStyle` — the choices that a user has about permalinks;
* `PermalinkStyle.slug` — a name reduced to letters and numbers, with single dashes between the
  words that anything else separated.
-/

/-- The choices about permalinks. -/
structure PermalinkStyle where
  /-- Whether permalinks are in lower case. -/
  lowercase : Bool := true
  /-- The beginning of a permalink component that stands for an anonymous scope. -/
  anonymousPrefix : String := "anonymous"
deriving DecidableEq, Repr

namespace PermalinkStyle

/-- A letter or number as it stands in permalinks. -/
def cased (p : PermalinkStyle) (c : Char) : List Char := if p.lowercase then lowered c else [c]

/-- The rest of a name.  `started` tells whether anything has been kept, and `parted` whether
anything has been dropped since. -/
def slugFrom (p : PermalinkStyle) (started parted : Bool) : List Char → List Char
  | [] => []
  | c :: rest =>
    if isAlphanumeric c then
      (if parted && started then ['-'] else []) ++ p.cased c ++ p.slugFrom true false rest
    else p.slugFrom started true rest

/-- A name reduced to one path component, which may be empty. -/
def slug (p : PermalinkStyle) (name : String) : String :=
  String.ofList (p.slugFrom false false name.toList)

end PermalinkStyle

end DocGraph
