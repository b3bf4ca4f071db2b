import DocGraph.Text.Cut

namespace DocGraph

/-!
# Qualified names

The scopes of a qualified name are separated by `::`, save within template arguments.

* `scopesOf` — the scopes of a name, outermost first; there is at least one;
* `isAnonymous` — whether a scope has no name of its own;
* `hasAnonymousEnd` — whether the text after the last separator, be it within template arguments,
  stands for an anonymous scope.
-/

/-- The scopes of the rest of a name, within `depth` template argument lists.  `current` is the
component read so far, last character first. -/
def scopesFrom (depth : Nat) (current : List Char) : List Char → List (List Char)
  | [] => [current.reverse]
  | '<' :: rest => scopesFrom (depth + 1) ('<' :: current) rest
  | '>' :: rest => scopesFrom (depth - 1) ('>' :: current) rest
  | ':' :: ':' :: rest =>
    if depth = 0 then current.reverse :: scopesFrom 0 [] rest
    else scopesFrom depth (':' :: current) (':' :: rest)
  | c :: rest => scopesFrom depth (c :: current) rest

/-- The scopes of a qualified name. -/
def scopesOf (name : String) : List String :=
  (scopesFrom 0 [] name.toList).map String.ofList

/-- Whether a scope stands for one without a name. -/
def isAnonymous (component : String) : Bool := component.toList.head? = some '@'

/-- Whether the text after the last `::` of a name stands for a scope without a name. -/
def hasAnonymousEnd (name : String) : Bool :=
  (afterLast [':', ':'] name.toList).head? = some '@'

end DocGraph
