namespace DocGraph

/-!
# Content

Elements of a document and the nodes built from them hold their children in the same way, as runs of
character data between child values:

* `Content` — one piece of content;
* `Content.children`, `Content.texts` — the child values alone, and the character data alone;
* `Content.consText`, `Content.appendText` — adds character data at either end.  Character data
  next to each other is one piece, so a document's content does not depend on how its character
  data was divided.
-/

/-- One piece of content. -/
inductive Content (α : Type) where
  | text (s : String)
  | child (a : α)
deriving DecidableEq, Repr

namespace Content

variable {α : Type}

/-- The character data of a piece of content. -/
def text? : Content α → Option String
  | .text s => some s
  | .child _ => none

/-- The child value of a piece of content. -/
def child? : Content α → Option α
  | .text _ => none
  | .child a => some a

/-- The child values, in order. -/
def children (cs : List (Content α)) : List α := cs.filterMap child?

@[simp] theorem children_nil : children ([] : List (Content α)) = [] := rfl

@[simp] theorem children_cons_text (s : String) (cs : List (Content α)) :
    children (.text s :: cs) = children cs := rfl

@[simp] theorem children_cons_child (a : α) (cs : List (Content α)) :
    children (.child a :: cs) = a :: children cs := rfl

@[simp] theorem children_append (cs cs' : List (Content α)) :
    children (cs ++ cs') = children cs ++ children cs' := List.filterMap_append

/-- The character data between the child values, joined. -/
def texts (cs : List (Content α)) : String := String.join (cs.filterMap text?)

/-- Put character data in front. -/
def consText (s : String) : List (Content α) → List (Content α)
  | .text s' :: rest => .text (s ++ s') :: rest
  | cs => .text s :: cs

/-- Put character data at the end. -/
def appendText (s : String) : List (Content α) → List (Content α)
  | [] => [.text s]
  | [.text s'] => [.text (s' ++ s)]
  | c :: rest => c :: appendText s rest

/-- Character data joins that at the end. -/
theorem appendText_append_text (l : List (Content α)) (s t : String) :
    appendText s (l ++ [.text t]) = l ++ [.text (t ++ s)] := by
  induction l with
  | nil => rfl
  | cons c l ih =>
    have hstep : appendText s (c :: (l ++ [.text t])) = c :: appendText s (l ++ [.text t]) := by
      cases l <;> simp [appendText]
    rw [List.cons_append, hstep, ih, List.cons_append]

/-- Behind a child it stands by itself. -/
theorem appendText_append_child (l : List (Content α)) (s : String) (a : α) :
    appendText s (l ++ [.child a]) = l ++ [.child a, .text s] := by
  induction l with
  | nil => rfl
  | cons c l ih =>
    have hstep : appendText s (c :: (l ++ [.child a])) = c :: appendText s (l ++ [.child a]) := by
      cases l <;> simp [appendText]
    rw [List.cons_append, hstep, ih, List.cons_append]

/-- Either way the children stay the same. -/
theorem children_appendText (l : List (Content α)) (s : String) :
    children (appendText s l) = children l := by
  rcases List.eq_nil_or_concat l with rfl | ⟨before, last, rfl⟩
  · rfl
  · rw [List.concat_eq_append]
    cases last with
    | text t => simp [appendText_append_text]
    | child a => simp [appendText_append_child]

end Content

end DocGraph
