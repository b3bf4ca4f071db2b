import DocGraph.Node.Listing

namespace DocGraph

/-!
# Ranges of lines

Whoever shows the body of a member cuts it out of the listing of its file.  What is left is a
listing again, so it may be cut further:

* `Content.IsLineWithin` — a code line with a number within a range;
* `Content.isLineWithin_inter_iff` — to be within two ranges is to be within what they share;
* `Node.linesWithin`, `Node.IsCutOf` — the lines of a node within a range, and a node with the kind
  and the data of another but with nothing left of it except these lines;
* `Node.linesBetween?_eq`, `Node.linesBetween?_bind` — one cut, and a cut of a cut;
* `Node.cuts_by_range` — the main statement: a listing with such lines is cut down to them, and cuts
  compose as their ranges intersect.
-/

variable {first last first' last' k : Nat}

/-! ### Lines -/

namespace Content

variable {c : Content Node}

/-- A code line with a number from `first` to `last`. -/
def IsLineWithin (first last : Nat) (c : Content Node) : Prop :=
  ∃ n d k, c = .child n ∧ n.data = .codeLine d ∧ d.number = some k ∧ first ≤ k ∧ k ≤ last

/-- Numbers are those of lines of code that have one. -/
theorem lineNumber?_eq_some_iff :
    c.lineNumber? = some k ↔ ∃ n d, c = .child n ∧ n.data = .codeLine d ∧ d.number = some k := by
  cases c with
  | text s => simp [lineNumber?]
  | child n =>
    simp only [lineNumber?, Content.child.injEq]
    constructor
    · intro hk
      split at hk
      · rename_i d hdata
        exact ⟨n, d, rfl, hdata, hk⟩
      · cases hk
    · rintro ⟨m, d, rfl, hdata, hk⟩
      rw [hdata]
      exact hk

/-- A line is within a range if its number is. -/
theorem isLineWithin_iff :
    c.IsLineWithin first last ↔ ∃ k, c.lineNumber? = some k ∧ first ≤ k ∧ k ≤ last := by
  constructor
  · rintro ⟨n, d, k, hc, hdata, hk, hrange⟩
    exact ⟨k, lineNumber?_eq_some_iff.mpr ⟨n, d, hc, hdata, hk⟩, hrange⟩
  · rintro ⟨k, hk, hrange⟩
    obtain ⟨n, d, hc, hdata, hk⟩ := lineNumber?_eq_some_iff.mp hk
    exact ⟨n, d, k, hc, hdata, hk, hrange⟩

theorem isLineWithin_iff_any :
    c.IsLineWithin first last
      ↔ (c.lineNumber?.any fun k => first ≤ k && k ≤ last) = true := by
  rw [isLineWithin_iff]
  cases c.lineNumber? <;> simp

instance (first last : Nat) (c : Content Node) : Decidable (c.IsLineWithin first last) :=
  decidable_of_iff _ isLineWithin_iff_any.symm

/-- **Within two ranges** is within what they share, since a line has one number. -/
theorem isLineWithin_inter_iff :
    c.IsLineWithin (max first first') (min last last')
      ↔ c.IsLineWithin first last ∧ c.IsLineWithin first' last' := by
  simp only [isLineWithin_iff]
  cases c.lineNumber? with
  | none => simp
  | some k =>
    simp only [Option.some.injEq, exists_eq_left']
    omega

end Content

/-! ### Cuts -/

namespace Node

variable {n m : Node}

/-- The numbered lines of a node within a range, in order. -/
def linesWithin (n : Node) (first last : Nat) : List (Content Node) :=
  n.content.filter fun c => c.IsLineWithin first last

/-- A node of which nothing is left except its lines within a range. -/
structure IsCutOf (m n : Node) (first last : Nat) : Prop where
  kind : m.kind = n.kind
  data : m.data = n.data
  content : m.content = n.linesWithin first last
  skipParagraph : m.skipParagraph = false

/-- The node that is left of another one within a range. -/
def cut (n : Node) (first last : Nat) : Node :=
  { n with content := n.linesWithin first last, skipParagraph := false }

/-- There are lines within a range if some piece of the content is one. -/
theorem linesWithin_ne_nil_iff :
    n.linesWithin first last ≠ [] ↔ ∃ c ∈ n.content, c.IsLineWithin first last := by
  simp [linesWithin]

/-- **A cut is determined** by the listing and the range. -/
theorem isCutOf_iff : m.IsCutOf n first last ↔ m = n.cut first last := by
  constructor
  · rintro ⟨hkind, hdata, hcontent, hskip⟩
    obtain ⟨kind, data, content, skipParagraph⟩ := m
    rw [cut, Node.mk.injEq]
    exact ⟨hkind, hdata, hcontent, hskip⟩
  · rintro rfl
    exact ⟨rfl, rfl, rfl, rfl⟩

/-- **The lines of a cut** are those that lie within the other range, too. -/
theorem linesWithin_cut :
    (n.cut first last).linesWithin first' last'
      = n.linesWithin (max first first') (min last last') := by
  rw [linesWithin, cut, linesWithin, linesWithin, List.filter_filter]
  apply List.filter_congr
  intro c _
  simp only [Content.isLineWithin_inter_iff, Bool.decide_and, Bool.and_comm]

/-- **Two cuts make one**, to what both ranges share. -/
theorem cut_cut :
    (n.cut first last).cut first' last' = n.cut (max first first') (min last last') := by
  rw [cut, linesWithin_cut]
  rfl

/-- A listing is cut if it has lines within the range; nothing else is. -/
theorem linesBetween?_eq (n : Node) (first last : Nat) :
    n.linesBetween? first last
      = if n.kind = .programListing ∧ n.linesWithin first last ≠ [] then some (n.cut first last)
        else none := by
  have hlines : (n.content.filter fun c => c.lineNumber?.any fun k => first ≤ k && k ≤ last)
      = n.linesWithin first last := by
    apply List.filter_congr
    intro c _
    rw [Bool.eq_iff_iff, decide_eq_true_eq, Content.isLineWithin_iff_any]
  rw [linesBetween?, hlines]
  by_cases hlisting : n.kind = .programListing
  · simp [hlisting, cut]
  · simp [hlisting]

/-- **A cut of a cut** is one cut by the range that both have in common, if that is possible. -/
theorem linesBetween?_bind (n : Node) (first last first' last' : Nat) :
    (n.linesBetween? first last).bind (·.linesBetween? first' last')
      = n.linesBetween? (max first first') (min last last') := by
  have hkind : (n.cut first last).kind = n.kind := rfl
  rw [linesBetween?_eq n first last]
  split
  · rename_i hlines
    rw [Option.bind_some, linesBetween?_eq, linesBetween?_eq, hkind, linesWithin_cut, cut_cut]
  -- no line is in the first range, so none is in what both ranges share
  · rename_i hnone
    rw [Option.bind_none, linesBetween?_eq, if_neg]
    rintro ⟨hlisting, hshared⟩
    obtain ⟨c, hc, hshared⟩ := linesWithin_ne_nil_iff.mp hshared
    have hwithin := (Content.isLineWithin_inter_iff.mp hshared).1
    exact hnone ⟨hlisting, linesWithin_ne_nil_iff.mpr ⟨c, hc, hwithin⟩⟩

/-- **A listing is cut by ranges of lines.**  There is something left if it is a program listing
with a numbered line within the range, and that is its lines within the range, in order.  Two cuts
are one by the range that both have in common, so another cut by the same range changes nothing, and
the order of two cuts does not matter. -/
theorem cuts_by_range (n : Node) (first last : Nat) :
    ((n.linesBetween? first last).isSome
        ↔ n.kind = .programListing ∧ ∃ c ∈ n.content, c.IsLineWithin first last)
      ∧ (∀ m, n.linesBetween? first last = some m
        ↔ (n.linesBetween? first last).isSome ∧ m.IsCutOf n first last)
      ∧ (n.linesBetween? first last).bind (·.linesBetween? first last)
        = n.linesBetween? first last
      ∧ ∀ first' last',
        (n.linesBetween? first last).bind (·.linesBetween? first' last')
            = n.linesBetween? (max first first') (min last last')
          ∧ (n.linesBetween? first last).bind (·.linesBetween? first' last')
            = (n.linesBetween? first' last').bind (·.linesBetween? first last) := by
  refine ⟨?isSome, fun m => ?cut, ?again, fun first' last' => ⟨?both, ?order⟩⟩
  case isSome =>
    rw [linesBetween?_eq, ← linesWithin_ne_nil_iff]
    split <;> simp [*]
  case cut =>
    rw [linesBetween?_eq, isCutOf_iff]
    split <;> simp [eq_comm]
  case again => rw [linesBetween?_bind, Nat.max_self, Nat.min_self]
  case both => exact linesBetween?_bind n first last first' last'
  case order =>
    rw [linesBetween?_bind, linesBetween?_bind, Nat.max_comm, Nat.min_comm]

/-- Lines that are out of order stay so, and both of those with the same number are kept. -/
example :
    let line (number : Option Nat) : Content Node :=
      .child { kind := .codeLine, data := .codeLine ⟨number, none, none, false⟩ }
    let listing (lines : List (Option Nat)) : Node :=
      { kind := .programListing, data := .listing (some "a.c"), content := lines.map line }
    (listing [some 3, none, some 1, some 3]).linesBetween? 2 9
      = some (listing [some 3, some 3]) := by
  rfl

end Node

end DocGraph
