import DocGraph.Proofs.Grammar

namespace DocGraph

/-!
# Variable lists

A variable list is built in one pass, which knows no more than whether a term waits for its
definition.  What it accepts and what it refuses can be said by counting children:

* `VariableList.turnTag`, `VariableList.turnForm` — terms stand at even places, definitions at odd;
* `VariableList.Regular`, `VariableList.Flaw` — a content in which every child takes its turn, and
  what may be wrong with a piece after so many children;
* `VariableList.Awaits` — the invariant: a term is pending after an odd number of children;
* `VariableList.Flaw.buildContent_eq`, `VariableList.Regular.exists_built` — the pass stops at a
  piece with a flaw, and builds the children of a regular content;
* `VariableList.IsPaired` — the node of the list, a pair for every two children;
* `VariableList.build_variableList` — the main statement.
-/

namespace VariableList

open Form (kindOf kindOf_term kindOf_definition)

variable {k : Nat} {c : Element} {s name : String} {v : Violation}
variable {content rest : List (Content Element)} {before : List NodeKind}

/-- The tag of the child after `k` children. -/
def turnTag (k : Nat) : String :=
  if k % 2 = 0 then NodeKind.varListEntry.tag else NodeKind.listItem.tag

/-- The form of the child after `k` children. -/
def turnForm (k : Nat) : Form := if k % 2 = 0 then .variableEntry else .listItem

/-- It is the turn of a child after `k` children, and the child is built. -/
def TakesTurn (k : Nat) (c : Element) : Prop :=
  c.name = turnTag k ∧ ∃ n, (turnForm k).build c = .ok n

/-- Nothing but children that take turns after `k` others, with whitespace between them. -/
structure Regular (k : Nat) (content : List (Content Element)) : Prop where
  blank : ∀ s, .text s ∈ content → isBlankText s = true
  child : ∀ i c, (Content.children content)[i]? = some c → TakesTurn (k + i) c

/-- A violation that the list itself finds. -/
def violation (defect : Defect) : Violation where
  element := "variablelist"
  builder := some "variable list builder"
  defect := defect

/-- What is wrong with a piece after `k` children. -/
inductive Flaw (k : Nat) : Content Element → Violation → Prop
  /-- Character data that is not whitespace. -/
  | text {s : String} : isBlankText s = false →
    Flaw k (.text s) (violation (.unexpectedText (trimmed s)))
  /-- A term, while another one is pending. -/
  | consecutive {c : Element} : k % 2 = 1 → c.name = NodeKind.varListEntry.tag →
    Flaw k (.child c) (violation .consecutiveTerms)
  /-- A definition, while no term is pending. -/
  | unannounced {c : Element} : k % 2 = 0 → c.name = NodeKind.listItem.tag →
    Flaw k (.child c) (violation .definitionWithoutTerm)
  /-- A child whose turn it is, but which is refused. -/
  | refused {c : Element} {v : Violation} : c.name = turnTag k →
    (turnForm k).build c = .error v → Flaw k (.child c) v
  /-- Any other child. -/
  | foreign {c : Element} : c.name ≠ NodeKind.varListEntry.tag → c.name ≠ NodeKind.listItem.tag →
    Flaw k (.child c) (violation (.unexpectedElement c.name))

/-- The first flaw after `k` children. -/
def FirstFlaw (k : Nat) (content : List (Content Element)) (v : Violation) : Prop :=
  ∃ before piece after, content = before ++ piece :: after ∧ Regular k before
    ∧ Flaw (k + (Content.children before).length) piece v

/-! ### Piece by piece -/

theorem regular_nil (k : Nat) : Regular k [] where
  blank _ hs := absurd hs List.not_mem_nil
  child _ _ hc := by simp at hc

/-- Indentation does not count. -/
theorem regular_text_iff : Regular k (.text s :: rest) ↔ isBlankText s = true ∧ Regular k rest := by
  constructor
  · intro h
    refine ⟨h.blank s List.mem_cons_self, fun t ht => h.blank t (List.mem_cons_of_mem _ ht), ?_⟩
    exact h.child
  · rintro ⟨hs, h⟩
    refine ⟨fun t ht => ?_, h.child⟩
    rcases List.mem_cons.mp ht with heq | ht
    · rwa [Content.text.inj heq]
    · exact h.blank t ht

/-- A child has to take its turn, and then it is that of the other sort. -/
theorem regular_child_iff :
    Regular k (.child c :: rest) ↔ TakesTurn k c ∧ Regular (k + 1) rest := by
  constructor
  · intro h
    refine ⟨h.child 0 c rfl, fun s hs => h.blank s (List.mem_cons_of_mem _ hs), fun i d hd => ?_⟩
    -- one child fewer to count from, and one more that was counted
    rw [Nat.add_assoc, Nat.add_comm 1]
    exact h.child (i + 1) d hd
  · rintro ⟨hc, h⟩
    refine ⟨fun s hs => h.blank s (by simpa using hs), fun i d hd => ?_⟩
    cases i with
    | zero =>
      obtain rfl : c = d := by simpa using hd
      exact hc
    | succ i =>
      rw [← Nat.add_assoc, Nat.add_right_comm]
      exact h.child i d hd

/-- Indentation before the first flaw is no matter. -/
theorem firstFlaw_text (hs : isBlankText s = true) (hrest : FirstFlaw k rest v) :
    FirstFlaw k (.text s :: rest) v := by
  obtain ⟨before, piece, after, rfl, hbefore, hflaw⟩ := hrest
  exact ⟨.text s :: before, piece, after, rfl, regular_text_iff.mpr ⟨hs, hbefore⟩, hflaw⟩

theorem firstFlaw_child (hc : TakesTurn k c) (hrest : FirstFlaw (k + 1) rest v) :
    FirstFlaw k (.child c :: rest) v := by
  obtain ⟨before, piece, after, rfl, hbefore, hflaw⟩ := hrest
  refine ⟨.child c :: before, piece, after, rfl, regular_child_iff.mpr ⟨hc, hbefore⟩, ?_⟩
  rwa [Content.children_cons_child, List.length_cons, Nat.add_comm _ 1, ← Nat.add_assoc]

/-- A piece with a flaw after nothing is the first one. -/
theorem Flaw.firstFlaw {piece : Content Element} (h : Flaw k piece v) :
    FirstFlaw k (piece :: rest) v :=
  ⟨[], piece, rest, rfl, regular_nil k, h⟩

/-- A child takes its turn or has a flaw. -/
theorem takesTurn_or_exists_flaw (k : Nat) (c : Element) :
    TakesTurn k c ∨ ∃ v, Flaw k (.child c) v := by
  by_cases hname : c.name = turnTag k
  · cases hn : (turnForm k).build c with
    | ok n => exact Or.inl ⟨hname, n, hn⟩
    | error v => exact Or.inr ⟨v, .refused hname hn⟩
  · -- a term or a definition out of turn tells whether a term was pending
    right
    by_cases hterm : c.name = NodeKind.varListEntry.tag
    · refine ⟨_, .consecutive ?_ hterm⟩
      by_contra hk
      exact hname (hterm.trans (if_pos (by omega)).symm)
    · by_cases hdefinition : c.name = NodeKind.listItem.tag
      · refine ⟨_, .unannounced ?_ hdefinition⟩
        by_contra hk
        exact hname (hdefinition.trans (if_neg hk).symm)
      · exact ⟨_, .foreign hterm hdefinition⟩

/-- **A content is regular, or has a first flaw.** -/
theorem regular_or_exists_firstFlaw (k : Nat) (content : List (Content Element)) :
    Regular k content ∨ ∃ v, FirstFlaw k content v := by
  induction content generalizing k with
  | nil => exact Or.inl (regular_nil k)
  | cons piece rest ih =>
    -- Either this piece is flawed, or the first flaw of the rest is the first of all.
    cases piece with
    | text s =>
      cases hs : isBlankText s with
      | false => exact Or.inr ⟨_, (Flaw.text hs).firstFlaw⟩
      | true =>
        rcases ih k with hrest | ⟨v, hrest⟩
        · exact Or.inl (regular_text_iff.mpr ⟨hs, hrest⟩)
        · exact Or.inr ⟨v, firstFlaw_text hs hrest⟩
    | child c =>
      rcases takesTurn_or_exists_flaw k c with hc | ⟨v, hflaw⟩
      · rcases ih (k + 1) with hrest | ⟨v, hrest⟩
        · exact Or.inl (regular_child_iff.mpr ⟨hc, hrest⟩)
        · exact Or.inr ⟨v, firstFlaw_child hc hrest⟩
      · exact Or.inr ⟨v, hflaw.firstFlaw⟩

/-! ### The pass -/

/-- After `k` children of these kinds, last one first, a term is pending if `k` is odd. -/
def Awaits (before : List NodeKind) (k : Nat) : Prop :=
  before.head? = some .varListEntry ↔ k % 2 = 1

theorem awaits_nil : Awaits [] 0 := by simp [Awaits]

/-- When a term is awaited, none is pending. -/
theorem Awaits.head?_ne (hawaits : Awaits before k) (hk : k % 2 = 0) :
    before.head? ≠ some .varListEntry := by
  intro hpending
  have hodd := hawaits.mp hpending
  omega

/-- Every other turn is that of a term. -/
theorem kindOf_turnTag_eq_term_iff : kindOf (turnTag k) = .varListEntry ↔ k % 2 = 0 := by
  by_cases hk : k % 2 = 0
  · simp [turnTag, hk, kindOf_term]
  · simp [turnTag, hk, kindOf_definition]

/-- The next child changes whether a term is pending. -/
theorem awaits_succ {n : Node} (hname : c.name = turnTag k) (hn : (turnForm k).build c = .ok n) :
    Awaits (n.kind :: before) (k + 1) := by
  rw [Awaits, List.head?_cons, Form.kind_of_build hn, hname, Option.some.injEq,
    kindOf_turnTag_eq_term_iff]
  omega

/-- A child has a place where it is its turn. -/
theorem place_turnTag (hawaits : Awaits before k) :
    Form.variableList.place before (turnTag k) = .ok (Form.many (turnTag k) (turnForm k)) := by
  rw [Form.place_eq_ok_iff]
  by_cases hk : k % 2 = 0
  · simp only [turnTag, turnForm, if_pos hk]
    exact ⟨by decide, fun _ => ⟨fun _ => hawaits.head?_ne hk, fun h => absurd h (by decide)⟩⟩
  · have hpending : before.head? = some .varListEntry := hawaits.mpr (by omega)
    simp only [turnTag, turnForm, if_neg hk]
    exact ⟨by decide, fun _ => ⟨fun h => absurd h (by decide), fun _ => hpending⟩⟩

/-- Only terms and definitions have places. -/
theorem place_of_foreign (hterm : c.name ≠ NodeKind.varListEntry.tag)
    (hdefinition : c.name ≠ NodeKind.listItem.tag) :
    Form.variableList.place before c.name = .error (.unexpectedElement c.name) := by
  have hslot : Form.variableList.slot? c.name = none := by
    cases hslot : Form.variableList.slot? c.name with
    | none => rfl
    | some slot =>
      rcases Form.tag_eq_of_slot?_variableList hslot with htag | htag
      · exact absurd htag hterm
      · exact absurd htag hdefinition
  simp [Form.place, hterm, hdefinition, hslot]

theorem buildContent_blank (hs : isBlankText s = true) :
    Form.variableList.buildContent name before (.text s :: rest)
      = Form.variableList.buildContent name before rest := by
  have hkept : Form.variableList.model.keeps s = .ok false := if_pos hs
  rw [Form.buildContent, hkept]
  cases Form.variableList.buildContent name before rest <;> rfl

/-- **A child that takes its turn** is built, and the list goes on. -/
theorem buildContent_turn {n : Node} (hawaits : Awaits before k) (hname : c.name = turnTag k)
    (hn : (turnForm k).build c = .ok n) :
    Form.variableList.buildContent name before (.child c :: rest)
      = (Form.variableList.buildContent name (n.kind :: before) rest).map (.child n :: ·) := by
  rw [Form.buildContent, hname, place_turnTag hawaits]
  simp only [Form.many, hn]
  show (Form.variableList.buildContent name (n.kind :: before) rest
    >>= fun others => .ok (.child n :: others)) = _
  cases Form.variableList.buildContent name (n.kind :: before) rest <;> rfl

/-- A child without a place is refused by the list, whether or not it would be built. -/
theorem buildContent_of_place {defect : Defect}
    (hplace : Form.variableList.place before c.name = .error defect) :
    Form.variableList.buildContent "variablelist" before (.child c :: rest)
      = .error (violation defect) := by
  rw [Form.buildContent, hplace]
  rfl

/-- **The pass stops at a piece with a flaw**, whatever comes after it. -/
theorem Flaw.buildContent_eq {piece : Content Element} (hawaits : Awaits before k)
    (h : Flaw k piece v) :
    Form.variableList.buildContent "variablelist" before (piece :: rest) = .error v := by
  -- Each flaw is met by the test for it, given what the builder awaits.
  cases h with
  | @text s hs =>
    have hkept : Form.variableList.model.keeps s = .error (.unexpectedText (trimmed s)) :=
      if_neg (by simp [hs])
    rw [Form.buildContent, hkept]
    rfl
  | consecutive hk hname =>
    have hpending := hawaits.mpr hk
    exact buildContent_of_place (by simp [Form.place, hname, hpending])
  | unannounced hk hname =>
    have hfree := hawaits.head?_ne hk
    have hne : NodeKind.listItem.tag ≠ NodeKind.varListEntry.tag := by decide
    exact buildContent_of_place (by simp [Form.place, hname, hfree, hne])
  | refused hname hv =>
    rw [Form.buildContent, hname, place_turnTag hawaits]
    simp only [Form.many, hv]
    rfl
  | foreign hterm hdefinition => exact buildContent_of_place (place_of_foreign hterm hdefinition)

/-- The pass stops at the first flaw, by induction over what comes before it. -/
theorem FirstFlaw.buildContent_eq (hawaits : Awaits before k) (h : FirstFlaw k content v) :
    Form.variableList.buildContent "variablelist" before content = .error v := by
  obtain ⟨done, piece, after, rfl, hdone, hflaw⟩ := h
  induction done generalizing before k with
  | nil => exact hflaw.buildContent_eq hawaits
  | cons passed done ih =>
    -- what is passed is kept or dropped, and the builder awaits the next in turn
    cases passed with
    | text s =>
      obtain ⟨hs, hdone⟩ := regular_text_iff.mp hdone
      rw [List.cons_append, buildContent_blank hs]
      exact ih hawaits hdone hflaw
    | child c =>
      obtain ⟨⟨hname, n, hn⟩, hdone⟩ := regular_child_iff.mp hdone
      rw [Content.children_cons_child, List.length_cons, Nat.add_comm _ 1, ← Nat.add_assoc]
        at hflaw
      rw [List.cons_append, buildContent_turn hawaits hname hn,
        ih (awaits_succ hname hn) hdone hflaw]
      rfl

/-- The nodes of children after `k` others. -/
structure Built (k : Nat) (children : List Element) (nodes : List Node) : Prop where
  length_eq : nodes.length = children.length
  node : ∀ i c, children[i]? = some c →
    ∃ n, (turnForm (k + i)).build c = .ok n ∧ n.kind = kindOf (turnTag (k + i))
      ∧ nodes[i]? = some n

/-- **The children of a regular content are built.** -/
theorem Regular.exists_built (hawaits : Awaits before k) (h : Regular k content) :
    ∃ nodes : List Node, Built k (Content.children content) nodes
      ∧ Form.variableList.buildContent name before content = .ok (nodes.map .child) := by
  induction content generalizing before k with
  | nil =>
    refine ⟨[], ⟨rfl, fun i c hc => ?_⟩, Form.buildContent_nil⟩
    simp at hc
  | cons piece rest ih =>
    -- A blank is dropped; a child in turn is built, and the next is awaited.
    cases piece with
    | text s =>
      obtain ⟨hs, hrest⟩ := regular_text_iff.mp h
      rw [buildContent_blank hs]
      exact ih hawaits hrest
    | child c =>
      obtain ⟨⟨hname, n, hn⟩, hrest⟩ := regular_child_iff.mp h
      obtain ⟨nodes, hbuilt, hnodes⟩ := ih (awaits_succ hname hn) hrest
      rw [Content.children_cons_child, buildContent_turn hawaits hname hn, hnodes]
      refine ⟨n :: nodes, ⟨congrArg Nat.succ hbuilt.length_eq, fun i d hd => ?_⟩, rfl⟩
      cases i with
      | zero =>
        obtain rfl : c = d := by simpa using hd
        exact ⟨n, hn, hname ▸ Form.kind_of_build hn, rfl⟩
      | succ i =>
        rw [← Nat.add_assoc, Nat.add_right_comm]
        exact hbuilt.node i d hd

/-! ### Pairs -/

/-- **The last term is pending** if the number of children is odd. -/
theorem Built.getLast?_eq_term_iff {children : List Element} {nodes : List Node}
    (h : Built 0 children nodes) :
    nodes.getLast?.map (·.kind) = some .varListEntry ↔ children.length % 2 = 1 := by
  rw [List.getLast?_eq_getElem?, h.length_eq]
  cases hc : children[children.length - 1]? with
  | none =>
    rw [List.getElem?_eq_none_iff] at hc
    have hnil : children = [] := List.eq_nil_of_length_eq_zero (by omega)
    subst hnil
    simp [List.eq_nil_of_length_eq_zero h.length_eq]
  -- the last child is a term if the children before it are even in number
  | some c =>
    have hlt := (List.getElem?_eq_some_iff.mp hc).1
    obtain ⟨n, -, hkind, hn⟩ := h.node _ c hc
    rw [hn, Option.map_some, hkind, Option.some.injEq, kindOf_turnTag_eq_term_iff]
    omega

theorem children_map_child (nodes : List Node) :
    Content.children (nodes.map .child) = nodes := by
  induction nodes with
  | nil => rfl
  | cons n nodes ih => exact congrArg (n :: ·) ih

/-- The closing condition of a list is that no term is pending. -/
theorem checkClosing_eq (content : List (Content Element)) (nodes : List Node) :
    Form.variableList.checkClosing { name := "variablelist", content } (nodes.map .child)
      = if nodes.getLast?.map (·.kind) = some .varListEntry then
          .error (violation .unpairedTerm)
        else .ok () := by
  show Violation.blame _ (Form.Closing.paired.check _ _ >>= fun _ => .ok ()) = _
  rw [Form.Closing.check, children_map_child]
  split <;> rfl

/-- There are half as many pairs. -/
theorem length_pairs : ∀ nodes : List Node, (pairs nodes).length = nodes.length / 2
  | [] => rfl
  | [_] => by simp [pairs]
  | _ :: _ :: rest => by
    rw [pairs, List.length_cons, length_pairs rest, List.length_cons, List.length_cons]
    omega

/-- Two nodes next to each other, the first at an even place, make a pair. -/
theorem getElem?_pairs {term definition : Node} : ∀ {nodes : List Node} {i : Nat},
    nodes[2 * i]? = some term → nodes[2 * i + 1]? = some definition →
    (pairs nodes)[i]?
      = some { kind := .varListPair, content := [.child term, .child definition] }
  | [], _, hterm, _ => by simp at hterm
  | [_], _, _, hdefinition => by simp at hdefinition
  | _ :: _ :: _, 0, hterm, hdefinition => by
    obtain rfl := Option.some.inj hterm
    obtain rfl := Option.some.inj hdefinition
    rfl
  | _ :: _ :: _, i + 1, hterm, hdefinition => by
    rw [pairs, List.getElem?_cons_succ]
    exact getElem?_pairs (i := i) hterm hdefinition

/-- The node of a list: a pair for every two children, of a term and its definition. -/
structure IsPaired (children : List Element) (n : Node) : Prop where
  kind : n.kind = .variableList
  data : n.data = .bare
  skipParagraph : n.skipParagraph = false
  length_eq : n.content.length = children.length / 2
  pair : ∀ i c d, children[2 * i]? = some c → children[2 * i + 1]? = some d →
    ∃ term definition, Form.variableEntry.build c = .ok term
      ∧ Form.listItem.build d = .ok definition
      ∧ n.content[i]? =
        some (.child { kind := .varListPair, content := [.child term, .child definition] })

/-- There is one such node. -/
theorem IsPaired.unique {children : List Element} {n m : Node} (hn : IsPaired children n)
    (hm : IsPaired children m) : n = m := by
  have hcontent : n.content = m.content := by
    apply List.ext_getElem?
    intro i
    by_cases hi : i < children.length / 2
    · have hc : 2 * i < children.length := by omega
      have hd : 2 * i + 1 < children.length := by omega
      -- both nodes hold what the builders make of the same two children
      obtain ⟨term, definition, hterm, hdefinition, hpair⟩ :=
        hn.pair i _ _ (List.getElem?_eq_getElem hc) (List.getElem?_eq_getElem hd)
      obtain ⟨term', definition', hterm', hdefinition', hpair'⟩ :=
        hm.pair i _ _ (List.getElem?_eq_getElem hc) (List.getElem?_eq_getElem hd)
      obtain rfl := Except.ok.inj (hterm.symm.trans hterm')
      obtain rfl := Except.ok.inj (hdefinition.symm.trans hdefinition')
      rw [hpair, hpair']
    · rw [List.getElem?_eq_none (by rw [hn.length_eq]; omega),
        List.getElem?_eq_none (by rw [hm.length_eq]; omega)]
  obtain ⟨kind, data, content, skipParagraph⟩ := n
  obtain ⟨kind', data', content', skipParagraph'⟩ := m
  simp only [Node.mk.injEq]
  exact ⟨hn.kind.trans hm.kind.symm, hn.data.trans hm.data.symm, hcontent,
    hn.skipParagraph.trans hm.skipParagraph.symm⟩

/-- The pairs of all children are the node of the list. -/
theorem Built.isPaired {children : List Element} {nodes : List Node} (h : Built 0 children nodes)
    (content : List (Content Element)) :
    IsPaired children
      (Form.variableList.node { name := "variablelist", content } (nodes.map .child)) where
  kind := Form.kindOf_tag (k := .variableList) (by decide)
  data := rfl
  skipParagraph := rfl
  length_eq := by
    show (List.map Content.child (pairs (Content.children (nodes.map .child)))).length = _
    rw [List.length_map, children_map_child, length_pairs, h.length_eq]
  pair i c d hc hd := by
    obtain ⟨term, hterm, -, hleft⟩ := h.node _ c hc
    obtain ⟨definition, hdefinition, -, hright⟩ := h.node _ d hd
    rw [Nat.zero_add, turnForm, if_pos (by omega)] at hterm
    rw [Nat.zero_add, turnForm, if_neg (by omega)] at hdefinition
    refine ⟨term, definition, hterm, hdefinition, ?_⟩
    show (List.map Content.child (pairs (Content.children (nodes.map .child))))[i]? = _
    rw [children_map_child, List.getElem?_map, getElem?_pairs hleft hright, Option.map_some]

/-! ### The list as a whole -/

/-- A variable list has no attributes, so it is built if its content and its last child are in
order. -/
theorem build_eq (content : List (Content Element)) :
    Form.variableList.build { name := "variablelist", content }
      = (Form.variableList.buildContent "variablelist" [] content).bind fun inner =>
          (Form.variableList.checkClosing { name := "variablelist", content } inner).map fun _ =>
            Form.variableList.node { name := "variablelist", content } inner := by
  rw [Form.build_eq]
  show (Form.variableList.buildContent "variablelist" [] content >>= fun inner => _) = _
  cases Form.variableList.buildContent "variablelist" [] content with
  | error v => rfl
  | ok inner =>
    cases Form.variableList.checkClosing { name := "variablelist", content } inner <;> rfl

/-- **The first flaw** is what a list is refused for. -/
theorem FirstFlaw.build_eq (h : FirstFlaw 0 content v) :
    Form.variableList.build { name := "variablelist", content } = .error v := by
  rw [VariableList.build_eq, h.buildContent_eq awaits_nil]
  rfl

/-- A regular list becomes a node if the number of its children is even. -/
theorem Regular.exists_build_eq (h : Regular 0 content) :
    ∃ n, IsPaired (Content.children content) n
      ∧ Form.variableList.build { name := "variablelist", content }
        = if (Content.children content).length % 2 = 1 then .error (violation .unpairedTerm)
          else .ok n := by
  obtain ⟨nodes, hbuilt, hnodes⟩ := h.exists_built awaits_nil
  refine ⟨_, hbuilt.isPaired content, ?_⟩
  rw [VariableList.build_eq, hnodes]
  show (Form.variableList.checkClosing _ (nodes.map .child)).map _ = _
  rw [checkClosing_eq]
  simp only [hbuilt.getLast?_eq_term_iff]
  split <;> rfl

/-- **A variable list without attributes** becomes a node if terms and definitions alternate in it,
as many of the ones as of the others, each of which is built, with whitespace between them.  Its
node has a pair for every two children.  Otherwise the first flaw is the answer, and if there is
none, the last term is without a definition. -/
theorem build_variableList (content : List (Content Element)) :
    (∀ n, Form.variableList.build ⟨"variablelist", [], content⟩ = .ok n
        ↔ Regular 0 content ∧ (Content.children content).length % 2 = 0
          ∧ IsPaired (Content.children content) n)
      ∧ ∀ v, Form.variableList.build ⟨"variablelist", [], content⟩ = .error v
        ↔ FirstFlaw 0 content v
          ∨ Regular 0 content ∧ (Content.children content).length % 2 = 1
            ∧ v = violation .unpairedTerm := by
  -- A content is regular or has a first flaw, and what is built of it is known in both cases.
  refine ⟨fun n => ⟨fun hn => ?_, ?_⟩, fun v => ⟨fun hv => ?_, ?_⟩⟩
  · rcases regular_or_exists_firstFlaw 0 content with hregular | ⟨w, hw⟩
    · obtain ⟨m, hm, hbuild⟩ := hregular.exists_build_eq
      rw [hn] at hbuild
      split at hbuild
      · cases hbuild
      · obtain rfl := Except.ok.inj hbuild
        exact ⟨hregular, by omega, hm⟩
    · cases hn.symm.trans hw.build_eq
  · rintro ⟨hregular, heven, hn⟩
    obtain ⟨m, hm, hbuild⟩ := hregular.exists_build_eq
    rwa [if_neg (by omega), hm.unique hn] at hbuild
  · rcases regular_or_exists_firstFlaw 0 content with hregular | ⟨w, hw⟩
    · obtain ⟨m, hm, hbuild⟩ := hregular.exists_build_eq
      rw [hv] at hbuild
      split at hbuild
      · exact Or.inr ⟨hregular, ‹_›, Except.error.inj hbuild⟩
      · cases hbuild
    · obtain rfl := Except.error.inj (hv.symm.trans hw.build_eq)
      exact Or.inl hw
  · rintro (hflaw | ⟨hregular, hodd, rfl⟩)
    · exact hflaw.build_eq
    · obtain ⟨m, hm, hbuild⟩ := hregular.exists_build_eq
      rwa [if_pos hodd] at hbuild

/-- The second term is refused for its place, not for its attribute. -/
example :
    let term : Element := { name := "varlistentry" }
    let labelled : Element := { name := "varlistentry", attributes := [⟨"id", "t"⟩] }
    Form.variableList.build ⟨"variablelist", [], [.child term, .text " ", .child labelled]⟩
      = .error (violation .consecutiveTerms) := by
  rfl

end VariableList

end DocGraph
