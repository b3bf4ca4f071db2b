import DocGraph.Schema.Hoist

namespace DocGraph

/-!
# What data says of children

Once a content is finished, it can be read for what the data of a node should say of its children:

* `placeOf?`, `placesOf` — where children of given kinds stand;
* `firstText?`, `lastText?` — the text of children of a kind;
* `dataOfKinds`, `lastData?` — the data of children of given kinds.

The ways in which data may speak of children, each with the reading that comes to it:

* `Node.HoldsOnly` — the place of the only child of a kind, as `placeOf?` finds it;
* `Node.HoldsAll` — the places of all children of some kinds, as `placesOf` lists them;
* `Node.HasData`, `Node.HasLastData` — the data of children of some kinds (`map_filterMap_data`);
* `Node.HasOnlyText`, `Node.HasLastText` — the text of a child, as `firstText?` and `lastText?`
  tell.
-/

/-! ### Reading the content -/

/-- Whether a piece of content is a node of a kind. -/
def Content.hasKind (kind : NodeKind) : Content Node → Bool
  | .text _ => false
  | .child n => n.kind == kind

/-- The place of the first child of a kind. -/
def placeOf? (kind : NodeKind) (content : List (Content Node)) : Option Nat :=
  content.findIdx? (·.hasKind kind)

/-- The places, from `start` on, of all children of some kinds. -/
def placesFrom (start : Nat) (kinds : List NodeKind) : List (Content Node) → List Nat
  | [] => []
  | c :: rest =>
    let others := placesFrom (start + 1) kinds rest
    if kinds.any (c.hasKind ·) then start :: others else others

/-- The places of all children of some kinds. -/
def placesOf (kinds : List NodeKind) (content : List (Content Node)) : List Nat :=
  placesFrom 0 kinds content

/-- The children of a kind, in order. -/
def ofKind (kind : NodeKind) (content : List (Content Node)) : List Node :=
  (Content.children content).filter (·.kind == kind)

/-- The text of the first child of a kind. -/
def firstText? (kind : NodeKind) (content : List (Content Node)) : Option String :=
  (ofKind kind content).head?.map Node.text

/-- The text of the last child of a kind. -/
def lastText? (kind : NodeKind) (content : List (Content Node)) : Option String :=
  (ofKind kind content).getLast?.map Node.text

/-- Data of a sort, of all children of some kinds. -/
def dataOfKinds {α : Type} (kinds : List NodeKind) (get : NodeData → Option α)
    (content : List (Content Node)) : List α :=
  ((Content.children content).filter (·.kind ∈ kinds)).filterMap fun n => get n.data

/-- Data of a sort, of the last child of a kind that has such data. -/
def lastData? {α : Type} (kind : NodeKind) (get : NodeData → Option α)
    (content : List (Content Node)) : Option α :=
  ((ofKind kind content).filterMap fun n => get n.data).getLast?

/-! ### What may be said -/

namespace Node

/-- A place is that of the only child of a kind; there is none if and only if there is no child of
the kind. -/
structure HoldsOnly (n : Node) (kind : NodeKind) (place : Option Nat) : Prop where
  some_iff : ∀ i, place = some i ↔ ∃ m, n.childrenOf kind = [m] ∧ n.childAt? i = some m
  none_iff : place = none ↔ n.childrenOf kind = []

/-- Places are those of all children of some kinds, in order. -/
structure HoldsAll (n : Node) (kinds : List NodeKind) (places : List Nat) : Prop where
  ascending : places.Pairwise (· < ·)
  mem_iff : ∀ i, i ∈ places ↔ ∃ m, n.childAt? i = some m ∧ m.kind ∈ kinds

/-- The children of some kinds have this data, in order. -/
def HasData (n : Node) (kinds : List NodeKind) (data : List NodeData) : Prop :=
  (n.children.filter (·.kind ∈ kinds)).map (·.data) = data

/-- The data of the last child of a kind, if there is such a child. -/
def HasLastData (n : Node) (kind : NodeKind) (data : Option NodeData) : Prop :=
  (n.childrenOf kind).getLast?.map (·.data) = data

/-- A text is that of the only child of a kind; without a text there is no such child. -/
def HasOnlyText (n : Node) (kind : NodeKind) : Option String → Prop
  | some text => ∃ m, n.childrenOf kind = [m] ∧ m.text = text
  | none => n.childrenOf kind = []

/-- A text is that of the last child of a kind, if there is such a child. -/
def HasLastText (n : Node) (kind : NodeKind) (text : Option String) : Prop :=
  (n.childrenOf kind).getLast?.map Node.text = text

end Node

/-! ### Places -/

section

variable {kind : NodeKind} {content : List (Content Node)} {m : Node}

theorem mem_ofKind_iff :
    m ∈ ofKind kind content ↔ m ∈ Content.children content ∧ m.kind = kind := by
  rw [ofKind, List.mem_filter, beq_iff_eq]

/-- What stands at a place and is no character data is a child. -/
theorem mem_children_of_getElem? {i : Nat} (hm : content[i]?.bind (·.child?) = some m) :
    m ∈ Content.children content := by
  obtain ⟨c, hc, hm⟩ := Option.bind_eq_some_iff.mp hm
  exact List.mem_filterMap.mpr ⟨c, List.mem_of_getElem? hc, hm⟩

theorem ofKind_text (s : String) (rest : List (Content Node)) :
    ofKind kind (.text s :: rest) = ofKind kind rest := rfl

/-- A child is the first of its kind, or of another kind. -/
theorem ofKind_child (n : Node) (rest : List (Content Node)) :
    ofKind kind (.child n :: rest)
      = if n.kind = kind then n :: ofKind kind rest else ofKind kind rest := by
  rw [ofKind, Content.children_cons_child, List.filter_cons]
  by_cases hkind : n.kind = kind <;> simp [hkind, ofKind]

/-- **The first place of a kind** is that of the only child, if there is not more than one. -/
theorem placeOf?_eq_some_iff (honce : (ofKind kind content).length ≤ 1) (i : Nat) :
    placeOf? kind content = some i
      ↔ ∃ m, ofKind kind content = [m] ∧ content[i]?.bind (·.child?) = some m := by
  induction content generalizing i with
  | nil => simp [placeOf?, ofKind, Content.children]
  | cons c rest ih =>
    have hplace : placeOf? kind (c :: rest)
        = if c.hasKind kind then some 0 else (placeOf? kind rest).map (· + 1) :=
      List.findIdx?_cons
    rw [hplace]
    cases c with
    | text s =>
      rw [ofKind_text] at honce ⊢
      cases i with
      | zero => simp [Content.hasKind, Content.child?]
      | succ i => simpa [Content.hasKind] using ih honce i
    | child n =>
      rw [ofKind_child] at honce ⊢
      by_cases hkind : n.kind = kind
      · rw [if_pos hkind] at honce ⊢
        have hrest : ofKind kind rest = [] := by
          rw [← List.length_eq_zero_iff]
          simpa using honce
        simp only [Content.hasKind, hkind, beq_self_eq_true, if_true, Option.some.injEq, hrest]
        cases i with
        | zero => simp [Content.child?]
        | succ i =>
          -- the child is the first piece, so it is no later one
          have hlater : rest[i]?.bind (·.child?) ≠ some n := fun hn => by
            have hmem := mem_ofKind_iff.mpr ⟨mem_children_of_getElem? hn, hkind⟩
            rw [hrest] at hmem
            exact List.not_mem_nil hmem
          simpa using hlater
      · rw [if_neg hkind] at honce ⊢
        cases i with
        | zero =>
          have hfirst : ofKind kind rest ≠ [n] := fun hn =>
            hkind (mem_ofKind_iff.mp (hn ▸ List.mem_singleton_self n)).2
          simpa [Content.hasKind, hkind, Content.child?] using hfirst
        | succ i => simpa [Content.hasKind, hkind] using ih honce i

/-- There is no place if there is no child of the kind. -/
theorem placeOf?_eq_none_iff : placeOf? kind content = none ↔ ofKind kind content = [] := by
  rw [placeOf?, List.findIdx?_eq_none_iff, List.eq_nil_iff_forall_not_mem]
  simp only [mem_ofKind_iff, Content.children, List.mem_filterMap]
  constructor
  · rintro hnone m ⟨⟨c, hc, hm⟩, hkind⟩
    cases c with
    | text s => simp [Content.child?] at hm
    | child n =>
      obtain rfl := Option.some.inj hm
      simpa [Content.hasKind, hkind] using hnone _ hc
  · intro hnone c hc
    cases c with
    | text s => rfl
    | child n =>
      have hkind : n.kind ≠ kind := fun hkind => hnone n ⟨⟨_, hc, rfl⟩, hkind⟩
      simpa [Content.hasKind] using hkind

end

section

variable {kinds : List NodeKind} {content : List (Content Node)} {start : Nat}

theorem le_of_mem_placesFrom {i : Nat} (hi : i ∈ placesFrom start kinds content) : start ≤ i := by
  induction content generalizing start with
  | nil => simp [placesFrom] at hi
  | cons c rest ih =>
    rw [placesFrom] at hi
    split at hi
    · rcases List.mem_cons.mp hi with rfl | hi
      · exact Nat.le_refl _
      · exact Nat.le_of_succ_le (ih hi)
    · exact Nat.le_of_succ_le (ih hi)

/-- **Places stand in their order**, and none of them twice. -/
theorem pairwise_placesFrom : (placesFrom start kinds content).Pairwise (· < ·) := by
  induction content generalizing start with
  | nil => exact List.Pairwise.nil
  | cons c rest ih =>
    rw [placesFrom]
    split
    · exact List.pairwise_cons.mpr ⟨fun i hi => le_of_mem_placesFrom hi, ih⟩
    · exact ih

/-- A piece of content is of some kinds if it is a child of one of them. -/
theorem any_hasKind_iff {c : Content Node} :
    kinds.any (c.hasKind ·) = true ↔ ∃ m, c.child? = some m ∧ m.kind ∈ kinds := by
  rw [List.any_eq_true]
  cases c with
  | text s => simp [Content.hasKind, Content.child?]
  | child n => simp [Content.hasKind, Content.child?]

/-- **A place is listed** if and only if there is a child of these kinds. -/
theorem mem_placesFrom_iff (i : Nat) :
    start + i ∈ placesFrom start kinds content
      ↔ ∃ m, content[i]?.bind (·.child?) = some m ∧ m.kind ∈ kinds := by
  induction content generalizing start i with
  | nil => simp [placesFrom]
  | cons c rest ih =>
    -- Places of the rest begin one later, so the first place is there only by its own piece.
    have hfirst : start ∉ placesFrom (start + 1) kinds rest := fun hmem =>
      Nat.not_succ_le_self start (le_of_mem_placesFrom hmem)
    rw [placesFrom]
    cases i with
    | zero =>
      rw [List.getElem?_cons_zero, Option.bind_some, ← any_hasKind_iff]
      split <;> simp_all
    | succ i =>
      have hnext : start + (i + 1) = start + 1 + i := by omega
      rw [List.getElem?_cons_succ, ← @ih (start + 1) i, hnext]
      split
      · rw [List.mem_cons, or_iff_right (by omega)]
      · rfl

end

/-! ### Data and texts -/

/-- **Data that is picked out** of every one of some nodes is theirs. -/
theorem map_filterMap_data {α : Type} {nodes : List Node} {get : NodeData → Option α}
    {put : α → NodeData} (hput : ∀ m ∈ nodes, ∃ d, get m.data = some d ∧ m.data = put d) :
    (nodes.filterMap fun m => get m.data).map put = nodes.map (·.data) := by
  induction nodes with
  | nil => rfl
  | cons m nodes ih =>
    obtain ⟨⟨d, hd, hdata⟩, hrest⟩ := List.forall_mem_cons.mp hput
    have hfirst : (m :: nodes).filterMap (fun m => get m.data)
        = d :: nodes.filterMap fun m => get m.data := List.filterMap_cons_some hd
    rw [hfirst, List.map_cons, List.map_cons, ih hrest, hdata]

namespace Node

variable {n : Node} {kind : NodeKind}

/-- The reading of places is right where there is at most one child of a kind. -/
theorem holdsOnly_placeOf? (honce : (n.childrenOf kind).length ≤ 1) :
    n.HoldsOnly kind (placeOf? kind n.content) :=
  ⟨placeOf?_eq_some_iff honce, placeOf?_eq_none_iff⟩

/-- All places are found by going through the content. -/
theorem holdsAll_placesOf (n : Node) (kinds : List NodeKind) :
    n.HoldsAll kinds (placesOf kinds n.content) := by
  refine ⟨pairwise_placesFrom, fun i => ?_⟩
  have hplaces : 0 + i ∈ placesFrom 0 kinds n.content
      ↔ ∃ m, n.childAt? i = some m ∧ m.kind ∈ kinds := mem_placesFrom_iff i
  rw [Nat.zero_add] at hplaces
  exact hplaces

/-- Where there is one child at most, its text is the first one. -/
theorem hasOnlyText_firstText? (honce : (n.childrenOf kind).length ≤ 1) :
    n.HasOnlyText kind (firstText? kind n.content) := by
  have hread : firstText? kind n.content = (n.childrenOf kind).head?.map Node.text := rfl
  rw [hread]
  match hchildren : n.childrenOf kind with
  | [] => exact hchildren
  | [m] => exact ⟨m, hchildren, rfl⟩
  | _ :: _ :: _ => simp [hchildren] at honce

/-- Data that every child of some kinds has is read off all of them. -/
theorem hasData_dataOfKinds {α : Type} {kinds : List NodeKind} {get : NodeData → Option α}
    {put : α → NodeData}
    (hput : ∀ m ∈ n.children, m.kind ∈ kinds → ∃ d, get m.data = some d ∧ m.data = put d) :
    n.HasData kinds ((dataOfKinds kinds get n.content).map put) := by
  refine (map_filterMap_data fun m hm => ?_).symm
  obtain ⟨hchild, hkind⟩ := List.mem_filter.mp hm
  exact hput m hchild (of_decide_eq_true hkind)

/-- The same of the last child of a kind. -/
theorem hasLastData_lastData? {α : Type} {get : NodeData → Option α} {put : α → NodeData}
    (hput : ∀ m ∈ n.children, m.kind = kind → ∃ d, get m.data = some d ∧ m.data = put d) :
    n.HasLastData kind ((lastData? kind get n.content).map put) := by
  have hall : ∀ m ∈ ofKind kind n.content, ∃ d, get m.data = some d ∧ m.data = put d := by
    intro m hm
    obtain ⟨hchild, hkind⟩ := mem_ofKind_iff.mp hm
    exact hput m hchild hkind
  rw [lastData?, ← List.getLast?_map, map_filterMap_data hall, List.getLast?_map]
  rfl

/-- The reading of texts is right, whatever children there are. -/
theorem hasLastText_lastText? (n : Node) (kind : NodeKind) :
    n.HasLastText kind (lastText? kind n.content) := rfl

end Node

end DocGraph
