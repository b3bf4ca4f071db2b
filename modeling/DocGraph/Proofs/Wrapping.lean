import DocGraph.Proofs.Entries
import DocGraph.Proofs.LinkedObjects
import DocGraph.Proofs.Making
import DocGraph.Proofs.Roots

namespace DocGraph

/-!
# What becomes of compounds

Every compound of a document has an object, or there is a warning that says why it has none.

* `Node.IsShownAs`, `IsOutcome` — what becomes of a compound, given the ids used before;
* `identify_cons_compound` — a single step decides on one compound and takes note of its id;
* `getElem?_identify` — hence the outcome for each of them, which depends on those before it;
* `Arena.Wraps` — the objects and warnings of a document, and what they have to do with it;
* `Graph.KeepsObjects`, `Arena.keepsObjects_toGraph` — what linking changes in the objects, and what
  it leaves as it is;
* `Arena.wraps_ofDocument` — the main statement: nothing is lost and nothing made up, neither here
  nor by linking.
-/

/-! ### Outcomes -/

/-- A node is a compound with an id, and of a kind that has objects. -/
def Node.IsShownAs (n : Node) (id : String) : Prop :=
  ∃ c, n.data = .compound c ∧ c.id = id ∧ (ObjectKind.ofCompound? c).isSome

/-- What becomes of a compound at a place, where some ids have been used before. -/
inductive IsOutcome (p : PermalinkStyle) (n : Node) (place : Nat) (used : String → Prop) :
    Except Omission Object → Prop
  /-- It has an object, if its kind has objects and no other one has its id. -/
  | object (c : CompoundDef) (kind : ObjectKind) : n.data = .compound c →
    ObjectKind.ofCompound? c = some kind → ¬ used c.id →
    IsOutcome p n place used (.ok (Object.ofCompound p c kind place))
  /-- There is a warning about its kind, if that has no objects. -/
  | unsupported (c : CompoundDef) : n.data = .compound c → ObjectKind.ofCompound? c = none →
    IsOutcome p n place used (.error (.unsupportedKind c.id c.kind))
  /-- There is a warning about its id, if another one has it. -/
  | duplicate (c : CompoundDef) (kind : ObjectKind) : n.data = .compound c →
    ObjectKind.ofCompound? c = some kind → used c.id →
    IsOutcome p n place used (.error (.duplicateId c.id))

section

variable {p : PermalinkStyle} {n : Node} {nodes : List Node} {place i : Nat} {taken : List String}
variable {used : String → Prop} {outcome : Except Omission Object} {c : CompoundDef}

/-- A compound has one outcome, which its kind and its id tell. -/
theorem isOutcome_iff (hc : n.data = .compound c) :
    IsOutcome p n place used outcome ↔ match ObjectKind.ofCompound? c with
      | none => outcome = .error (.unsupportedKind c.id c.kind)
      | some kind => (used c.id → outcome = .error (.duplicateId c.id))
        ∧ (¬ used c.id → outcome = .ok (Object.ofCompound p c kind place)) := by
  constructor
  · rintro (⟨c', kind, hc', hkind, hused⟩ | ⟨c', hc', hkind⟩ | ⟨c', kind, hc', hkind, hused⟩)
    -- the node has one compound, so each outcome is read for it
    all_goals
      obtain rfl : c = c' := NodeData.compound.inj (hc.symm.trans hc')
      simp [*]
  · cases hkind : ObjectKind.ofCompound? c with
    | none =>
      rintro rfl
      exact .unsupported c hc hkind
    | some kind =>
      rintro ⟨hduplicate, hobject⟩
      by_cases hused : used c.id
      · rw [hduplicate hused]
        exact .duplicate c kind hc hkind hused
      · rw [hobject hused]
        exact .object c kind hc hkind hused

/-- **A step** decides on one compound by the ids used so far, and takes note of its id. -/
theorem identify_cons_compound (p : PermalinkStyle) (place : Nat) (taken : List String)
    (nodes : List Node) (hc : n.data = .compound c) :
    ∃ first taken', identify p place taken (n :: nodes)
        = first :: identify p (place + 1) taken' nodes
      ∧ (∀ outcome, IsOutcome p n place (· ∈ taken) outcome ↔ outcome = first)
      ∧ ∀ id, id ∈ taken' ↔ id ∈ taken ∨ n.IsShownAs id := by
  have hcompound : n.asCompound? = some c := by rw [Node.asCompound?, hc]
  have hshown : ∀ id, n.IsShownAs id ↔ c.id = id ∧ (ObjectKind.ofCompound? c).isSome := by
    intro id
    rw [Node.IsShownAs, hc]
    simp
  rw [identify, hcompound]
  simp only [isOutcome_iff hc, hshown]
  cases ObjectKind.ofCompound? c with
  | none =>
    -- a compound that is not shown leaves the ids as they are
    exact ⟨_, taken, rfl, fun outcome => Iff.rfl, fun id => by simp⟩
  | some kind =>
    dsimp only
    by_cases hused : c.id ∈ taken
    · -- so does one with an id that is among them
      rw [if_pos (List.contains_iff_mem.mpr hused)]
      refine ⟨_, taken, rfl, fun outcome => by simp [hused], fun id => ?_⟩
      constructor
      · exact Or.inl
      · rintro (hid | ⟨rfl, -⟩)
        · exact hid
        · exact hused
    · rw [if_neg (by simpa using hused)]
      exact ⟨_, c.id :: taken, rfl, fun outcome => by simp [hused],
        fun id => by simp [or_comm, eq_comm]⟩

/-- **The outcome of each compound** is told by the ids of those before it. -/
theorem getElem?_identify (hnodes : ∀ n ∈ nodes, ∃ c, n.data = .compound c) :
    (identify p place taken nodes)[i]? = some outcome ↔ ∃ n, nodes[i]? = some n
      ∧ IsOutcome p n (place + i) (fun id => id ∈ taken ∨ ∃ m ∈ nodes.take i, m.IsShownAs id)
        outcome := by
  induction nodes generalizing place taken i with
  | nil => simp [identify]
  | cons n nodes ih =>
    rw [List.forall_mem_cons] at hnodes
    obtain ⟨⟨c, hc⟩, hnodes⟩ := hnodes
    obtain ⟨first, taken', hstep, hfirst, htaken⟩ := identify_cons_compound p place taken nodes hc
    rw [hstep]
    cases i with
    | zero => simp [hfirst, eq_comm]
    | succ i =>
      -- the id of the first compound is among those used when the others are decided on
      have hused : (fun id => id ∈ taken ∨ ∃ m ∈ (n :: nodes).take (i + 1), m.IsShownAs id)
          = fun id => id ∈ taken' ∨ ∃ m ∈ nodes.take i, m.IsShownAs id := by
        funext id
        simp [htaken, or_assoc]
      have hplace : place + (i + 1) = place + 1 + i := by omega
      rw [List.getElem?_cons_succ, List.getElem?_cons_succ, ih hnodes, hused, hplace]

/-- There are as many outcomes as compounds. -/
theorem length_identify (hnodes : ∀ n ∈ nodes, ∃ c, n.data = .compound c) :
    (identify p place taken nodes).length = nodes.length := by
  induction nodes generalizing place taken with
  | nil => rfl
  | cons n nodes ih =>
    rw [List.forall_mem_cons] at hnodes
    obtain ⟨⟨c, hc⟩, hnodes⟩ := hnodes
    obtain ⟨first, taken', hstep, -, -⟩ := identify_cons_compound p place taken nodes hc
    rw [hstep, List.length_cons, List.length_cons, ih hnodes]

end

/-! ### Documents -/

/-- The objects and the warnings of a document, and what they have to do with its compounds. -/
structure Arena.Wraps (a : Arena) (omissions : List Omission) (p : PermalinkStyle) (d : Document) :
    Prop where
  /-- There is one outcome for each compound.  The ids used before are those of the earlier
  compounds that are shown. -/
  outcomes : ∃ outcomes : List (Except Omission Object), outcomes.length = d.compounds.length
    ∧ (∀ i outcome, outcomes[i]? = some outcome ↔ ∃ n, d.compound? i = some n
      ∧ IsOutcome p n i (fun id => ∃ m ∈ d.compounds.take i, m.IsShownAs id) outcome)
    ∧ a.objects = madeObjects outcomes ∧ omissions = outcomes.filterMap problem?
  count : a.objects.length + omissions.length = d.compounds.length
  order : (a.objects.map (·.compound)).Pairwise (· < ·)
  /-- Compounds that are not shown use up no id. -/
  kept : ∀ i n c kind, d.compound? i = some n → n.data = .compound c →
    ObjectKind.ofCompound? c = some kind → (∀ m ∈ d.compounds.take i, ¬ m.IsShownAs c.id) →
    Object.ofCompound p c kind i ∈ a.objects
  nodup : (a.objects.map (·.id)).Nodup
  lookup?_iff : ∀ id x, a.lookup? id = some x ↔ ∃ o, a.objects[x]? = some o ∧ o.id = id
  /-- The node of an object is the compound with its id, at its place below the root. -/
  node : ∀ x o, a.objects[x]? = some o → ∃ n c, a.node? x = some n ∧ n.data = .compound c
    ∧ c.id = o.id ∧ d.compound? o.compound = some n ∧ d.root.childAt? o.compound = some n

/-- Linking leaves the objects as they are, and how they are found.  Where they hold what links
them, it changes their parents, their children and their permalinks, and nothing else. -/
structure Graph.KeepsObjects (g : Graph) (a : Arena) : Prop where
  objects : g.objects = a.objects
  lookup? : ∀ id, g.lookup? id = a.lookup? id
  node? : ∀ x, g.node? x = a.node? x
  /-- All that wrapping has put into an object is still there when all writes are done. -/
  toObject : g.linkedObjects.map (·.toObject) = a.objects
  /-- What has been written into it is what the graph tells. -/
  linked : ∀ x o, g.linkedObjects[x]? = some o → o.parent = g.hierarchy.parent? x
    ∧ o.children = g.hierarchy.children x ∧ o.permalink = g.permalink x
  /-- The objects are found as before, by their ids and with their compounds. -/
  findIdx? : ∀ id, g.linkedObjects.findIdx? (·.id == id) = a.lookup? id
  compound? : ∀ x, (g.linkedObjects[x]?.bind fun o => g.document.compound? o.compound) = a.node? x

/-- A compound stands at its place below the root. -/
theorem Document.childAt?_root (d : Document) (place : Nat) :
    d.root.childAt? place = d.compound? place := by
  rw [Node.childAt?, root, compound?, List.getElem?_map]
  cases d.compounds[place]? <;> rfl

/-- Every compound of a document holds the data of a compound. -/
theorem Document.exists_data {roots : List Element} {d : Document} (hd : ofRoots roots = .ok d) :
    ∀ n ∈ d.compounds, ∃ c, n.data = .compound c := by
  intro n hn
  obtain ⟨e, he⟩ := exists_buildCompound hd n hn
  exact exists_data_of_buildCompound he

namespace Arena

variable {p : PermalinkStyle} {roots : List Element} {d : Document} {i : Nat} {o : Object}
variable {outcome : Except Omission Object}

/-- The outcome of each compound of a document. -/
theorem getElem?_outcomes (hnodes : ∀ n ∈ d.compounds, ∃ c, n.data = .compound c) :
    (identify p 0 [] d.compounds)[i]? = some outcome ↔ ∃ n, d.compound? i = some n
      ∧ IsOutcome p n i (fun id => ∃ m ∈ d.compounds.take i, m.IsShownAs id) outcome := by
  rw [getElem?_identify hnodes]
  simp [Document.compound?]

/-- Objects are the outcomes that are no warnings. -/
theorem mem_objects_iff :
    o ∈ (ofDocument p d).1.objects
      ↔ ∃ i : Nat, (identify p 0 [] d.compounds)[i]? = some (.ok o) := by
  have hobjects : (ofDocument p d).1.objects
      = (identify p 0 [] d.compounds).filterMap Except.toOption := rfl
  rw [hobjects, List.mem_filterMap]
  simp only [toOption_eq_some_iff, exists_eq_right, List.mem_iff_getElem?]

/-- The object of a compound. -/
theorem exists_of_getElem?_outcomes (hnodes : ∀ n ∈ d.compounds, ∃ c, n.data = .compound c)
    (ho : (identify p 0 [] d.compounds)[i]? = some (.ok o)) :
    o.compound = i ∧ ∃ n c, d.compound? i = some n ∧ n.data = .compound c ∧ c.id = o.id := by
  obtain ⟨n, hn, houtcome⟩ := (getElem?_outcomes hnodes).mp ho
  cases houtcome with
  | object c kind hc hkind hused => exact ⟨rfl, n, c, hn, hc, rfl⟩

/-- The objects stand in the order of their compounds. -/
theorem pairwise_compound (hnodes : ∀ n ∈ d.compounds, ∃ c, n.data = .compound c) :
    ((ofDocument p d).1.objects.map (·.compound)).Pairwise (· < ·) := by
  have hobjects : (ofDocument p d).1.objects
      = (identify p 0 [] d.compounds).filterMap Except.toOption := rfl
  have hplace : ∀ {k : Nat} {o} (hk : k < (identify p 0 [] d.compounds).length),
      (identify p 0 [] d.compounds)[k] = .ok o → o.compound = k := fun hk ho =>
    (exists_of_getElem?_outcomes hnodes (List.getElem?_eq_some_iff.mpr ⟨hk, ho⟩)).1
  -- an object knows the place of its outcome, and outcomes stand where their compounds do
  rw [hobjects, List.pairwise_map, List.pairwise_filterMap, List.pairwise_iff_getElem]
  intro i j hi hj hij o ho o' ho'
  rw [hplace hi (toOption_eq_some_iff.mp ho), hplace hj (toOption_eq_some_iff.mp ho')]
  exact hij

/-- **Linking keeps the objects**, write by write. -/
theorem keepsObjects_toGraph (a : Arena) : a.toGraph.1.KeepsObjects a := by
  have hobjects : a.toGraph.1.linkedObjects.map (·.toObject) = a.objects :=
    a.toGraph.1.toObject_linkedObjects
  constructor
  case objects => rfl
  case lookup? => exact fun id => rfl
  case node? => exact fun x => rfl
  case toObject => exact hobjects
  case linked =>
    intro x o ho
    rw [a.getElem?_linkedObjects, Option.map_eq_some_iff] at ho
    obtain ⟨o, -, rfl⟩ := ho
    exact ⟨rfl, rfl, rfl⟩
  -- Look-ups on the linked objects are those on the objects, since only other fields were set.
  case findIdx? =>
    intro id
    rw [lookup?, ← hobjects, List.findIdx?_map]
    rfl
  case compound? =>
    intro x
    have hdocument : a.toGraph.1.document = a.document := rfl
    rw [node?, ← hobjects, List.getElem?_map, Option.bind_map, hdocument]
    rfl

/-- **Nothing is lost and nothing made up.**  In every document that some roots make up, each
compound has one outcome, and objects are known by their places and by their ids. -/
theorem wraps_ofDocument (p : PermalinkStyle) (hd : Document.ofRoots roots = .ok d) :
    (ofDocument p d).1.Wraps (ofDocument p d).2 p d
      ∧ (ofDocument p d).1.toGraph.1.KeepsObjects (ofDocument p d).1 := by
  have hnodes := Document.exists_data hd
  have hobjects : (ofDocument p d).1.objects = madeObjects (identify p 0 [] d.compounds) := rfl
  have hlength : (identify p 0 [] d.compounds).length = d.compounds.length := length_identify hnodes
  refine ⟨?_, keepsObjects_toGraph _⟩
  constructor
  case outcomes =>
    exact ⟨identify p 0 [] d.compounds, hlength, fun i outcome => getElem?_outcomes hnodes,
      hobjects, omissions_eq p d⟩
  case count =>
    rw [hobjects, omissions_eq, ← hlength]
    exact length_toOption_add_length_problem? _
  case order => exact pairwise_compound hnodes
  -- The first compound of an id has no earlier one that would make it a duplicate.
  case kept =>
    intro i n c kind hn hc hkind hused
    have hfree : ¬ ∃ m ∈ d.compounds.take i, m.IsShownAs c.id := by
      rintro ⟨m, hm, hshown⟩
      exact hused m hm hshown
    refine mem_objects_iff.mpr ⟨i, (getElem?_outcomes hnodes).mpr ⟨n, hn, ?_⟩⟩
    exact .object c kind hc hkind hfree
  case nodup => exact nodup_ids_ofDocument p d
  case lookup?_iff => exact fun id x => lookup?_eq_some_iff (nodup_ids_ofDocument p d)
  case node =>
    intro x o ho
    obtain ⟨i, hi⟩ := mem_objects_iff.mp (List.mem_of_getElem? ho)
    obtain ⟨rfl, n, c, hn, hc, hid⟩ := exists_of_getElem?_outcomes hnodes hi
    refine ⟨n, c, ?_, hc, hid, hn, ?_⟩
    · rw [node?, ho, Option.bind_some]
      exact hn
    · rw [Document.childAt?_root, hn]

/-- The root of a file with compounds of some ids and kinds. -/
def rootOfKinds (compounds : List (String × String)) : Element where
  name := "doxygen"
  attributes := [⟨"version", "1.9.8"⟩]
  content := compounds.map fun (id, kind) => .child {
    name := "compounddef"
    attributes := [⟨"id", id⟩, ⟨"kind", kind⟩]
    content := [.child { name := "compoundname", content := [.text id] }] }

/-- Two files.  The id of a concept is also that of a class, and that of another class again. -/
def filesOfOneId : List Element := [rootOfKinds [("A", "concept"), ("A", "class")],
  rootOfKinds [("A", "struct"), ("B", "page")]]

/-- The first class is kept. -/
theorem wraps_ofDocument_filesOfOneId :
    ∃ d, Document.ofRoots filesOfOneId = .ok d
      ∧ (ofDocument {} d).1.objects.map (fun o => (o.id, o.compound)) = [("A", 1), ("B", 3)]
      ∧ (ofDocument {} d).2 = [.unsupportedKind "A" "concept", .duplicateId "A"]
      ∧ (ofDocument {} d).1.Wraps (ofDocument {} d).2 {} d
      ∧ (ofDocument {} d).1.toGraph.1.KeepsObjects (ofDocument {} d).1 := by
  have heval : ((Document.ofRoots filesOfOneId).toOption.any fun d =>
      (ofDocument {} d).1.objects.map (fun o => (o.id, o.compound)) = [("A", 1), ("B", 3)]
        && (ofDocument {} d).2 = [.unsupportedKind "A" "concept", .duplicateId "A"]) = true := by
    decide +kernel
  obtain ⟨d, hd, heval⟩ := exists_eq_ok_of_any heval
  rw [Bool.and_eq_true, decide_eq_true_eq, decide_eq_true_eq] at heval
  exact ⟨d, hd, heval.1, heval.2, wraps_ofDocument {} hd⟩

end Arena

end DocGraph
