import DocGraph.Proofs.References
import DocGraph.Proofs.Roster

namespace DocGraph

/-!
# Documents, compound by compound

An object comes of one compound, and whether a reference leads somewhere depends on which compounds
there are, so both can be told without regard to the order of compounds:

* `Arena.entries` — each object, less its place, with its compound;
* `entryOf?`, `omissionOf?` — what a compound contributes if no other one has its id;
  `Arena.entries_ofDocument` and `Arena.omissions_ofDocument` put them together;
* `freeOfDuplicates_iff` — no duplicate is reported if and only if no id is used twice;
* `Graph.Trials.Tells`, `Graph.tryReferences_eq` — trying references out counts and warns as it
  goes, and tells in the end what came of each;
* `Arena.LeadsTo`, `Arena.isOk_linkTo_iff` — whether a reference leads somewhere;
* `Arena.warnings_tryReferences` — the warnings about references, object after object.
-/

/-! ### Entries -/

/-- An object with its compound, and nothing of where these stand. -/
abbrev Shown := Object × Option Node

namespace Arena

variable {a : Arena}

/-- Each object with its compound. -/
def entries (a : Arena) : List Shown :=
  a.objects.map fun o => (o.unplaced, a.document.compound? o.compound)

/-- The roster consists of the objects of all entries. -/
theorem mem_roster_iff_entry {o : Object} : o ∈ a.roster ↔ ∃ e ∈ a.entries, e.1 = o := by
  rw [roster, Set.mem_ofPred_eq]
  simp [entries]

/-- The order of entries is of no account to the roster. -/
theorem roster_eq_of_perm {a' : Arena} (hperm : a.entries.Perm a'.entries) :
    a.roster = a'.roster := by
  ext o
  simp only [mem_roster_iff_entry, hperm.mem_iff]

end Arena

/-! ### What a compound contributes -/

/-- The entry of a compound that has an object. -/
def entryOf? (p : PermalinkStyle) (n : Node) : Option Shown :=
  n.asCompound?.bind fun d =>
    (ObjectKind.ofCompound? d).map fun kind => (Object.ofCompound p d kind 0, some n)

/-- The warning about a compound whose kind belongs to no collection. -/
def omissionOf? (n : Node) : Option Omission :=
  n.asCompound?.bind fun d =>
    match ObjectKind.ofCompound? d with
    | none => some (.unsupportedKind d.id d.kind)
    | some _ => none

/-- Whether a warning is about an id that has been used. -/
def Omission.isConflict : Omission → Bool
  | .duplicateId _ => true
  | .unsupportedKind .. => false

/-- No id is reported as used before. -/
def FreeOfDuplicates (omissions : List Omission) : Prop := ∀ w ∈ omissions, w.isConflict = false

section

variable {p : PermalinkStyle} {place : Nat} {taken : List String} {n : Node} {nodes : List Node}
variable {e : Shown}

/-- A compound with an entry is the one entered, at no place yet, and there is no warning about its
kind. -/
theorem eq_of_entryOf? (he : entryOf? p n = some e) :
    e.2 = some n ∧ e.1.unplaced = e.1 ∧ omissionOf? n = none := by
  obtain ⟨d, hd, hkind⟩ := Option.bind_eq_some_iff.mp he
  obtain ⟨kind, hk, rfl⟩ := Option.map_eq_some_iff.mp hkind
  exact ⟨rfl, rfl, by simp [omissionOf?, hd, hk]⟩

/-- That a kind is not shown is no conflict. -/
theorem isConflict_of_omissionOf? {w : Omission} (hw : omissionOf? n = some w) :
    w.isConflict = false := by
  obtain ⟨d, -, hkind⟩ := Option.bind_eq_some_iff.mp hw
  split at hkind
  · obtain rfl := Option.some.inj hkind
    rfl
  · simp at hkind

/-- **What becomes of a compound** depends on others only if its id has been taken. -/
theorem identify_cons (p : PermalinkStyle) (place : Nat) (taken : List String) (n : Node)
    (nodes : List Node) :
    identify p place taken (n :: nodes) = match entryOf? p n with
      | none => (omissionOf? n).toList.map .error ++ identify p (place + 1) taken nodes
      | some e =>
        if taken.contains e.1.id then
          .error (.duplicateId e.1.id) :: identify p (place + 1) taken nodes
        else
          .ok { e.1 with compound := place } :: identify p (place + 1) (e.1.id :: taken) nodes := by
  rw [identify, entryOf?, omissionOf?]
  cases n.asCompound? with
  | none => rfl
  | some d =>
    dsimp only [Option.bind_some]
    cases ObjectKind.ofCompound? d <;> rfl

/-- The ids of the compounds that have objects. -/
def shownIds (p : PermalinkStyle) (nodes : List Node) : List String :=
  (nodes.filterMap (entryOf? p)).map (·.1.id)

theorem shownIds_cons_none (he : entryOf? p n = none) :
    shownIds p (n :: nodes) = shownIds p nodes := by
  rw [shownIds, List.filterMap_cons_none he, shownIds]

theorem shownIds_cons_some (he : entryOf? p n = some e) :
    shownIds p (n :: nodes) = e.1.id :: shownIds p nodes := by
  rw [shownIds, List.filterMap_cons_some he, List.map_cons, shownIds]

/-- **Duplicates are reported** if and only if an id is used twice or has been taken before. -/
theorem freeOfDuplicates_identify_iff :
    FreeOfDuplicates ((identify p place taken nodes).filterMap problem?)
      ↔ (shownIds p nodes).Nodup ∧ ∀ id ∈ shownIds p nodes, id ∉ taken := by
  induction nodes generalizing place taken with
  | nil => simp [identify, FreeOfDuplicates, shownIds]
  | cons n nodes ih =>
    rw [identify_cons]
    cases he : entryOf? p n with
    | none =>
      have homission : FreeOfDuplicates (omissionOf? n).toList := by
        intro w hw
        exact isConflict_of_omissionOf? (Option.mem_toList.mp hw)
      have hrest := @ih (place + 1) taken
      rw [shownIds_cons_none he, ← hrest, List.filterMap_append, filterMap_problem?_map_error]
      exact List.forall_mem_append.trans (and_iff_right homission)
    | some e =>
      dsimp only
      rw [shownIds_cons_some he, List.nodup_cons, List.forall_mem_cons]
      split
      -- This identifier is taken: there is a report, and the list on the right meets `taken`.
      · rename_i htaken
        rw [List.contains_iff_mem] at htaken
        refine iff_of_false (fun hfree => ?_) fun hfree => hfree.2.1 htaken
        simpa [Omission.isConflict] using hfree (.duplicateId e.1.id) (by simp)
      · rename_i htaken
        rw [List.contains_iff_mem] at htaken
        rw [filterMap_problem?_ok_cons, ih]
        constructor
        · rintro ⟨hnodup, hfree⟩
          refine ⟨⟨fun hmem => hfree _ hmem List.mem_cons_self, hnodup⟩, htaken, ?_⟩
          exact fun id hmem htaken => hfree id hmem (List.mem_cons_of_mem _ htaken)
        · rintro ⟨⟨hfirst, hnodup⟩, -, hfree⟩
          refine ⟨hnodup, fun id hmem hid => ?_⟩
          rcases List.mem_cons.mp hid with rfl | hid
          · exact hfirst hmem
          · exact hfree id hmem hid

/-- **Without duplicates** the warnings are those of each compound by itself. -/
theorem problems_identify
    (hfree : FreeOfDuplicates ((identify p place taken nodes).filterMap problem?)) :
    (identify p place taken nodes).filterMap problem? = nodes.filterMap omissionOf? := by
  induction nodes generalizing place taken with
  | nil => rfl
  | cons n nodes ih =>
    rw [identify_cons] at hfree ⊢
    cases he : entryOf? p n with
    | none =>
      rw [he] at hfree
      rw [List.filterMap_append, filterMap_problem?_map_error] at hfree ⊢
      rw [ih (List.forall_mem_append.mp hfree).2]
      cases hw : omissionOf? n <;> simp [hw]
    | some e =>
      rw [he] at hfree
      dsimp only at hfree ⊢
      split at hfree
      -- an identifier already taken would be a conflict
      · simpa [Omission.isConflict] using hfree (.duplicateId e.1.id) (by simp)
      · rename_i htaken
        obtain ⟨-, -, hnone⟩ := eq_of_entryOf? he
        rw [if_neg htaken, List.filterMap_cons_none hnone]
        exact ih hfree

/-- **Without duplicates** the objects are those of each compound by itself. -/
theorem entries_identify (before : List Node)
    (hfree : FreeOfDuplicates ((identify p before.length taken nodes).filterMap problem?)) :
    (madeObjects (identify p before.length taken nodes)).map
        (fun o => (o.unplaced, (before ++ nodes)[o.compound]?))
      = nodes.filterMap (entryOf? p) := by
  induction nodes generalizing before taken with
  | nil => rfl
  | cons n nodes ih =>
    -- The place of a compound counts the nodes before it, so the next one moves over to `before`.
    have hlength : before.length + 1 = (before ++ [n]).length := by simp
    have hsplit : before ++ n :: nodes = (before ++ [n]) ++ nodes := by simp
    rw [identify_cons, hlength] at hfree ⊢
    rw [hsplit]
    cases he : entryOf? p n with
    | none =>
      rw [he] at hfree
      rw [List.filterMap_append] at hfree
      rw [madeObjects_map_error_append, List.filterMap_cons_none he]
      exact ih (before ++ [n]) (List.forall_mem_append.mp hfree).2
    | some e =>
      rw [he] at hfree
      dsimp only at hfree ⊢
      split at hfree
      · simpa [Omission.isConflict] using hfree (.duplicateId e.1.id) (by simp)
      · rename_i htaken
        obtain ⟨hnode, hunplaced, -⟩ := eq_of_entryOf? he
        rw [if_neg htaken, madeObjects_ok_cons, List.map_cons, ih (before ++ [n]) hfree,
          List.filterMap_cons_some he]
        have hplace : ((before ++ [n]) ++ nodes)[before.length]? = some n := by simp
        exact congrArg (· :: _) (Prod.ext hunplaced (hplace.trans hnode.symm))

end

namespace Arena

variable {p : PermalinkStyle} {d : Document}

/-- The warnings of a document are those among what becomes of its compounds. -/
theorem omissions_eq (p : PermalinkStyle) (d : Document) :
    (ofDocument p d).2 = (identify p 0 [] d.compounds).filterMap problem? := by
  refine List.filterMap_congr fun outcome _ => ?_
  cases outcome <;> rfl

/-- **No duplicate is reported** if and only if no id is used twice. -/
theorem freeOfDuplicates_iff :
    FreeOfDuplicates (ofDocument p d).2 ↔ (shownIds p d.compounds).Nodup := by
  rw [omissions_eq, freeOfDuplicates_identify_iff]
  simp

/-- **If no id is used twice**, each warning is about the kind of its compound. -/
theorem omissions_ofDocument (hfree : FreeOfDuplicates (ofDocument p d).2) :
    (ofDocument p d).2 = d.compounds.filterMap omissionOf? := by
  rw [omissions_eq] at hfree ⊢
  exact problems_identify hfree

/-- Then each compound of a kind that is shown has its entry, too. -/
theorem entries_ofDocument (hfree : FreeOfDuplicates (ofDocument p d).2) :
    (ofDocument p d).1.entries = d.compounds.filterMap (entryOf? p) := by
  rw [omissions_eq] at hfree
  exact entries_identify [] hfree

end Arena

/-! ### References -/

namespace Graph

variable {g : Graph} {r : Ref}

/-- Whether a reference leads somewhere. -/
def leads (g : Graph) (r : Ref) : Bool := (g.linkTo r.refid r.kind).isOk

/-- A reference leads somewhere if there is a link to its target. -/
theorem leads_iff : g.leads r = true ↔ ∃ link, g.linkTo r.refid r.kind = .ok link := by
  rw [leads]
  cases g.linkTo r.refid r.kind <;> simp [Except.isOk, Except.toBool]

/-- The only problem with a reference is that it leads nowhere. -/
theorem eq_of_linkTo_eq_error {refid : String} {kind : RefKind} {w : LinkProblem}
    (hw : g.linkTo refid kind = .error w) : w = .unresolvedReference none refid kind := by
  unfold linkTo at hw
  dsimp only at hw
  split at hw
  · simp at hw
  · exact (Except.error.inj hw).symm

/-- What becomes of a reference of the object with an id. -/
def outcome (g : Graph) (source : String) (r : Ref) : Except LinkProblem String :=
  (g.linkTo r.refid r.kind).mapError (·.withSource source)

/-- The warning about a reference, if it leads nowhere. -/
theorem problem?_outcome (g : Graph) (source : String) (r : Ref) :
    problem? (g.outcome source r)
      = if g.leads r then none else some (.unresolvedReference (some source) r.refid r.kind) := by
  rw [outcome]
  cases hlink : g.linkTo r.refid r.kind with
  | ok link =>
    rw [if_pos (leads_iff.mpr ⟨link, hlink⟩)]
    rfl
  | error w =>
    have hnot : ¬ g.leads r = true := by simp [leads_iff, hlink]
    rw [if_neg hnot, eq_of_linkTo_eq_error hlink]
    rfl

/-- The references within the compound of an object that stay within the project, in order. -/
def refsOf (g : Graph) (x : Nat) : List Ref :=
  match g.node? x with
  | some n => (n.entered fun _ => false).filterMap internalRef?
  | none => []

/-- What becomes of each reference, object after object. -/
def tried (g : Graph) : List (Except LinkProblem String) :=
  g.objects.zipIdx.flatMap fun (o, i) => (g.refsOf i).map (g.outcome o.id)

namespace Trials

variable {t : Trials} {outcomes : List (Except LinkProblem String)}

/-- What has come of some references, none of which is left to be tried. -/
structure Tells (t : Trials) (outcomes : List (Except LinkProblem String)) : Prop where
  met : t.met = #[]
  resolved : t.resolved = outcomes.countP (·.isOk)
  warnings : t.warnings.toList = outcomes.filterMap problem?

/-- A walk adds the references that it meets to those met before, and tries none. -/
theorem foldl_meet (nodes : List Node) (t : Trials) :
    nodes.foldl meet t
      = { t with met := t.met ++ (nodes.filterMap internalRef?).toArray } := by
  induction nodes generalizing t with
  | nil => simp
  | cons n nodes ih =>
    rw [List.foldl_cons, ih, meet]
    cases hn : internalRef? n with
    | none => simp [List.filterMap_cons_none hn]
    | some r => simp [List.filterMap_cons_some hn]

/-- **One reference more** is counted, or warned about. -/
theorem Tells.attempt (h : t.Tells outcomes) (source : String) (r : Ref) :
    (t.attempt g source r).Tells (outcomes ++ [g.outcome source r]) := by
  rw [Trials.attempt, outcome]
  -- A link raises the count and a failure adds its warning, never both.
  cases g.linkTo r.refid r.kind with
  | ok link =>
    constructor
    case met => exact h.met
    case resolved =>
      rw [List.countP_append, ← h.resolved]
      rfl
    case warnings => simpa [Except.mapError, problem?] using h.warnings
  | error w =>
    constructor
    case met => exact h.met
    case resolved =>
      rw [List.countP_append, ← h.resolved]
      rfl
    case warnings =>
      rw [Array.toList_push, h.warnings, List.filterMap_append]
      rfl

/-- The references of an object are tried one after the other. -/
theorem Tells.attempts (h : t.Tells outcomes) (source : String) (refs : List Ref) :
    (refs.foldl (·.attempt g source ·) t).Tells (outcomes ++ refs.map (g.outcome source)) := by
  induction refs generalizing t outcomes with
  | nil => simpa using h
  | cons r refs ih =>
    rw [List.foldl_cons, List.map_cons, List.append_cons]
    exact ih (h.attempt source r)

/-- **The references of one object** are met and tried, and none of them is left over for the next
object. -/
theorem Tells.visit (h : t.Tells outcomes) (o : Object) (place : Nat) :
    (t.visit g o place).Tells (outcomes ++ (g.refsOf place).map (g.outcome o.id)) := by
  rw [Trials.visit, refsOf]
  cases g.node? place with
  | none => simpa using h
  | some n =>
    have hfresh : ({ t with met := #[] } : Trials).Tells outcomes := ⟨rfl, h.resolved, h.warnings⟩
    dsimp only
    rw [foldl_meet, h.met, Array.empty_append, Trials.drain, List.foldl_toArray]
    exact hfresh.attempts o.id _

theorem Tells.visits (h : t.Tells outcomes) (objects : List (Object × Nat)) :
    (objects.foldl (fun (t : Trials) (o, i) => t.visit g o i) t).Tells
      (outcomes ++ objects.flatMap fun (o, i) => (g.refsOf i).map (g.outcome o.id)) := by
  induction objects generalizing t outcomes with
  | nil => simpa using h
  | cons object objects ih =>
    rw [List.foldl_cons, List.flatMap_cons, ← List.append_assoc]
    exact ih (h.visit object.1 object.2)

end Trials

/-- **What trying all references comes to**: the references that lead somewhere are counted, and
there is a warning about each of the others. -/
theorem tryReferences_eq (g : Graph) :
    g.tryReferences = (g.tried.countP (·.isOk), g.tried.filterMap problem?) := by
  have hnothing : ({} : Trials).Tells [] := ⟨rfl, rfl, rfl⟩
  have htells := hnothing.visits (g := g) g.objects.zipIdx
  exact Prod.ext htells.resolved htells.warnings

end Graph

/-- The references within a compound that stay within the project. -/
def refsWithin : Option Node → List Ref
  | some n => (n.entered fun _ => false).filterMap Graph.internalRef?
  | none => []

namespace Arena

variable {a : Arena} {refid : String} {kind : RefKind}

/-- A compound gives an id to one of its nodes, as `idOf?` reads it. -/
def Within (idOf? : Node → Option String) (e : Shown) (id : String) : Prop :=
  ∃ n, e.2 = some n ∧ ∃ m ∈ n.entered Node.hidesAnchors, idOf? m = some id

/-- Something has the id that a reference names. -/
def LeadsTo (a : Arena) (refid : String) : RefKind → Prop
  | .compound => ∃ e ∈ a.entries, e.1.id = refid
  | .member | .xrefSect => (∃ e ∈ a.entries, e.1.id = RefId.owner refid)
    ∨ (∃ e ∈ a.entries, Within Node.contentsId? e refid)
    ∨ ∃ e ∈ a.entries, Within Node.anchorId? e refid

/-- Whether some object has an id is told by the entries. -/
theorem exists_hasId_iff {id : String} :
    (∃ x, a.toGraph.1.HasId x id) ↔ ∃ e ∈ a.entries, e.1.id = id := by
  simp only [entries, List.mem_map, exists_exists_and_eq_and]
  constructor
  · rintro ⟨x, o, ho, hid⟩
    exact ⟨o, List.mem_of_getElem? ho, hid⟩
  · rintro ⟨o, ho, hid⟩
    obtain ⟨x, hx⟩ := List.mem_iff_getElem?.mp ho
    exact ⟨x, o, hx, hid⟩

theorem exists_hasWithin_iff {idOf? : Node → Option String} {id : String} :
    (∃ x, a.toGraph.1.HasWithin idOf? x id) ↔ ∃ e ∈ a.entries, Within idOf? e id := by
  simp only [entries, List.mem_map, exists_exists_and_eq_and]
  constructor
  · rintro ⟨x, n, hn, hid⟩
    obtain ⟨o, ho, hn⟩ := Option.bind_eq_some_iff.mp hn
    exact ⟨o, List.mem_of_getElem? ho, n, hn, hid⟩
  · rintro ⟨o, ho, n, hn, hid⟩
    obtain ⟨x, hx⟩ := List.mem_iff_getElem?.mp ho
    exact ⟨x, n, Option.bind_eq_some_iff.mpr ⟨o, hx, hn⟩, hid⟩

/-- **A reference leads somewhere** if and only if something has the id. -/
theorem isOk_linkTo_iff (hn : (a.objects.map (·.id)).Nodup) :
    (∃ link, a.toGraph.1.linkTo refid kind = .ok link) ↔ a.LeadsTo refid kind := by
  cases kind with
  | compound =>
    rw [LeadsTo, ← exists_hasId_iff]
    simp only [Graph.linkTo_compound_eq_ok_iff, hasId_iff hn]
    constructor
    · rintro ⟨-, x, hx, -⟩
      exact ⟨x, hx⟩
    · rintro ⟨x, hx⟩
      exact ⟨_, x, hx, rfl⟩
  -- references to members and to list items lead to the page of what has the id
  | member | xrefSect =>
    rw [LeadsTo, ← exists_hasId_iff, ← exists_hasWithin_iff, ← exists_hasWithin_iff,
      ← isSome_pageOf?_iff hn]
    exact Graph.isOk_linkTo_iff_pageOf? (by simp)

open Classical in
/-- The warning about a reference of the object with an id. -/
noncomputable def dangling? (a : Arena) (source : String) (r : Ref) : Option LinkProblem :=
  if a.LeadsTo r.refid r.kind then none
  else some (.unresolvedReference (some source) r.refid r.kind)

/-- Hence the entries tell the warning about a reference. -/
theorem problem?_outcome (hn : (a.objects.map (·.id)).Nodup) (source : String) (r : Ref) :
    problem? (a.toGraph.1.outcome source r) = a.dangling? source r := by
  have hleads : a.toGraph.1.leads r = true ↔ a.LeadsTo r.refid r.kind :=
    Graph.leads_iff.trans (isOk_linkTo_iff hn)
  rw [dangling?, Graph.problem?_outcome]
  split
  · rename_i hlink
    rw [if_pos (hleads.mp hlink)]
  · rename_i hlink
    rw [if_neg fun hto => hlink (hleads.mpr hto)]

/-- **The warnings about references**, object after object. -/
theorem warnings_tryReferences (hn : (a.objects.map (·.id)).Nodup) :
    a.toGraph.1.tryReferences.2
      = a.entries.flatMap fun e => (refsWithin e.2).filterMap (a.dangling? e.1.id) := by
  have hobjects : a.toGraph.1.objects = a.objects := rfl
  rw [Graph.tryReferences_eq, Graph.tried, hobjects, entries, List.flatMap_map,
    List.filterMap_flatMap]
  refine Eq.trans (List.flatMap_congr fun e he => ?_) (flatMap_zipIdx_fst a.objects _)
  -- The node of an object is the compound that its entry names.
  have hrefs : a.toGraph.1.refsOf e.2 = refsWithin (a.document.compound? e.1.compound) := by
    have hnode : a.node? e.2 = a.document.compound? e.1.compound := by
      rw [node?, mem_zipIdx_objects.mp he, Option.bind_some]
    rw [← hnode]
    rfl
  rw [List.filterMap_map, hrefs]
  exact List.filterMap_congr fun r _ => problem?_outcome hn e.1.id r

end Arena

end DocGraph
