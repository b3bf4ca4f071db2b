import DocGraph.Catalog
import DocGraph.Proofs.Diagnoses
import DocGraph.Proofs.Roots

namespace DocGraph

/-!
# Who refuses

A violation goes up through many builders, each of which may come to others:

* `Builder`, `Builder.Rejects` — what is built of elements: nodes of every form, the compounds of a
  root, and the index with its compounds and their members;
* `Builder.Calls`, `Builder.Reaches` — building one thing comes to building another;
* `Builder.Reaches.rejects` — a violation goes up as it is;
* `Builder.finds_or_calls` — a violation tells of an element at hand, and of the builder that found
  it, unless another one has found it before;
* `violations_attributed` — hence every violation that leaves a builder names an element of its
  tree, and a builder that it comes to.
-/

/-- What is built of elements. -/
inductive Builder where
  /-- The node of an element. -/
  | form (f : Form)
  /-- The compounds of a root. -/
  | document
  | index | indexEntry | indexMember

namespace Builder

/-- The name under which a builder refuses elements. -/
def name : Builder → String
  | .form f => f.builder
  | .document => Document.assembler
  | .index => Catalog.builder
  | .indexEntry => Catalog.entryBuilder
  | .indexMember => Catalog.memberBuilder

/-- A builder refuses an element with a violation. -/
def Rejects : Builder → Element → Violation → Prop
  | .form f, e, v => f.build e = .error v
  | .document, e, v => Document.ofRoot e = .error v
  | .index, e, v => Catalog.ofRoot e = .error v
  | .indexEntry, e, v => Catalog.entryOf e = .error v
  | .indexMember, e, v => Catalog.memberOf e = .error v

/-- Building something of an element comes to building something of one of its children: all that is
looked at before is in order. -/
inductive Calls : Builder → Element → Builder → Element → Prop
  | form {f g : Form} {e c : Element} : f.Enters e g c → Calls (.form f) e (.form g) c
  | compound {root c : Element} {done rest : List (Content Element)} :
    root.name = NodeKind.doxygen.tag →
    AttributeRule.checkAll Document.rootAttributes root = .ok () →
    root.inner = done ++ .child c :: rest →
    (∀ piece ∈ done, ∃ n, Document.compoundOf root piece = .ok n) →
    c.name = NodeKind.compoundDef.tag → Calls .document root (.form .compound) c
  | entry {root c : Element} {done rest : List Element} :
    root.name = Catalog.rootTag →
    AttributeRule.checkAll Document.rootAttributes root = .ok () →
    root.children = done ++ c :: rest →
    (∀ b ∈ done, ∃ entry, Catalog.listed root b = .ok entry) →
    c.name = "compound" → Calls .index root .indexEntry c
  | member {e c : Element} {done rest : List Element} {entry : CatalogEntry} :
    AttributeRule.checkAll Catalog.listedAttributes e = .ok () →
    e.children = done ++ c :: rest →
    done.foldlM (Catalog.addChild e) ⟨e.value "refid", e.value "kind", "", []⟩ = .ok entry →
    c.name = "member" → Calls .indexEntry e .indexMember c

/-- Building something comes to building something else, by way of what is between. -/
def Reaches (b : Builder) (e : Element) (b' : Builder) (d : Element) : Prop :=
  Relation.ReflTransGen (fun x y : Builder × Element => x.1.Calls x.2 y.1 y.2) (b, e) (b', d)

/-- A violation tells of an element at hand, under the name of the builder. -/
def Finds (b : Builder) (e : Element) (v : Violation) : Prop :=
  ∃ x, (x = e ∨ x ∈ e.children) ∧ v.element = x.name ∧ v.builder = some b.name

/-- A builder is given an element: nodes are built of the elements that suit their forms, and of
whatever is taken for a compound. -/
def IsGiven : Builder → Element → Prop
  | .form f, e => f = .compound ∨ f.Suits e.name
  | _, _ => True

variable {b b' : Builder} {e c d root : Element} {v : Violation}

/-- A violation of an element under a builder's own name is its finding. -/
theorem finds_of_violation {defect : Defect}
    (hv : (e.violation defect).rejectedBy b.name = v) : b.Finds e v :=
  ⟨e, .inl rfl, hv ▸ rfl, hv ▸ rfl⟩

/-- What is wrong with attributes is found by the builder that checks them. -/
theorem finds_of_checkAll {rules : List AttributeRule}
    (h : Violation.blame b.name (AttributeRule.checkAll rules e) = .error v) : b.Finds e v := by
  obtain ⟨w, hw, hv⟩ := Violation.blame_eq_error_iff.mp h
  -- whatever rule fails tells of `e` itself, so only the builder's name is added
  have hconfirms : e.Confirms e w := AttributeRule.confirms_of_checkAll hw
  obtain ⟨defect, rfl, -⟩ := hconfirms
  exact finds_of_violation hv

/-! ### One call -/

/-- Whatever a builder comes to is a child. -/
theorem Calls.mem_children (h : b.Calls e b' c) : c ∈ e.children := by
  cases h with
  | form henters => exact henters.mem_children
  | compound _ _ hinner =>
    have hpiece : Content.child c ∈ e.inner := hinner ▸ List.mem_append_right _ List.mem_cons_self
    exact List.mem_filterMap.mpr ⟨_, (List.mem_filter.mp hpiece).1, rfl⟩
  | entry _ _ hchildren => exact hchildren ▸ List.mem_append_right _ List.mem_cons_self
  | member _ hchildren => exact hchildren ▸ List.mem_append_right _ List.mem_cons_self

theorem Calls.isGiven (h : b.Calls e b' c) : b'.IsGiven c := by
  cases h with
  | form henters => exact Or.inr henters.suits
  | compound => exact Or.inl rfl
  | entry | member => trivial

/-- **A violation goes up** from the builder that is called. -/
theorem Calls.rejects (h : b.Calls e b' c) (hc : b'.Rejects c v) : b.Rejects e v := by
  -- In each way of calling the caller's earlier steps succeed, so the callee's error is its own.
  cases h with
  | form henters => exact Form.build_eq_error_iff.mpr (.inr ⟨_, _, henters, hc⟩)
  | compound hname hattributes hinner hdone hcompound =>
    show Document.ofRoot e = .error v
    rw [Document.ofRoot, if_neg (not_not.mpr hname)]
    refine Except.bind_eq_error_iff.mpr (.inr ⟨(), Violation.blame_eq_ok_iff.mpr hattributes, ?_⟩)
    refine Except.bind_eq_error_iff.mpr (.inl (mapM_eq_error_iff.mpr ⟨_, _, _, hinner, hdone, ?_⟩))
    rw [Document.compoundOf, if_pos hcompound]
    exact hc
  | entry hname hattributes hchildren hdone hcompound =>
    show Catalog.ofRoot e = .error v
    rw [Catalog.ofRoot, if_neg (not_not.mpr hname)]
    refine Except.bind_eq_error_iff.mpr (.inr ⟨(), Violation.blame_eq_ok_iff.mpr hattributes, ?_⟩)
    refine Except.bind_eq_error_iff.mpr
      (.inl (mapM_eq_error_iff.mpr ⟨_, _, _, hchildren, hdone, ?_⟩))
    rw [Catalog.listed, if_pos hcompound]
    exact hc
  | @member _ _ _ _ entry hattributes hchildren hdone hmember =>
    refine Except.bind_eq_error_iff.mpr (.inr ⟨(), Violation.blame_eq_ok_iff.mpr hattributes, ?_⟩)
    refine Except.bind_eq_error_iff.mpr
      (.inl (foldlM_eq_error_iff.mpr ⟨_, _, _, entry, hchildren, hdone, ?_⟩))
    rw [Catalog.addChild, hmember]
    exact Except.bind_eq_error_iff.mpr (.inl hc)

/-! ### What a builder finds -/

/-- A listed member calls no other builder, so whatever is wrong is its own finding. -/
theorem finds_of_memberOf (h : Catalog.memberOf e = .error v) : indexMember.Finds e v := by
  obtain ⟨w, hw, hv⟩ := Violation.blame_eq_error_iff.mp h
  rcases Except.bind_eq_error_iff.mp hw with hw | ⟨⟨⟩, -, hw⟩
  · exact finds_of_checkAll (Violation.blame_eq_error_iff.mpr ⟨w, hw, hv⟩)
  rcases Except.bind_eq_error_iff.mp hw with hw | ⟨name, -, hw⟩
  · unfold Element.childText at hw
    split at hw
    case h_1 =>
      obtain rfl := Except.error.inj hw
      exact finds_of_violation hv
    case h_2 child hchild =>
      split at hw
      · cases hw
      -- the text of a name is read from the child, so that it is the child that is named
      · obtain rfl := Except.error.inj hw
        exact ⟨child, .inr (List.mem_of_find?_eq_some hchild), hv ▸ rfl, hv ▸ rfl⟩
  · cases hw

/-- A listed compound may come to its members. -/
theorem finds_or_calls_entry (h : Catalog.entryOf e = .error v) :
    indexEntry.Finds e v ∨ ∃ b' c, indexEntry.Calls e b' c ∧ b'.Rejects c v := by
  rcases Except.bind_eq_error_iff.mp h with h | ⟨⟨⟩, hattributes, h⟩
  · exact Or.inl (finds_of_checkAll h)
  rcases Except.bind_eq_error_iff.mp h with h | ⟨entry, -, h⟩
  -- The child at which the fold stopped is a member that failed, or one of an unknown name.
  · obtain ⟨done, c, rest, entry, hchildren, hdone, h⟩ := foldlM_eq_error_iff.mp h
    unfold Catalog.addChild at h
    split at h
    case h_1 => cases h
    case h_2 hmember =>
      rcases Except.bind_eq_error_iff.mp h with h | ⟨m, -, h⟩
      · exact Or.inr ⟨_, c, .member (Violation.blame_eq_ok_iff.mp hattributes) hchildren hdone
          hmember, h⟩
      · cases h
    case h_3 => exact Or.inl (finds_of_violation (Except.error.inj h))
  · split at h
    · exact Or.inl (finds_of_violation (Except.error.inj h))
    · cases h

/-- The index may come to the compounds that it lists. -/
theorem finds_or_calls_index (h : Catalog.ofRoot root = .error v) :
    index.Finds root v ∨ ∃ b' c, index.Calls root b' c ∧ b'.Rejects c v := by
  unfold Catalog.ofRoot at h
  split at h
  case isTrue => exact Or.inl (finds_of_violation (Except.error.inj h))
  case isFalse hname =>
    rcases Except.bind_eq_error_iff.mp h with h | ⟨⟨⟩, hattributes, h⟩
    · exact Or.inl (finds_of_checkAll h)
    rcases Except.bind_eq_error_iff.mp h with h | ⟨entries, -, h⟩
    · obtain ⟨done, c, rest, hchildren, hdone, h⟩ := mapM_eq_error_iff.mp h
      unfold Catalog.listed at h
      split at h
      case isTrue hcompound =>
        exact Or.inr ⟨_, c, .entry (not_not.mp hname) (Violation.blame_eq_ok_iff.mp hattributes)
          hchildren hdone hcompound, h⟩
      case isFalse => exact Or.inl (finds_of_violation (Except.error.inj h))
    · cases h

/-- A root may come to its compounds. -/
theorem finds_or_calls_document (h : Document.ofRoot root = .error v) :
    document.Finds root v ∨ ∃ b' c, document.Calls root b' c ∧ b'.Rejects c v := by
  unfold Document.ofRoot at h
  split at h
  case isTrue => exact Or.inl (finds_of_violation (Except.error.inj h))
  case isFalse hname =>
    rcases Except.bind_eq_error_iff.mp h with h | ⟨⟨⟩, hattributes, h⟩
    · exact Or.inl (finds_of_checkAll h)
    rcases Except.bind_eq_error_iff.mp h with h | ⟨compounds, -, h⟩
    -- the first piece that failed is text or of a wrong name, or a compound that was refused
    · obtain ⟨done, piece, rest, hinner, hdone, h⟩ := mapM_eq_error_iff.mp h
      cases piece with
      | text s => exact Or.inl (finds_of_violation (Except.error.inj h))
      | child c =>
        rw [Document.compoundOf] at h
        split at h
        case isTrue hcompound =>
          exact Or.inr ⟨_, c, .compound (not_not.mp hname)
            (Violation.blame_eq_ok_iff.mp hattributes) hinner hdone hcompound, h⟩
        case isFalse => exact Or.inl (finds_of_violation (Except.error.inj h))
    · cases h

/-- **A builder finds a violation itself, or calls another** that has found it. -/
theorem finds_or_calls (hgiven : b.IsGiven e) (h : b.Rejects e v) :
    b.Finds e v ∨ ∃ b' c, b.Calls e b' c ∧ b'.Rejects c v := by
  cases b with
  | form f =>
    rcases Form.build_eq_error_iff.mp h with hrefuses | ⟨g, c, henters, hc⟩
    -- every diagnosis, true or not, is of the element itself and under the builder's own name
    · have hplace : (f = .compound ∧ e = e) ∨ f.Suits e.name := hgiven.imp_left (⟨·, rfl⟩)
      obtain ⟨defect, rfl, -⟩ := hrefuses.diagnosis hplace
      exact Or.inl ⟨e, .inl rfl, rfl, rfl⟩
    · exact Or.inr ⟨.form g, c, .form henters, hc⟩
  | document => exact finds_or_calls_document h
  | index => exact finds_or_calls_index h
  | indexEntry => exact finds_or_calls_entry h
  | indexMember => exact Or.inl (finds_of_memberOf h)

/-! ### All calls -/

/-- **A violation goes up** from every builder that is reached. -/
theorem Reaches.rejects (h : b.Reaches e b' d) (hd : b'.Rejects d v) : b.Rejects e v := by
  refine h.head_induction_on (motive := fun x _ => x.1.Rejects x.2 v) hd ?_
  intro x y hxy _ hy
  exact hxy.rejects hy

/-- A violation names an element of the tree, and a builder that is reached and rejects an element:
the one that is named, or the one above it. -/
def Attributes (b : Builder) (e : Element) (v : Violation) : Prop :=
  ∃ b' d x, b.Reaches e b' d ∧ b'.Rejects d v ∧ v.builder = some b'.name
    ∧ (x = d ∨ x ∈ d.children) ∧ e.Contains x ∧ v.element = x.name

/-- **Every violation is attributed**, by induction over the tree. -/
theorem attributes_of_rejects {b : Builder} {e : Element} (hgiven : b.IsGiven e)
    (h : b.Rejects e v) : b.Attributes e v := by
  rcases finds_or_calls hgiven h with ⟨x, hx, hname, hbuilder⟩ | ⟨b', c, hcalls, hc⟩
  · refine ⟨b, e, x, .refl, h, hbuilder, hx, ?_, hname⟩
    rcases hx with rfl | hx
    · exact .self x
    · exact .child hx (.self x)
  -- the child is smaller, and suits the builder that is called
  · have hsmaller := Element.sizeOf_lt_of_mem_children hcalls.mem_children
    obtain ⟨b'', d, x, hreaches, hd, hbuilder, hx, hcontains, hname⟩ :=
      attributes_of_rejects hcalls.isGiven hc
    exact ⟨b'', d, x, .head hcalls hreaches, hd, hbuilder, hx,
      .child hcalls.mem_children hcontains, hname⟩
termination_by sizeOf e

end Builder

/-- The first root that is refused is refused for the document. -/
theorem Document.ofRoots_eq_error_iff {roots : List Element} {v : Violation} :
    ofRoots roots = .error v ↔ ∃ done root rest, roots = done ++ root :: rest
      ∧ (∀ r ∈ done, ∃ d, ofRoot r = .ok d) ∧ ofRoot root = .error v := by
  rw [ofRoots, Except.bind_eq_error_iff, mapM_eq_error_iff]
  refine or_iff_left ?_
  rintro ⟨docs, -, h⟩
  cases docs <;> cases h

/-- **Every violation that leaves a builder** names an element of its tree, and the builder that has
rejected it; and wherever building comes to something that is rejected, all that it is part of is
rejected with the same violation. -/
theorem violations_attributed :
    (∀ e v, buildCompound e = .error v → (Builder.form .compound).Attributes e v)
      ∧ (∀ roots v, Document.ofRoots roots = .error v →
        ∃ root ∈ roots, Builder.document.Attributes root v)
      ∧ (∀ root v, Catalog.ofRoot root = .error v → Builder.index.Attributes root v)
      ∧ (∀ (b b' : Builder) (e d : Element) (v : Violation),
        b.Reaches e b' d → b'.Rejects d v → b.Rejects e v)
      ∧ ∀ done root rest v, (∀ r ∈ done, ∃ d, Document.ofRoot r = .ok d) →
        Builder.document.Rejects root v → Document.ofRoots (done ++ root :: rest) = .error v := by
  -- Every builder attributes what it rejects; each entry point starts with one of them.
  refine ⟨?compound, ?document, ?index, ?nested, ?roots⟩
  case compound =>
    intro e v h
    have hgiven : (Builder.form .compound).IsGiven e := .inl rfl
    exact Builder.attributes_of_rejects hgiven h
  case document =>
    intro roots v h
    obtain ⟨done, root, rest, rfl, -, hroot⟩ := Document.ofRoots_eq_error_iff.mp h
    have hgiven : Builder.document.IsGiven root := trivial
    exact ⟨root, List.mem_append_right _ List.mem_cons_self,
      Builder.attributes_of_rejects hgiven hroot⟩
  case index =>
    intro root v h
    have hgiven : Builder.index.IsGiven root := trivial
    exact Builder.attributes_of_rejects hgiven h
  case nested =>
    intro b b' e d v hreaches hd
    exact hreaches.rejects hd
  case roots =>
    intro done root rest v hdone hroot
    exact Document.ofRoots_eq_error_iff.mpr ⟨done, root, rest, rfl, hdone, hroot⟩

/-- An index of a class with a method whose name is marked up. -/
def markedNameIndex : Element where
  name := "doxygenindex"
  attributes := [⟨"version", "1.9.8"⟩]
  content :=
    [.child
      { name := "compound"
        attributes := [⟨"refid", "classA"⟩, ⟨"kind", "class"⟩]
        content :=
          [.child { name := "name", content := [.text "A"] },
           .child
            { name := "member"
              attributes := [⟨"refid", "classA_1f"⟩, ⟨"kind", "function"⟩]
              content := [.child { name := "name", content := [.child { name := "b" }] }] }] }]

/-- Here the violation names a child of the element that is rejected. -/
theorem violations_attributed_markedName :
    ∃ v, Catalog.ofRoot markedNameIndex = .error v
      ∧ v = ⟨"name", some "index member builder", .unexpectedElement "b"⟩
      ∧ Builder.index.Attributes markedNameIndex v := by
  have hrejected : Catalog.ofRoot markedNameIndex
      = .error ⟨"name", some "index member builder", .unexpectedElement "b"⟩ := by rfl
  exact ⟨_, hrejected, rfl, violations_attributed.2.2.1 _ _ hrejected⟩

end DocGraph
