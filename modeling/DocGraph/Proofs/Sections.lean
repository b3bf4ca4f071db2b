import DocGraph.Proofs.Making
import DocGraph.Proofs.Places
import DocGraph.Proofs.Refusals

namespace DocGraph

/-!
# Sections

Sections nest by level.  The forms of sections and internal parts are given a level from above, and
internal parts pass it on:

* `Form.Builds`, `Node.IsBuilt` — the nodes of a form, and all that stands below them;
* `Form.level?`, `Form.levelWithin?` — the level that a form is given, and the one that it gives;
* `NodeKind.HoldsSections` — the kinds of nodes that hold the sections of a level;
* `Node.IsBuilt.exists_above` — what is above a section or an internal part gives it its level;
* `sections_nest` — **sections nest by level**, and no section is ever out of range.
-/

/-! ### Nodes of a form -/

/-- A form builds a node of an element that it is given. -/
def Form.Builds (f : Form) (n : Node) : Prop := ∃ e, f.Suits e.name ∧ f.build e = .ok n

/-- A node that a form builds, or a pair of nodes of a variable list. -/
def Node.IsBuilt (n : Node) : Prop :=
  (∃ f : Form, f.Builds n)
    ∨ ∃ term definition, n = .pair term definition ∧ ∀ c ∈ n.children, ∃ tag slot,
      Form.variableList.slot? tag = some slot ∧ slot.form.Builds c

section

variable {f : Form} {n m c : Node} {place : Nat} {above path : List Nat}

/-- A node is of a kind of its form. -/
theorem Form.Builds.kind_mem (hn : f.Builds n) : n.kind ∈ f.kinds := by
  obtain ⟨e, hsuits, hn⟩ := hn
  rw [kind_of_build hn]
  refine hsuits.resolve_left ?_
  rintro rfl
  cases (build_eq_ok_iff.mp hn).1

/-- Every child has been a child element. -/
theorem Form.exists_becomes_of_mem {children : List Element} {nodes : List Node}
    (h : List.Forall₂ f.Becomes children nodes) (hc : c ∈ nodes) :
    ∃ d ∈ children, f.Becomes d c := by
  induction h with
  | nil => exact absurd hc List.not_mem_nil
  | @cons d m children nodes hdm _ ih =>
    rcases List.mem_cons.mp hc with rfl | hc
    · exact ⟨d, List.mem_cons_self, hdm⟩
    · obtain ⟨d', hd', hc⟩ := ih hc
      exact ⟨d', List.mem_cons_of_mem d hd', hc⟩

/-- The children of a node are built with the forms of its slots, or are pairs of such. -/
theorem Form.Builds.child (hn : f.Builds n) (hc : c ∈ n.children) :
    (∃ tag slot, f.slot? tag = some slot ∧ slot.form.Builds c)
      ∨ ∃ term definition, c = .pair term definition ∧ ∀ m ∈ c.children, ∃ tag slot,
        variableList.slot? tag = some slot ∧ slot.form.Builds m := by
  obtain ⟨e, -, hn⟩ := hn
  obtain ⟨-, -, content, hcontent, -, rfl⟩ := build_eq_ok_iff.mp hn
  have hbuilds : ∀ m ∈ Content.children content,
      ∃ tag slot, f.slot? tag = some slot ∧ slot.form.Builds m := by
    intro m hm
    obtain ⟨d, -, slot, hslot, hm⟩ := exists_becomes_of_mem (becomes_of_buildContent hcontent) hm
    exact ⟨d.name, slot, hslot, d, suits_of_slot? hslot, hm⟩
  rcases children_arrange hc with hc | ⟨rfl, term, hterm, definition, hdefinition, rfl⟩
  · exact Or.inl (hbuilds c hc)
  · refine Or.inr ⟨term, definition, rfl, fun m hm => ?_⟩
    rcases List.mem_pair.mp hm with rfl | rfl
    · exact hbuilds m hterm
    · exact hbuilds m hdefinition

/-- The children of what has been built have been built, too. -/
theorem Node.IsBuilt.child (hn : n.IsBuilt) (hc : c ∈ n.children) : c.IsBuilt := by
  rcases hn with ⟨f, hf⟩ | ⟨-, -, -, hpair⟩
  · exact (hf.child hc).imp_left fun ⟨_, slot, _, hc⟩ => ⟨slot.form, hc⟩
  · obtain ⟨-, slot, -, hc⟩ := hpair c hc
    exact Or.inl ⟨slot.form, hc⟩

theorem Node.mem_children_of_childAt? (hc : n.childAt? place = some c) : c ∈ n.children :=
  mem_children_of_getElem? hc

/-- Whatever stands below is built. -/
theorem Node.IsBuilt.descend? (hn : n.IsBuilt) (hm : n.descend? path = some m) : m.IsBuilt := by
  induction path generalizing n with
  | nil =>
    obtain rfl := Option.some.inj hm
    exact hn
  | cons place path ih =>
    obtain ⟨c, hc, hm⟩ := Option.bind_eq_some_iff.mp hm
    exact ih (hn.child (mem_children_of_childAt? hc)) hm

/-- A path leads to a node, and on to one of its children at another path. -/
def Node.IsAbove (n : Node) (path above : List Nat) (m : Node) : Prop :=
  ∃ place, path = above ++ [place] ∧ n.descend? above = some m

/-- The last step of a path leads to a child. -/
theorem Node.descend?_append_singleton :
    n.descend? (above ++ [place]) = (n.descend? above).bind (·.childAt? place) := by
  induction above generalizing n with
  | nil => exact Option.bind_fun_some _
  | cons first above ih =>
    rw [List.cons_append, descend?, descend?, Option.bind_assoc]
    exact Option.bind_congr fun c _ => ih

/-- There is a node above all others than the root. -/
theorem Node.exists_isAbove (hm : n.descend? path = some m) (hkind : m.kind ≠ n.kind) :
    ∃ above p, n.IsAbove path above p ∧ m ∈ p.children := by
  rcases List.eq_nil_or_concat' path with rfl | ⟨above, place, rfl⟩
  · exact absurd (congrArg Node.kind (Option.some.inj hm)).symm hkind
  · rw [descend?_append_singleton] at hm
    obtain ⟨p, hp, hm⟩ := Option.bind_eq_some_iff.mp hm
    exact ⟨above, p, ⟨place, rfl, hp⟩, mem_children_of_childAt? hm⟩

end

/-! ### Levels -/

/-- The kinds of nodes that hold the sections of a level: descriptions and copied documentation
those of the first, sections those of the next. -/
def NodeKind.HoldsSections (k : NodeKind) (level : Nat) : Prop :=
  (level = 1 ∧ (k.isDescription = true ∨ k = .copyDoc))
    ∨ (1 < level ∧ k.sectLevel? = some (level - 1))

namespace Form

variable {f : Form} {n : Node} {level : Nat} {tag : String} {slot : Slot}

/-- The level that a form is given. -/
def level? : Form → Option Nat
  | .sect level | .internal level => some level
  | _ => none

/-- The level that a form gives to the forms of its slots. -/
def levelWithin? : Form → Option Nat
  | .description | .copyDoc => some 1
  | .sect level => some (level + 1)
  | .internal level => some level
  | _ => none

/-- No element in running text is a section. -/
theorem level?_ofMarkup (tag : String) : (ofMarkup tag).level? = none := by
  rw [ofMarkup]
  cases NodeKind.ofTag? tag with
  | none => rfl
  | some k => cases k <;> rfl

/-- **A level is given from above.** -/
theorem level?_eq_of_mem_slots (hslot : slot ∈ f.slots) :
    slot.form.level? = none ∨ slot.form.level? = f.levelWithin? := by
  cases f with
  | sect level =>
    simp only [slots, List.cons_append, List.nil_append, List.mem_cons] at hslot
    rcases hslot with rfl | rfl | rfl | hslot
    · exact Or.inl rfl
    · exact Or.inl rfl
    · exact Or.inr rfl
    · exact Or.inr (by rw [form_of_mem_sections hslot]; rfl)
  | internal level =>
    simp only [slots, List.mem_cons] at hslot
    rcases hslot with rfl | hslot
    · exact Or.inl rfl
    · exact Or.inr (by rw [form_of_mem_sections hslot]; rfl)
  -- all other forms have the same few slots at every level
  | _ => revert slot; decide

/-- All sections that may stand in an element are of one level. -/
theorem levelWithin?_eq_some (hslot : f.slot? tag = some slot)
    (hlevel : slot.form.level? = some level) : f.levelWithin? = some level := by
  cases hf : f.takesMarkup with
  | true =>
    rw [slot_eq_of_takesMarkup hf hslot, many, level?_ofMarkup] at hlevel
    cases hlevel
  | false =>
    obtain ⟨hmem, -⟩ := mem_slots_of_slot? hf hslot
    rcases level?_eq_of_mem_slots hmem with hnone | heq
    · rw [hnone] at hlevel
      cases hlevel
    · rw [← heq, hlevel]

/-- Internal parts hold no internal parts. -/
theorem slot_form_ne_internal {level' : Nat} (hslot : (internal level).slot? tag = some slot) :
    slot.form ≠ .internal level' := by
  obtain ⟨hmem, -⟩ := mem_slots_of_slot? rfl hslot
  rw [slots, List.mem_cons] at hmem
  rcases hmem with rfl | hmem
  · simp [many]
  · simp [form_of_mem_sections hmem]

/-! ### Sections and internal parts -/

/-- Only the form of a level makes its sections. -/
theorem eq_sect_of_mem_kinds {k : NodeKind} (hk : k ∈ f.kinds)
    (hlevel : k.sectLevel? = some level) : f = .sect level := by
  -- no kind of another form is that of a section
  have hnone : ∀ {kinds : List NodeKind}, (∀ k ∈ kinds, k.sectLevel? = none) → k ∉ kinds := by
    intro kinds hkinds hk
    rw [hkinds k hk] at hlevel
    cases hlevel
  cases f with
  | sect level' =>
    have hlevel' := NodeKind.sectLevel?_eq_some_iff.mpr (Option.mem_toList.mp hk)
    rw [Option.some.inj (hlevel.symm.trans hlevel')]
  | internal level' =>
    have hk : k ∈ [NodeKind.internal] := hk
    exact absurd hk (hnone (by decide))
  | _ => exact absurd hk (hnone (by decide))

/-- Only the forms of internal parts are for them. -/
theorem eq_internal_of_mem_kinds (hk : .internal ∈ f.kinds) : ∃ level, f = .internal level := by
  cases f with
  | sect level =>
    have hlevels : ∀ x ∈ NodeKind.levels, x.2 ≠ .internal := by decide
    exact absurd rfl (hlevels _ (mem_levels_of_mem_kinds_sect hk))
  | internal level => exact ⟨level, rfl⟩
  | _ => exact absurd hk (by decide)

/-- The data of a section tells its level. -/
theorem Builds.data_eq (hn : (sect level).Builds n) :
    ∃ id title, n.data = .sect level id title := by
  obtain ⟨e, -, hn⟩ := hn
  obtain ⟨-, -, content, -, -, rfl⟩ := build_eq_ok_iff.mp hn
  exact ⟨_, _, rfl⟩

/-- Descriptions, copied documentation and sections hold sections of the level that they give. -/
theorem Builds.holdsSections (hn : f.Builds n) (hlevel : f.levelWithin? = some level)
    (hf : ∀ level', f ≠ .internal level') : n.kind.HoldsSections level := by
  have hkind := hn.kind_mem
  -- Only descriptions, copies of them and sections hold sections, besides the internal parts.
  cases f with
  | description =>
    obtain rfl := Option.some.inj hlevel
    have hdescription : ∀ k ∈ description.kinds, k.isDescription = true := by decide
    exact Or.inl ⟨rfl, .inl (hdescription _ hkind)⟩
  | copyDoc =>
    obtain rfl := Option.some.inj hlevel
    exact Or.inl ⟨rfl, .inr (List.mem_singleton.mp hkind)⟩
  | sect level' =>
    obtain rfl := Option.some.inj hlevel
    have hsect := Option.mem_toList.mp hkind
    refine Or.inr ⟨Nat.succ_lt_succ (NodeKind.le_of_sect? hsect).1, ?_⟩
    rw [Nat.add_sub_cancel]
    exact NodeKind.sectLevel?_eq_some_iff.mpr hsect
  | internal level' => exact absurd rfl (hf level')
  | _ => cases hlevel

end Form

namespace Node

variable {f : Form} {n p c s : Node} {level : Nat}

/-- A node can only be built by a form that is given this level. -/
def HasLevel (n : Node) (level : Nat) : Prop :=
  n.kind ≠ .varListPair ∧ ∀ f : Form, f.Builds n → f.level? = some level

theorem hasLevel_of_sectLevel? (hlevel : n.kind.sectLevel? = some level) : n.HasLevel level := by
  constructor
  · intro h
    rw [h] at hlevel
    cases hlevel
  · intro f hf
    rw [Form.eq_sect_of_mem_kinds hf.kind_mem hlevel]
    rfl

/-- What is above a node with a level gives it this level. -/
theorem HasLevel.levelWithin?_eq (hc : c.HasLevel level) (hmem : c ∈ p.children)
    (hp : f.Builds p) : f.levelWithin? = some level := by
  rcases hp.child hmem with ⟨tag, slot, hslot, hform⟩ | ⟨term, definition, rfl, -⟩
  · exact Form.levelWithin?_eq_some hslot (hc.2 _ hform)
  · exact absurd rfl hc.1

/-- Internal parts have the level of the sections in them. -/
theorem hasLevel_of_internal (hkind : n.kind = .internal) (hs : s ∈ n.children)
    (hlevel : s.kind.sectLevel? = some level) : n.HasLevel level := by
  refine ⟨by rw [hkind]; decide, fun f hf => ?_⟩
  have hwithin := (hasLevel_of_sectLevel? hlevel).levelWithin?_eq hs hf
  obtain ⟨level', rfl⟩ := Form.eq_internal_of_mem_kinds (hkind ▸ hf.kind_mem)
  exact hwithin

/-- No pair is above a node with a level. -/
theorem HasLevel.exists_form (hc : c.HasLevel level) (hmem : c ∈ p.children) (hp : p.IsBuilt) :
    ∃ f : Form, f.Builds p ∧ f.levelWithin? = some level := by
  rcases hp with ⟨f, hf⟩ | ⟨-, -, -, hpair⟩
  · exact ⟨f, hf, hc.levelWithin?_eq hmem hf⟩
  -- the slots of a variable list give no level
  · obtain ⟨tag, slot, hslot, hform⟩ := hpair c hmem
    cases Form.levelWithin?_eq_some hslot (hc.2 _ hform)

/-- No internal part is above another. -/
theorem kind_ne_internal (hp : (Form.internal level).Builds p) (hmem : c ∈ p.children) :
    c.kind ≠ .internal := by
  intro hkind
  rcases hp.child hmem with ⟨tag, slot, hslot, hform⟩ | ⟨term, definition, rfl, -⟩
  · obtain ⟨level', hslot'⟩ := Form.eq_internal_of_mem_kinds (hkind ▸ hform.kind_mem)
    exact Form.slot_form_ne_internal hslot hslot'
  · cases hkind

end Node

/-! ### Compounds -/

section

variable {e d : Element} {n m : Node} {path : List Nat} {level : Nat}

theorem builds_compound (hn : buildCompound e = .ok n) : Form.compound.Builds n :=
  ⟨e, suits_of_buildCompound hn, hn⟩

/-- The forms of sections that building comes to have levels of the schema. -/
theorem sect?_of_reaches (h : Form.compound.Reaches e (.sect level) d) :
    NodeKind.sect? level = some (Form.kindOf d.name) := by
  rcases h.eq_or_suits with ⟨hcompound, -⟩ | hmisplaced | hkind
  · cases hcompound
  · cases hmisplaced
  · exact Option.mem_toList.mp hkind

/-- Where a section of a compound stands. -/
theorem exists_holdsSections (hn : buildCompound e = .ok n) (hm : n.descend? path = some m)
    (hlevel : m.kind.sectLevel? = some level) :
    ∃ above p, n.IsAbove path above p
      ∧ (p.kind.HoldsSections level
        ∨ p.kind = .internal ∧ ∃ top q, n.IsAbove above top q ∧ q.kind.HoldsSections level) := by
  have hroot := builds_compound hn
  have hkind : n.kind = .compoundDef := List.mem_singleton.mp hroot.kind_mem
  -- the root is no section, so there is a node above, and it gives the section its level
  have hbelow : m.kind ≠ n.kind := by
    intro h
    rw [h, hkind] at hlevel
    cases hlevel
  obtain ⟨above, p, habove, hmp⟩ := Node.exists_isAbove hm hbelow
  obtain ⟨-, -, hp⟩ := id habove
  obtain ⟨f, hf, hwithin⟩ := (Node.hasLevel_of_sectLevel? hlevel).exists_form hmp
    (Node.IsBuilt.descend? (.inl ⟨_, hroot⟩) hp)
  refine ⟨above, p, habove, ?_⟩
  -- an internal part has the level that it gives, and is no child of another internal part
  by_cases hinternal : ∃ level', f = .internal level'
  · right
    obtain ⟨level', rfl⟩ := hinternal
    have hpkind : p.kind = .internal := List.mem_singleton.mp hf.kind_mem
    obtain ⟨top, q, htop, hpq⟩ := Node.exists_isAbove hp (by rw [hpkind, hkind]; decide)
    obtain ⟨-, -, hq⟩ := id htop
    obtain ⟨g, hg, hgwithin⟩ := (Node.hasLevel_of_internal hpkind hmp hlevel).exists_form hpq
      (Node.IsBuilt.descend? (.inl ⟨_, hroot⟩) hq)
    refine ⟨hpkind, top, q, htop, hg.holdsSections hgwithin ?_⟩
    rintro level'' rfl
    exact Node.kind_ne_internal hg hpq hpkind
  · exact Or.inl (hf.holdsSections hwithin fun level' h => hinternal ⟨level', h⟩)

/-- Sections have their level in their data. -/
theorem exists_data_of_section (hn : buildCompound e = .ok n) (hm : n.descend? path = some m)
    (hlevel : m.kind.sectLevel? = some level) : ∃ id title, m.data = .sect level id title := by
  have hbuilt := Node.IsBuilt.descend? (.inl ⟨_, builds_compound hn⟩) hm
  rcases hbuilt with ⟨f, hf⟩ | ⟨term, definition, rfl, -⟩
  · obtain rfl := Form.eq_sect_of_mem_kinds hf.kind_mem hlevel
    exact hf.data_eq
  · cases hlevel

/-- Nothing but a section has the data of one. -/
theorem sectLevel?_of_data {id : Option String} {title : Option Nat}
    (hn : buildCompound e = .ok n) (hm : n.descend? path = some m)
    (hdata : m.data = .sect level id title) : m.kind.sectLevel? = some level := by
  have hbuilt := Node.IsBuilt.descend? (.inl ⟨_, builds_compound hn⟩) hm
  rcases hbuilt with ⟨f, hf⟩ | ⟨term, definition, rfl, -⟩
  · have hkind := hf.kind_mem
    obtain ⟨d, -, hm⟩ := hf
    obtain ⟨-, -, content, -, -, rfl⟩ := Form.build_eq_ok_iff.mp hm
    have hform := Form.form_of_dataOf f d content
    rw [show f.dataOf d content = .sect level id title from hdata] at hform
    subst hform
    exact NodeKind.sectLevel?_eq_some_iff.mpr (Option.mem_toList.mp hkind)
  · cases hdata

end

/-- **Sections nest by level.**  Every section of a compound has its level in its data, and stands,
itself or by way of one internal part, in a section of the level before, or in a description or in
copied documentation if it is of the first level.  No element is refused for being a section of a
level that the schema does not have. -/
theorem sections_nest (e : Element) :
    (∀ n, buildCompound e = .ok n → ∀ path m, n.descend? path = some m →
      (∀ level, m.kind.sectLevel? = some level →
        (∃ id title, m.data = .sect level id title) ∧ 1 ≤ level ∧ level ≤ 6
          ∧ ∃ above p, n.IsAbove path above p
            ∧ (p.kind.HoldsSections level
              ∨ p.kind = .internal
                ∧ ∃ top q, n.IsAbove above top q ∧ q.kind.HoldsSections level))
      ∧ ∀ level id title, m.data = .sect level id title → m.kind.sectLevel? = some level)
    ∧ ∀ level d, Form.compound.Reaches e (.sect level) d →
      1 ≤ level ∧ level ≤ 6 ∧ (Form.sect level).refuses? d.name = none := by
  refine ⟨fun n hn path m hm => ⟨fun level hlevel => ?_, ?_⟩, fun level d hreaches => ?_⟩
  · obtain ⟨hlow, hhigh⟩ := NodeKind.le_of_sect? (NodeKind.sectLevel?_eq_some_iff.mp hlevel)
    exact ⟨exists_data_of_section hn hm hlevel, hlow, hhigh, exists_holdsSections hn hm hlevel⟩
  · intro level id title hdata
    exact sectLevel?_of_data hn hm hdata
  · have hsect := sect?_of_reaches hreaches
    obtain ⟨hlow, hhigh⟩ := NodeKind.le_of_sect? hsect
    refine ⟨hlow, hhigh, ?_⟩
    rw [Form.refuses?, hsect]
    rfl

/-- A page with a section of the second level in an internal part of one of the first, where copied
documentation begins with the first level again. -/
def copiedSections : Element :=
  let copied : Element :=
    { name := "copydoc", attributes := [⟨"link", "b"⟩], content := [.child { name := "sect1" }] }
  let second : Element :=
    { name := "sect2", content := [.child { name := "para", content := [.child copied] }] }
  let first : Element :=
    { name := "sect1", content := [.child { name := "internal", content := [.child second] }] }
  { name := "compounddef"
    attributes := [⟨"id", "a"⟩, ⟨"kind", "page"⟩]
    content :=
      [.child { name := "compoundname", content := [.text "a"] },
       .child { name := "detaileddescription", content := [.child first] }] }

theorem sections_nest_copiedSections :
    ∃ n m s, buildCompound copiedSections = .ok n
      ∧ n.descend? [1, 0, 0, 0] = some m ∧ m.kind.sectLevel? = some 2
      ∧ (∃ above p, n.IsAbove [1, 0, 0, 0] above p
        ∧ (p.kind.HoldsSections 2
          ∨ p.kind = .internal ∧ ∃ top q, n.IsAbove above top q ∧ q.kind.HoldsSections 2))
      ∧ n.descend? [1, 0, 0, 0, 0, 0, 0] = some s ∧ s.kind.sectLevel? = some 1
      ∧ ∃ above p, n.IsAbove [1, 0, 0, 0, 0, 0, 0] above p
        ∧ (p.kind.HoldsSections 1
          ∨ p.kind = .internal ∧ ∃ top q, n.IsAbove above top q ∧ q.kind.HoldsSections 1) := by
  have hbuilt : (buildCompound copiedSections).toOption.any (fun n =>
      (n.descend? [1, 0, 0, 0]).any (·.kind == .sect2)
        && (n.descend? [1, 0, 0, 0, 0, 0, 0]).any (·.kind == .sect1)) = true := by
    decide +kernel
  obtain ⟨n, hn, hsections⟩ := exists_eq_ok_of_any hbuilt
  obtain ⟨hsecond, hfirst⟩ := Bool.and_eq_true_iff.mp hsections
  obtain ⟨m, hm, hmkind⟩ := (Option.any_eq_true _ _).mp hsecond
  obtain ⟨s, hs, hskind⟩ := (Option.any_eq_true _ _).mp hfirst
  have hmlevel : m.kind.sectLevel? = some 2 := by rw [beq_iff_eq.mp hmkind]; rfl
  have hslevel : s.kind.sectLevel? = some 1 := by rw [beq_iff_eq.mp hskind]; rfl
  obtain ⟨-, -, -, hmabove⟩ := ((sections_nest copiedSections).1 n hn _ m hm).1 2 hmlevel
  obtain ⟨-, -, -, hsabove⟩ := ((sections_nest copiedSections).1 n hn _ s hs).1 1 hslevel
  exact ⟨n, m, s, hn, hm, hmlevel, hmabove, hs, hslevel, hsabove⟩

end DocGraph
