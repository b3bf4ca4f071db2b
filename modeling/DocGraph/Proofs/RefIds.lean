import DocGraph.Graph.RefId
import Mathlib.Data.List.Infix

namespace DocGraph

/-!
# Taking reference ids apart

An id is split at a delimiter, and nothing but the delimiter is lost.

* `eq_append_of_cutLast?`, `cutLast?_eq_none_iff`, `cutLast?_append` — what a cut at the last
  separator means, when there is none, and where it is made;
* `RefId.EndsIn`, `RefId.fragment_eq_iff` — the label in which an id ends, behind its last
  delimiter;
* `RefId.toList_owner` — the anchors of the usual shape hold no delimiter, so that these ids are
  split at the last delimiter as well;
* `RefId.owner_append_fragment` — hence the two parts of an id give it back.
-/

variable {sep cs before after : List Char}

/-! ### The last separator -/

/-- A cut takes out one separator and nothing else. -/
theorem eq_append_of_cutLast? (hcut : cutLast? sep cs = some (before, after)) :
    cs = before ++ (sep ++ after) := by
  induction cs generalizing before with
  | nil =>
    rw [cutLast?] at hcut
    split at hcut
    · rename_i hsep
      obtain ⟨rfl, rfl⟩ := Prod.mk.inj (Option.some.inj hcut)
      simpa using hsep
    · simp at hcut
  | cons c cs ih =>
    -- the cut is further on, or here, or nowhere
    rw [cutLast?] at hcut
    split at hcut
    · rename_i b a hrest
      obtain ⟨rfl, rfl⟩ := Prod.mk.inj (Option.some.inj hcut)
      rw [ih hrest]
      rfl
    · split at hcut
      · rename_i hpre
        obtain ⟨rfl, rfl⟩ := Prod.mk.inj (Option.some.inj hcut)
        obtain ⟨rest, hrest⟩ := List.isPrefixOf_iff_prefix.mp hpre
        rw [← hrest, List.drop_left, List.nil_append]
      · simp at hcut

/-- There is no cut where the separator does not occur. -/
theorem cutLast?_eq_none_iff : cutLast? sep cs = none ↔ ¬ sep <:+: cs := by
  induction cs with
  | nil =>
    rw [cutLast?, List.infix_nil]
    cases sep <;> simp
  | cons c cs ih =>
    rw [cutLast?, List.infix_cons_iff, not_or, ← ih]
    cases hrest : cutLast? sep cs with
    | some cut => simp
    | none => simp [← List.isPrefixOf_iff_prefix]

/-- Behind the cut there is no other separator. -/
theorem not_infix_of_cutLast? (hsep : sep ≠ []) (hcut : cutLast? sep cs = some (before, after)) :
    ¬ sep <:+: after := by
  induction cs generalizing before with
  | nil => simp [cutLast?, hsep] at hcut
  | cons c cs ih =>
    rw [cutLast?] at hcut
    split at hcut
    · rename_i b a hrest
      obtain ⟨-, rfl⟩ := Prod.mk.inj (Option.some.inj hcut)
      exact ih hrest
    · rename_i hnone
      split at hcut
      · obtain ⟨-, rfl⟩ := Prod.mk.inj (Option.some.inj hcut)
        -- what follows the separator is the end of a text in which there is none
        obtain ⟨s, sep, rfl⟩ := List.exists_cons_of_ne_nil hsep
        intro hlater
        have hdrop : (c :: cs).drop (s :: sep).length <:+: cs := (List.drop_suffix _ cs).isInfix
        exact cutLast?_eq_none_iff.mp hnone (hlater.trans hdrop)
      · simp at hcut

/-- **The cut is made** where what follows begins no other separator. -/
theorem cutLast?_append {s : Char} (hs : ¬ s :: sep <:+: sep ++ after) :
    cutLast? (s :: sep) (before ++ (s :: sep ++ after)) = some (before, after) := by
  induction before with
  | nil =>
    have hnone : cutLast? (s :: sep) (sep ++ after) = none := cutLast?_eq_none_iff.mpr hs
    have hpre : (s :: sep).isPrefixOf (s :: (sep ++ after)) = true :=
      List.isPrefixOf_iff_prefix.mpr (List.prefix_append (s :: sep) after)
    rw [List.nil_append, List.cons_append, cutLast?, hnone]
    simp [hpre]
  | cons c before ih => rw [List.cons_append, cutLast?, ih]

namespace RefId

/-- A delimiter that no other one follows is the one at which an id is cut. -/
theorem cutLast?_delimiter_append (hafter : ¬ delimiter <:+: after) :
    cutLast? delimiter (before ++ (delimiter ++ after)) = some (before, after) := by
  refine cutLast?_append fun hwithin => ?_
  -- the end of a delimiter begins no other one
  rcases List.infix_cons_iff.mp hwithin with hpre | hwithin
  · exact absurd (List.cons_prefix_cons.mp hpre).1 (by decide)
  · exact hafter hwithin

/-! ### Hashed anchors -/

theorem isSmallLetter_underscore : isSmallLetter '_' = false := by decide

theorem isHexDigit_underscore : isHexDigit '_' = false := by decide

/-- What stands behind the part before a hashed anchor is the delimiter and an anchor in which no
other delimiter can begin. -/
theorem eq_append_of_hashedOwnerWith? {id owner : List Char} {letters : Nat}
    (howner : hashedOwnerWith? id letters = some owner) :
    ∃ anchor, id = owner ++ (delimiter ++ anchor) ∧ '_' ∉ anchor := by
  simp only [hashedOwnerWith?, Option.ite_none_right_eq_some, Bool.and_eq_true, List.all_eq_true,
    Option.some.injEq] at howner
  obtain ⟨⟨⟨⟨⟨-, hdigits⟩, -⟩, hlead⟩, hdelimiter⟩, rfl⟩ := howner
  set digits := id.drop (id.length - hashDigits)
  set before := id.take (id.length - hashDigits)
  set lead := before.drop (before.length - letters)
  set front := before.take (before.length - letters)
  -- From behind: the digits, the letters before them, and the delimiter that ends the front.
  have hid : id = front ++ (lead ++ digits) := by
    rw [← List.append_assoc, List.take_append_drop, List.take_append_drop]
  obtain ⟨owner, howner⟩ := List.isSuffixOf_iff_suffix.mp hdelimiter
  refine ⟨lead ++ digits, ?_, fun hmem => ?_⟩
  · rw [← List.append_assoc, ← howner, List.length_append, Nat.add_sub_cancel, List.take_left,
      howner]
    exact hid
  · rcases List.mem_append.mp hmem with hmem | hmem
    · exact absurd (hlead _ hmem) (by simp [isSmallLetter_underscore])
    · exact absurd (hdigits _ hmem) (by simp [isHexDigit_underscore])

/-- **Hashed anchors are cut off where any anchor is**, at the last delimiter. -/
theorem cutLast?_of_hashedOwner? {id owner : List Char} (howner : hashedOwner? id = some owner) :
    ∃ anchor, cutLast? delimiter id = some (owner, anchor) := by
  obtain ⟨letters, -, hletters⟩ := List.exists_of_findSome?_eq_some howner
  obtain ⟨anchor, rfl, hanchor⟩ := eq_append_of_hashedOwnerWith? hletters
  exact ⟨anchor, cutLast?_delimiter_append fun hwithin => hanchor (hwithin.subset (by decide))⟩

/-- **The owner of a hashed anchor** is what stands before the last delimiter. -/
theorem beforeLast_of_hashedOwner? {id owner : List Char} (howner : hashedOwner? id = some owner) :
    beforeLast delimiter id = owner := by
  obtain ⟨anchor, hcut⟩ := cutLast?_of_hashedOwner? howner
  rw [beforeLast, hcut]
  rfl

/-- So it is for every id, whether its anchor is hashed or not. -/
theorem toList_owner (id : String) : (owner id).toList = beforeLast delimiter id.toList := by
  rw [owner, String.toList_ofList]
  cases howner : hashedOwner? id.toList with
  | none => rfl
  | some o => exact (beforeLast_of_hashedOwner? howner).symm

/-! ### Ends of ids -/

/-- An id ends in a label: it is the label, or has the label behind a delimiter, and no other
delimiter follows. -/
structure EndsIn (id label : String) : Prop where
  no_delimiter : ¬ delimiter <:+: label.toList
  ends : id = label ∨ ∃ before, id.toList = before ++ (delimiter ++ label.toList)

/-- **The fragment of an id** is the one label in which it ends. -/
theorem fragment_eq_iff {id label : String} : fragment id = label ↔ EndsIn id label := by
  constructor
  · rintro rfl
    -- Without a delimiter the label is the whole id; with one it is what is behind the last.
    cases hcut : cutLast? delimiter id.toList with
    | none =>
      have hwhole : fragment id = id := by rw [fragment, afterLast, hcut]; simp
      rw [hwhole]
      exact ⟨cutLast?_eq_none_iff.mp hcut, Or.inl rfl⟩
    | some parts =>
      obtain ⟨before, after⟩ := parts
      have hafter : (fragment id).toList = after := by
        rw [fragment, String.toList_ofList, afterLast, hcut]
        rfl
      refine ⟨?_, Or.inr ⟨before, ?_⟩⟩
      · rw [hafter]
        exact not_infix_of_cutLast? (by decide) hcut
      · rw [hafter]
        exact eq_append_of_cutLast? hcut
  · rintro ⟨hfree, rfl | ⟨before, hid⟩⟩
    · rw [fragment, afterLast, cutLast?_eq_none_iff.mpr hfree]
      simp
    · rw [fragment, afterLast, hid, cutLast?_delimiter_append hfree]
      simp

/-! ### Both parts -/

/-- **An id with a delimiter is its two parts**, joined by the delimiter. -/
theorem owner_append_fragment {id : String} (hid : delimiter <:+: id.toList) :
    (owner id).toList ++ (delimiter ++ (fragment id).toList) = id.toList := by
  obtain ⟨⟨before, after⟩, hcut⟩ := Option.ne_none_iff_exists'.mp
    (mt cutLast?_eq_none_iff.mp (not_not.mpr hid))
  rw [toList_owner, fragment, String.toList_ofList, beforeLast, afterLast, hcut]
  exact (eq_append_of_cutLast? hcut).symm

/-- Ids with a delimiter are the same if both of their parts are. -/
theorem eq_of_owner_eq_of_fragment_eq {id id' : String} (hid : delimiter <:+: id.toList)
    (hid' : delimiter <:+: id'.toList) (howner : owner id = owner id')
    (hfragment : fragment id = fragment id') : id = id' := by
  rw [← String.toList_inj, ← owner_append_fragment hid, ← owner_append_fragment hid', howner,
    hfragment]

end RefId

end DocGraph
