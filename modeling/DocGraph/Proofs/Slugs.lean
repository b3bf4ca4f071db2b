import DocGraph.Proofs.Casing
import DocGraph.Proofs.Words

namespace DocGraph

/-!
# Slugs of slugs

A slug ought to be made of letters, numbers and single hyphens, and so to be its own slug.  One
capital stands in the way: lower case takes the dotted capital I apart, into a letter and a
combining dot, and the dot is no letter.

* `isAlphanumeric_of_mem_lowered` — lower case of any other letter or number is one again;
* `hasWords_intercalate` — words that are joined by hyphens are found again;
* `PermalinkStyle.AddsDot` — the names that have the capital, in a style with lower case;
* `PermalinkStyle.slug_slug_iff` — the main statement: slugs of all other names are made as they
  ought to be, and only these are their own slugs;
* `PermalinkStyle.not_slug_slug_dottedCapital` — the slug of the capital is not.
-/

/-! ### Lower case -/

/-- The small letters of all runs are letters. -/
theorem all_within_alphanumericRanges :
    caseRuns.all (fun r => alphanumericRanges.any fun letters => Nat.ble letters.first r.lower
      && Nat.ble (r.lower + (r.last - r.first)) letters.last) = true := by
  decide +kernel

/-- The small letters of a run are letters. -/
theorem exists_range_of_mem_caseRuns {r : CaseRun} (hr : r ∈ caseRuns) :
    ∃ letters ∈ alphanumericRanges,
      letters.first ≤ r.lower ∧ r.lower + (r.last - r.first) ≤ letters.last := by
  have hwithin := List.all_eq_true.mp all_within_alphanumericRanges r hr
  simpa only [List.any_eq_true, Bool.and_eq_true, Nat.ble_eq] using hwithin

/-- **Lower case of a letter or number** is one again, save for the dotted capital I. -/
theorem isAlphanumeric_of_mem_lowered {c d : Char} (hc : isAlphanumeric c = true)
    (hdotted : c ≠ '\u0130') (hd : d ∈ lowered c) : isAlphanumeric d = true := by
  rcases lowered_cases c with heq | ⟨r, hr, hcovers, heq⟩ | heq
  · -- no other character is taken apart
    rw [lowered, if_neg hdotted] at heq
    split at heq <;> simp at heq
  · obtain rfl := List.mem_singleton.mp (heq ▸ hd)
    obtain ⟨letters, hletters, hfirst, hlast⟩ := exists_range_of_mem_caseRuns hr
    refine List.any_eq_true.mpr ⟨letters, hletters, ?_⟩
    rw [toNat_lowered hr hcovers]
    have hlowered : r.lowered c.toNat = r.lower + (c.toNat - r.first) := rfl
    simp only [CaseRun.covers, Bool.and_eq_true, decide_eq_true_eq] at hcovers ⊢
    omega
  · obtain rfl := List.mem_singleton.mp (heq ▸ hd)
    exact hc

/-! ### Words joined by hyphens -/

section

variable {c : Char} {cs : List Char} {words : List (List Char)}

/-- Words behind hyphens are the words of the text. -/
theorem hasWords_flatMap_hyphen (hwords : ∀ word ∈ words, IsWord word) :
    HasWords (words.flatMap ('-' :: ·)) words ∧ EndsWord (words.flatMap ('-' :: ·)) := by
  have hhyphen : isAlphanumeric '-' = false := by decide +kernel
  have hgap : IsGap ['-'] := by simp [IsGap, hhyphen]
  induction words with
  | nil => exact ⟨.gap isGap_nil, by simp [EndsWord]⟩
  | cons word words ih =>
    obtain ⟨hword, hwords⟩ := List.forall_mem_cons.mp hwords
    obtain ⟨hrest, hends⟩ := ih hwords
    refine ⟨?_, by simp [EndsWord, hhyphen]⟩
    rw [List.flatMap_cons]
    exact .word hgap hword hends hrest

/-- **Words that are joined by hyphens** are found again. -/
theorem hasWords_intercalate (hwords : ∀ word ∈ words, IsWord word) :
    HasWords (['-'].intercalate words) words := by
  cases words with
  | nil => exact .gap isGap_nil
  | cons word words =>
    obtain ⟨hword, hwords⟩ := List.forall_mem_cons.mp hwords
    obtain ⟨hrest, hends⟩ := hasWords_flatMap_hyphen hwords
    rw [intercalate_cons_eq]
    exact .word isGap_nil hword hends hrest

/-- The letters and numbers of a text are those of its words. -/
theorem HasWords.mem_flatten_iff (h : HasWords cs words) :
    c ∈ words.flatten ↔ c ∈ cs ∧ isAlphanumeric c = true := by
  induction h with
  | gap hgap =>
    simp only [List.flatten_nil, List.not_mem_nil, false_iff, not_and]
    intro hc
    simp [hgap c hc]
  | @word gap word rest words hgap hword hends hrest ih =>
    rw [List.flatten_cons, List.mem_append, ih, List.mem_append, List.mem_append]
    have hgap' : c ∈ gap → isAlphanumeric c = false := hgap c
    have hword' : c ∈ word → isAlphanumeric c = true := hword.alphanumeric c
    grind

end

/-! ### Slugs -/

namespace PermalinkStyle

variable {p : PermalinkStyle} {name : String} {c letter : Char} {word : List Char}

/-- Whether lower case puts a combining dot into the slug of a name. -/
def AddsDot (p : PermalinkStyle) (name : String) : Prop :=
  p.lowercase = true ∧ '\u0130' ∈ name.toList

instance (p : PermalinkStyle) (name : String) : Decidable (p.AddsDot name) :=
  inferInstanceAs (Decidable (_ ∧ _))

/-- What a style makes of a letter or number stays as it is. -/
theorem cased_of_mem_cased (hc : c ∈ p.cased letter) : p.cased c = [c] := by
  by_cases hp : p.lowercase = true
  · simp only [cased, hp, if_true] at hc ⊢
    exact lowered_of_mem_lowered hc
  · simp [cased, hp]

/-- Lower case is left alone by a second turn. -/
theorem flatMap_cased_flatMap (word : List Char) :
    (word.flatMap p.cased).flatMap p.cased = word.flatMap p.cased := by
  rw [List.flatMap_assoc]
  apply List.flatMap_congr
  intro letter _
  rw [List.flatMap_congr fun c hc => cased_of_mem_cased hc, List.flatMap_singleton']

/-- A letter comes to letters in lower case, but for the capital with a dot. -/
theorem isAlphanumeric_of_mem_cased (hletter : isAlphanumeric letter = true)
    (hdotted : p.lowercase = true → letter ≠ '\u0130') (hc : c ∈ p.cased letter) :
    isAlphanumeric c = true := by
  unfold cased at hc
  split at hc
  · exact isAlphanumeric_of_mem_lowered hletter (hdotted ‹_›) hc
  · exact List.mem_singleton.mp hc ▸ hletter

/-- **The characters of a slug** other than hyphens come of letters and numbers of the name. -/
theorem mem_slug_iff (hc : c ≠ '-') :
    c ∈ (p.slug name).toList
      ↔ ∃ letter ∈ name.toList, isAlphanumeric letter = true ∧ c ∈ p.cased letter := by
  obtain ⟨words, h⟩ := exists_hasWords name.toList
  have hflatten : (words.map (·.flatMap p.cased)).flatten = words.flatten.flatMap p.cased := by
    rw [List.flatten_eq_flatMap, List.flatten_eq_flatMap, List.flatMap_assoc, List.flatMap_map]
    rfl
  rw [toList_slug h, mem_intercalate_iff hc, hflatten, List.mem_flatMap]
  simp only [h.mem_flatten_iff, and_assoc]

/-- **A slug holds letters, numbers and hyphens** unless that capital is in the name. -/
theorem isAlphanumeric_of_mem_slug (hdot : ¬ p.AddsDot name) (hc : c ∈ (p.slug name).toList) :
    isAlphanumeric c = true ∨ c = '-' := by
  by_cases hhyphen : c = '-'
  · exact Or.inr hhyphen
  · obtain ⟨letter, hmem, hletter, hc⟩ := (mem_slug_iff hhyphen).mp hc
    refine Or.inl (isAlphanumeric_of_mem_cased hletter ?_ hc)
    rintro hp rfl
    exact hdot ⟨hp, hmem⟩

/-- The dot stays in the slug of a name with the capital. -/
theorem dot_mem_slug (hdot : p.AddsDot name) : '\u0307' ∈ (p.slug name).toList := by
  refine (mem_slug_iff (by decide)).mpr ⟨'\u0130', hdot.2, by decide +kernel, ?_⟩
  rw [cased, if_pos hdot.1]
  decide

/-- **A slug never has the capital** in a style with lower case. -/
theorem not_addsDot_slug (p : PermalinkStyle) (name : String) : ¬ p.AddsDot (p.slug name) := by
  rintro ⟨hp, hmem⟩
  have hlowered := lowered_of_writes hp (p.writesAll_slug name _ hmem)
  exact absurd hlowered (by decide)

/-- **The slug of a slug**, if there is no dot in it. -/
theorem slug_slug_of_not_addsDot (hdot : ¬ p.AddsDot name) :
    p.slug (p.slug name) = p.slug name := by
  obtain ⟨words, h⟩ := exists_hasWords name.toList
  -- without the dot, what becomes of a word is a word, and so the slug is known to have these words
  have hcased : ∀ word ∈ words.map (·.flatMap p.cased), IsWord word := by
    rw [List.forall_mem_map]
    intro word hword
    refine ⟨flatMap_cased_ne_nil (h.isWord word hword), fun c hc => ?_⟩
    obtain ⟨letter, hletter, hc⟩ := List.mem_flatMap.mp hc
    obtain ⟨hmem, halphanumeric⟩ := h.mem_flatten_iff.mp (List.mem_flatten_of_mem hword hletter)
    refine isAlphanumeric_of_mem_cased halphanumeric ?_ hc
    rintro hp rfl
    exact hdot ⟨hp, hmem⟩
  have hslug : HasWords (p.slug name).toList (words.map (·.flatMap p.cased)) := by
    rw [toList_slug h]
    exact hasWords_intercalate hcased
  rw [← String.toList_inj, toList_slug hslug, toList_slug h, List.map_map]
  congr 1
  apply List.map_congr_left
  intro word _
  exact flatMap_cased_flatMap word

/-- **Slugs are made of letters, numbers and single hyphens, and are their own slugs**, unless lower
case puts a dot into them.  The slug of a slug is its own slug in any case. -/
theorem slug_slug_iff (p : PermalinkStyle) (name : String) :
    (p.slug name).toList = ['-'].intercalate ((wordsOf name.toList).map (·.flatMap p.cased))
      ∧ ((∀ c ∈ (p.slug name).toList, isAlphanumeric c = true ∨ c = '-') ↔ ¬ p.AddsDot name)
      ∧ (p.slug (p.slug name) = p.slug name ↔ ¬ p.AddsDot name)
      ∧ p.slug (p.slug (p.slug name)) = p.slug (p.slug name) := by
  have hcombining : ¬ (isAlphanumeric '\u0307' = true ∨ '\u0307' = '-') := by decide +kernel
  refine ⟨toList_slug (hasWords_iff.mpr rfl), ⟨fun hmade hdot => ?_, fun hdot c => ?_⟩,
    ⟨fun hown hdot => ?_, slug_slug_of_not_addsDot⟩, ?_⟩
  · exact hcombining (hmade _ (dot_mem_slug hdot))
  · exact isAlphanumeric_of_mem_slug hdot
  · -- the dot is not in the slug of the slug
    have hmem : '\u0307' ∈ (p.slug (p.slug name)).toList := by
      rw [hown]
      exact dot_mem_slug hdot
    exact hcombining (isAlphanumeric_of_mem_slug (p.not_addsDot_slug name) hmem)
  · exact slug_slug_of_not_addsDot (p.not_addsDot_slug name)

/-- **The slug of the dotted capital I** holds a dot, which is no letter, number or hyphen, and is
left out of its own slug. -/
theorem not_slug_slug_dottedCapital :
    ({} : PermalinkStyle).slug "\u0130" = "i\u0307"
      ∧ ¬ (isAlphanumeric '\u0307' = true ∨ '\u0307' = '-')
      ∧ ({} : PermalinkStyle).slug "i\u0307" = "i" := by
  decide +kernel

end PermalinkStyle

end DocGraph
