import DocGraph.Proofs.Nesting

namespace DocGraph

/-!
# The characters of segments

Little is left of a name in a permalink, and little is put there in its place:

* `intercalate_cons_eq`, `mem_intercalate_iff` — joined texts, and their characters;
* `PermalinkStyle.Writes`, `PermalinkStyle.WritesAll` — the characters of path components: hyphens,
  and letters and numbers as the style has them;
* `PermalinkStyle.writesAll_slug`, `PermalinkStyle.writesAll_hex`, `PermalinkStyle.writesAll_repr` —
  slugs, digests and numbers hold no others;
* `Object.writesAll_scopeSegment` — nor do the components for the scopes of a name;
* `Object.exists_components_segmentOf` — a segment is made of such components, and of slashes
  between them (`PermalinkStyle.WritesPath`, `Object.writesPath_segmentOf`);
* `Arena.forall_mem_permalink` — what is known of the characters of segments is known of permalinks.
-/

/-! ### Joined texts -/

section

variable {sep c : Char} {pieces : List (List Char)}

/-- Joined texts are the first of them, and each other one behind a separator. -/
theorem intercalate_cons_eq (sep piece : List Char) (pieces : List (List Char)) :
    sep.intercalate (piece :: pieces) = piece ++ pieces.flatMap (sep ++ ·) := by
  induction pieces generalizing piece with
  | nil => simp
  | cons next pieces ih => simp [List.intercalate_cons_cons, ih]

/-- Joined texts hold the characters of the texts, and the one that joins them. -/
theorem mem_intercalate_iff (hc : c ≠ sep) :
    c ∈ [sep].intercalate pieces ↔ c ∈ pieces.flatten := by
  cases pieces with
  | nil => simp
  | cons piece pieces => simp [intercalate_cons_eq, hc]

end

/-! ### Letters and numbers -/

/-- The digits and small letters of ASCII, of which digests, numbers and directories are made. -/
def plainLetters : List Char := "0123456789abcdefghijklmnopqrstuvwxyz".toList

/-- Digits and small letters are letters and numbers. -/
theorem isAlphanumeric_of_mem_plainLetters {c : Char} (hc : c ∈ plainLetters) :
    isAlphanumeric c = true := by
  have hall : plainLetters.all isAlphanumeric = true := by decide
  exact List.all_eq_true.mp hall c hc

/-- They make up the numerals of all bases up to sixteen. -/
theorem digitChar_mem_plainLetters : ∀ n < 16, n.digitChar ∈ plainLetters := by decide

/-- **A numeral** in such a base holds no other characters. -/
theorem mem_plainLetters_of_mem_toDigits {b n : Nat} (hb : 1 < b) (hle : b ≤ 16) {c : Char}
    (hc : c ∈ Nat.toDigits b n) : c ∈ plainLetters := by
  induction n using Nat.strongRecOn with
  | ind n ih =>
    -- the last digit, or those of the quotient, which is smaller
    rw [Nat.toDigits_eq_if hb] at hc
    split at hc
    · obtain rfl := List.mem_singleton.mp hc
      exact digitChar_mem_plainLetters n (by omega)
    · rcases List.mem_append.mp hc with hc | hc
      · exact ih (n / b) (Nat.div_lt_self (by omega) hb) hc
      · obtain rfl := List.mem_singleton.mp hc
        have hlt : n % b < b := Nat.mod_lt n (by omega)
        exact digitChar_mem_plainLetters _ (by omega)

/-- All letters and numbers stand behind the slash. -/
theorem le_first_of_mem_alphanumericRanges : ∀ r ∈ alphanumericRanges, 0x30 ≤ r.first := by
  decide +kernel

/-- No letter or number comes before the digits of ASCII, as slashes and hyphens do. -/
theorem le_toNat_of_isAlphanumeric {c : Char} (hc : isAlphanumeric c = true) : 0x30 ≤ c.toNat := by
  obtain ⟨r, hr, hrange⟩ := List.any_eq_true.mp hc
  rw [Bool.and_eq_true, decide_eq_true_eq, decide_eq_true_eq] at hrange
  exact Nat.le_trans (le_first_of_mem_alphanumericRanges r hr) hrange.1

/-! ### Lower case -/

/-- The small letters of a run are characters, and stand behind the slash. -/
theorem isValidChar_of_mem_caseRuns : ∀ r ∈ caseRuns,
    0x30 ≤ r.lower ∧ (r.lower + (r.last - r.first) < 0xd800
      ∨ 0xdfff < r.lower ∧ r.lower + (r.last - r.first) < 0x110000) := by
  decide +kernel

/-- The small letter of a capital, as a code point. -/
theorem toNat_lowered {r : CaseRun} {n : Nat} (hr : r ∈ caseRuns) (hn : r.covers n = true) :
    (Char.ofNat (r.lowered n)).toNat = r.lowered n := by
  obtain ⟨-, hvalid⟩ := isValidChar_of_mem_caseRuns r hr
  simp only [CaseRun.covers, Bool.and_eq_true, decide_eq_true_eq] at hn
  have hlowered : (r.lowered n).isValidChar := by
    unfold CaseRun.lowered Nat.isValidChar
    omega
  rw [Char.ofNat, dif_pos hlowered]
  rfl

/-- **Lower case of a character**: the dotted capital I, a capital of a run, or the character
itself. -/
theorem lowered_cases (c : Char) :
    lowered c = ['i', '\u0307']
      ∨ (∃ r ∈ caseRuns, r.covers c.toNat = true ∧ lowered c = [Char.ofNat (r.lowered c.toNat)])
      ∨ lowered c = [c] := by
  unfold lowered
  split
  · left
    rfl
  · cases hfind : caseRuns.find? (·.covers c.toNat) with
    | none =>
      right; right
      rfl
    | some r =>
      right; left
      have hcovers : r.covers c.toNat = true := by simpa using List.find?_some hfind
      exact ⟨r, List.mem_of_find?_eq_some hfind, hcovers, rfl⟩

/-- A letter that no run of capitals covers is its own small letter. -/
theorem lowered_eq_self {c : Char} (hdotted : c ≠ '\u0130')
    (hruns : ∀ r ∈ caseRuns, r.covers c.toNat = false) : lowered c = [c] := by
  have hnone : caseRuns.find? (·.covers c.toNat) = none := by
    rw [List.find?_eq_none]
    intro r hr
    simp [hruns r hr]
  rw [lowered, if_neg hdotted, hnone]

/-- The only capitals of ASCII are those from A to Z. -/
theorem first_of_mem_caseRuns : ∀ r ∈ caseRuns,
    0x41 ≤ r.first ∧ (r.last ≤ 0x5a ∨ 0x7f < r.first) := by
  decide +kernel

/-- In ASCII these are all but the capitals. -/
theorem lowered_of_ascii {c : Char} (hc : c.toNat ≤ 0x7f)
    (hcapital : c.toNat < 0x41 ∨ 0x5a < c.toNat) : lowered c = [c] := by
  apply lowered_eq_self
  · rintro rfl
    exact absurd hc (by decide)
  · intro r hr
    have hfirst := first_of_mem_caseRuns r hr
    by_contra hcovers
    simp only [CaseRun.covers, Bool.not_eq_false, Bool.and_eq_true, decide_eq_true_eq] at hcovers
    omega

/-- **What stands in permalinks of any style** is in lower case. -/
theorem lowered_of_mem_plain {c : Char} (hc : c ∈ '-' :: '/' :: plainLetters) :
    lowered c = [c] := by
  have hascii : ('-' :: '/' :: plainLetters).all (fun c =>
      decide (c.toNat ≤ 0x7f ∧ (c.toNat < 0x41 ∨ 0x5a < c.toNat))) = true := by decide
  obtain ⟨hc, hcapital⟩ := of_decide_eq_true (List.all_eq_true.mp hascii c hc)
  exact lowered_of_ascii hc hcapital

/-- A letter has some small letter, if only itself. -/
theorem lowered_ne_nil (c : Char) : lowered c ≠ [] := by
  rcases lowered_cases c with heq | ⟨r, -, -, heq⟩ | heq <;> simp [heq]

/-- Small letters do not come before the digits either. -/
theorem le_toNat_of_mem_lowered {c d : Char} (hc : 0x30 ≤ c.toNat) (hd : d ∈ lowered c) :
    0x30 ≤ d.toNat := by
  rcases lowered_cases c with heq | ⟨r, hr, hcovers, heq⟩ | heq
  · have hletters : ∀ d ∈ ['i', '\u0307'], 0x30 ≤ d.toNat := by simp
    exact hletters d (heq ▸ hd)
  · rw [heq, List.mem_singleton] at hd
    rw [hd, toNat_lowered hr hcovers]
    exact Nat.le_trans (isValidChar_of_mem_caseRuns r hr).1 (Nat.le_add_right _ _)
  · rw [heq, List.mem_singleton] at hd
    exact hd ▸ hc

namespace PermalinkStyle

variable {p : PermalinkStyle} {c : Char} {s t : String}

/-! ### Path components -/

/-- The characters of path components. -/
def Writes (p : PermalinkStyle) (c : Char) : Prop :=
  c = '-' ∨ ∃ letter, isAlphanumeric letter = true ∧ c ∈ p.cased letter

/-- A text that may be one path component. -/
def WritesAll (p : PermalinkStyle) (s : String) : Prop := ∀ c ∈ s.toList, p.Writes c

/-- Whatever the style, something is left of each letter. -/
theorem cased_ne_nil (p : PermalinkStyle) (c : Char) : p.cased c ≠ [] := by
  unfold cased
  split
  · exact lowered_ne_nil c
  · simp

/-- What stands for a letter or number in permalinks stands behind the slash, too. -/
theorem le_toNat_of_mem_cased {letter : Char} (hletter : isAlphanumeric letter = true)
    (hc : c ∈ p.cased letter) : 0x30 ≤ c.toNat := by
  have hle := le_toNat_of_isAlphanumeric hletter
  unfold cased at hc
  split at hc
  · exact le_toNat_of_mem_lowered hle hc
  · exact List.mem_singleton.mp hc ▸ hle

/-- Digits and small letters are written in every style. -/
theorem writes_of_mem_plainLetters (hc : c ∈ plainLetters) : p.Writes c := by
  have hlowered : lowered c = [c] := lowered_of_mem_plain (by simp [hc])
  refine Or.inr ⟨c, isAlphanumeric_of_mem_plainLetters hc, ?_⟩
  unfold cased
  split
  · simp [hlowered]
  · simp

/-- **No slash is written**, nor any other character before the digits save the hyphen. -/
theorem eq_or_le_toNat_of_writes (hc : p.Writes c) : c = '-' ∨ 0x30 ≤ c.toNat := by
  rcases hc with rfl | ⟨letter, halphanumeric, hc⟩
  · left
    rfl
  · right
    exact le_toNat_of_mem_cased halphanumeric hc

/-- No component of a path holds a slash. -/
theorem WritesAll.slash_not_mem (hs : p.WritesAll s) : '/' ∉ s.toList := by
  intro hslash
  have hwritten := eq_or_le_toNat_of_writes (hs '/' hslash)
  exact absurd hwritten (by decide)

/-- Two texts that may be written may be written one behind the other. -/
theorem WritesAll.append (hs : p.WritesAll s) (ht : p.WritesAll t) : p.WritesAll (s ++ t) := by
  intro c hc
  rw [String.toList_append, List.mem_append] at hc
  exact hc.elim (hs c) (ht c)

theorem writesAll_hyphen : p.WritesAll "-" := by
  intro c hc
  left
  simpa using hc

/-- What may be written is told character by character. -/
theorem writesAll_ofList {cs : List Char} (hcs : ∀ c ∈ cs, p.Writes c) :
    p.WritesAll (String.ofList cs) := by
  intro c hc
  rw [String.toList_ofList] at hc
  exact hcs c hc

/-- Each step of slugging writes a hyphen or some letter, and no other character. -/
theorem writes_of_mem_slugFrom {started parted : Bool} {cs : List Char}
    (hc : c ∈ p.slugFrom started parted cs) : p.Writes c := by
  induction cs generalizing started parted with
  | nil => simp [slugFrom] at hc
  | cons letter cs ih =>
    rw [slugFrom] at hc
    split at hc
    · rename_i halphanumeric
      rw [List.mem_append, List.mem_append] at hc
      -- `c` is the hyphen before a word, comes from the casing of `letter`, or stands behind it
      rcases hc with (hc | hc) | hc
      · left
        split at hc
        · exact List.mem_singleton.mp hc
        · simp at hc
      · right
        exact ⟨letter, halphanumeric, hc⟩
      · exact ih hc
    · exact ih hc

/-- **Slugs** are made of letters, numbers and hyphens. -/
theorem writesAll_slug (p : PermalinkStyle) (name : String) : p.WritesAll (p.slug name) :=
  writesAll_ofList fun _ => writes_of_mem_slugFrom

/-- **Digests** are made of hexadecimal digits. -/
theorem writesAll_hex (p : PermalinkStyle) (h : UInt32) : p.WritesAll (Hash32.hex h) := by
  apply writesAll_ofList
  intro c hc
  rcases List.mem_append.mp hc with hc | hc
  · obtain rfl := List.eq_of_mem_replicate hc
    exact writes_of_mem_plainLetters (by decide)
  · exact writes_of_mem_plainLetters (mem_plainLetters_of_mem_toDigits (by decide) (by decide) hc)

/-- **Numbers** are made of digits. -/
theorem writesAll_repr (p : PermalinkStyle) (n : Nat) : p.WritesAll (toString n) := by
  intro c hc
  have hdigit : c ∈ Nat.toDigits 10 n := by simpa using hc
  exact writes_of_mem_plainLetters (mem_plainLetters_of_mem_toDigits (by decide) (by decide) hdigit)

/-! ### Paths -/

/-- A text that may be several path components. -/
def WritesPath (p : PermalinkStyle) (s : String) : Prop := ∀ c ∈ s.toList, c = '/' ∨ p.Writes c

theorem WritesAll.path (hs : p.WritesAll s) : p.WritesPath s := fun c hc => Or.inr (hs c hc)

theorem WritesPath.append (hs : p.WritesPath s) (ht : p.WritesPath t) : p.WritesPath (s ++ t) := by
  intro c hc
  rw [String.toList_append, List.mem_append] at hc
  exact hc.elim (hs c) (ht c)

theorem WritesPath.beneath (hs : p.WritesPath s) (ht : p.WritesPath t) :
    p.WritesPath s!"{s}/{t}" := by
  have hslash : p.WritesPath "/" := by
    intro c hc
    left
    simpa using hc
  exact (hs.append hslash).append ht

end PermalinkStyle

/-! ### Segments -/

namespace Object

variable {p : PermalinkStyle}

/-- **The component for a scope** of a name. -/
theorem writesAll_scopeSegment (p : PermalinkStyle) (d : CompoundDef) (component : String) :
    p.WritesAll (scopeSegment p d component) := by
  unfold scopeSegment
  split
  · exact p.writesAll_slug _
  · split
    · exact p.writesAll_slug _
    · exact ((p.writesAll_slug _).append PermalinkStyle.writesAll_hyphen).append (p.writesAll_hex _)

/-- Components are joined by slashes. -/
theorem writesPath_joinSegments {segments : List String} (hs : ∀ s ∈ segments, p.WritesAll s) :
    p.WritesPath (joinSegments segments) := by
  have hfilter : ∀ s ∈ segments.filter (! ·.isEmpty), p.WritesAll s := by
    intro s hmem
    exact hs s (List.mem_filter.mp hmem).1
  rw [joinSegments]
  -- segments that are empty have been left out, and the others are joined by slashes
  generalize segments.filter (! ·.isEmpty) = kept at hfilter
  induction kept with
  | nil =>
    intro c hc
    simp at hc
  | cons s kept ih =>
    obtain ⟨hsegment, hkept⟩ := List.forall_mem_cons.mp hfilter
    cases kept with
    | nil => simpa using hsegment.path
    | cons t kept =>
      rw [String.intercalate_cons_cons]
      exact hsegment.path.beneath (ih hkept)

theorem joinSegments_singleton (s : String) : joinSegments [s] = s := by
  rw [joinSegments, List.filter_singleton]
  cases hempty : s.isEmpty with
  | true => simp [String.isEmpty_iff.mp hempty]
  | false => simp

/-- **What a compound contributes** to permalinks: components, one for each scope or folder of its
name, or one for the whole name. -/
theorem exists_components_segmentOf (p : PermalinkStyle) (d : CompoundDef) (kind : ObjectKind) :
    ∃ components, (∀ s ∈ components, p.WritesAll s)
      ∧ segmentOf p d kind = joinSegments components := by
  have hscopes : ∀ s ∈ (scopesOf d.name).map (scopeSegment p d), p.WritesAll s :=
    List.forall_mem_map.mpr fun component _ => writesAll_scopeSegment p d component
  cases kind with
  | classLike _ => exact ⟨_, hscopes, rfl⟩
  | namespaceLike _ => exact ⟨_, hscopes, rfl⟩
  | folder => exact ⟨_, List.forall_mem_map.mpr fun _ _ => p.writesAll_slug _, rfl⟩
  | file | group | page =>
    exact ⟨[p.slug d.name], by simp [p.writesAll_slug], (joinSegments_singleton _).symm⟩

/-- **Segments** are paths: they hold slashes besides, and no other characters. -/
theorem writesPath_segmentOf (p : PermalinkStyle) (d : CompoundDef) (kind : ObjectKind) :
    p.WritesPath (segmentOf p d kind) := by
  obtain ⟨components, hcomponents, heq⟩ := exists_components_segmentOf p d kind
  exact heq ▸ writesPath_joinSegments hcomponents

end Object

/-! ### Permalinks -/

theorem toList_beneath (s t : String) : s!"{s}/{t}".toList = s.toList ++ '/' :: t.toList := by
  show (s ++ "/" ++ t).toList = _
  simp

theorem toList_numbered (s : String) (n : Nat) :
    (numbered s n).toList = s.toList ++ '-' :: Nat.toDigits 10 n := by
  show (s ++ "-" ++ toString n).toList = _
  simp

/-- The directories of collections have plain names. -/
theorem mem_plainLetters_of_mem_name {k : Collection} {c : Char} (hc : c ∈ k.name.toList) :
    c ∈ plainLetters := by
  have hall : k.name.toList.all (plainLetters.contains ·) = true := by cases k <;> decide
  exact List.contains_iff_mem.mp (List.all_eq_true.mp hall c hc)

/-- **The characters of permalinks** are those of segments, and others that stand in permalinks of
any style. -/
theorem Arena.forall_mem_permalink {a : Arena} (hs : a.Sound a.link.1) {P : Char → Prop}
    (hplain : ∀ c ∈ '-' :: '/' :: plainLetters, P c)
    (hsegments : ∀ o ∈ a.objects, ∀ c ∈ o.segment.toList, P c) (x : Nat) :
    ∀ c ∈ (a.toGraph.1.permalink x).toList, P c := by
  rcases Nat.lt_or_ge x a.objects.length with hx | hx
  -- Going one level down adds a slash and the object's own segment.
  · have hbeneath : ∀ (s : String), ∀ o ∈ a.objects, (∀ c ∈ s.toList, P c) →
        ∀ c ∈ s!"{s}/{o.segment}".toList, P c := by
      intro s o ho hs'
      rw [toList_beneath, List.forall_mem_append, List.forall_mem_cons]
      exact ⟨hs', hplain _ (by decide), hsegments o ho⟩
    -- The three ways in which a permalink arises: at the top, beneath another, and renamed.
    refine (permalink_induction (P := fun _ s => ∀ c ∈ s.toList, P c) hs
      ?top ?beneath ?renamed hx).2
    case top =>
      intro x o ho
      apply hbeneath _ o (List.mem_of_getElem? ho)
      intro c hc
      apply hplain
      simp [mem_plainLetters_of_mem_name hc]
    case beneath =>
      intro x o p s ho _
      exact hbeneath s o (List.mem_of_getElem? ho)
    case renamed =>
      intro x s n hs'
      rw [toList_numbered, List.forall_mem_append, List.forall_mem_cons]
      refine ⟨hs', hplain _ (by decide), fun c hc => hplain c ?_⟩
      -- a renamed permalink ends in a hyphen and digits, which are plain letters
      have hdigit := mem_plainLetters_of_mem_toDigits (by decide) (by decide) hc
      simp [hdigit]
  · rw [permalink_eq_empty hx]
    intro c hc
    simp at hc

end DocGraph
