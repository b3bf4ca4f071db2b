import DocGraph.Markup.Event
import DocGraph.Proofs.Encoding
import DocGraph.Proofs.Outline

namespace DocGraph

/-!
# Writing elements

An element is written as its start tag, its content and its end tag, with references for the five
characters that mark up.

* `escaped`, `Element.written` — character data with references, and an element as text;
* `isPlainName`, `Element.isWritable` — the elements that can be written so;
* `Markup.expand_escaped`, `Markup.decodeText_escaped` — character data is read as it was before;
* `Markup.readAttributes_written`, `Markup.readStartTag_written` — and so are start tags.
-/

/-! ### Written elements -/

/-- What is written for a character. -/
def escapedChar : Char → List Char
  | '&' => ['&', 'a', 'm', 'p', ';']
  | '<' => ['&', 'l', 't', ';']
  | '>' => ['&', 'g', 't', ';']
  | '"' => ['&', 'q', 'u', 'o', 't', ';']
  | '\'' => ['&', 'a', 'p', 'o', 's', ';']
  | c => [c]

/-- What is written for character data. -/
def escaped (s : String) : String := String.ofList (s.toList.flatMap escapedChar)

/-- What is written for an attribute. -/
def Attribute.written (a : Attribute) : String :=
  " " ++ a.name ++ "=\"" ++ escaped a.value ++ "\""

mutual

/-- What is written for an element: its start tag, its content and its end tag. -/
def Element.written : Element → String
  | ⟨name, attributes, content⟩ =>
    "<" ++ name ++ String.join (attributes.map Attribute.written) ++ ">"
      ++ Element.writtenContent content ++ "</" ++ name ++ ">"

/-- What is written for a content. -/
def Element.writtenContent : List (Content Element) → String
  | [] => ""
  | .text s :: rest => escaped s ++ Element.writtenContent rest
  | .child e :: rest => e.written ++ Element.writtenContent rest

end

/-- Whether a name is an ASCII letter followed by letters and digits. -/
def isPlainName (name : String) : Bool :=
  match name.toList with
  | [] => false
  | c :: rest => c.isAlpha && rest.all (·.isAlphanum)

/-- Whether attributes have plain names, each another one. -/
def areWritable (attributes : List Attribute) : Bool :=
  attributes.all (isPlainName ·.name) && decide (attributes.map (·.name)).Nodup

mutual

/-- Whether the names of an element and of all below are plain, the names of its attributes differ,
and no character data is empty. -/
def Element.isWritable : Element → Bool
  | ⟨name, attributes, content⟩ =>
    isPlainName name && areWritable attributes && Element.isWritableContent content

/-- Whether a content is of such elements and of character data that is not empty. -/
def Element.isWritableContent : List (Content Element) → Bool
  | [] => true
  | .text s :: rest => !s.isEmpty && Element.isWritableContent rest
  | .child e :: rest => e.isWritable && Element.isWritableContent rest

end

/-! ### Bytes of written text -/

/-- Bytes of ASCII letters and digits. -/
def IsPlainByte (b : UInt8) : Prop :=
  0x30 ≤ b.toNat ∧ b.toNat ≤ 0x39 ∨ 0x41 ≤ b.toNat ∧ b.toNat ≤ 0x5a
    ∨ 0x61 ≤ b.toNat ∧ b.toNat ≤ 0x7a

instance (b : UInt8) : Decidable (IsPlainByte b) :=
  inferInstanceAs (Decidable (_ ∨ _))

/-- A plain byte is no other byte. -/
theorem IsPlainByte.beq_eq_false {b : UInt8} (hb : IsPlainByte b) (b' : UInt8)
    (hb' : ¬ IsPlainByte b') : (b == b') = false := by
  rw [beq_eq_false_iff_ne]
  intro heq
  exact hb' (heq ▸ hb)

/-- Letters and numbers of ASCII are plain bytes. -/
theorem isPlainByte_of_isAlphanum {c : Char} (hc : c.isAlphanum = true) :
    c.toNat < 0x80 ∧ IsPlainByte (UInt8.ofNat c.toNat) := by
  -- `isAlphanum` is about ASCII alone.
  have hranges : 0x30 ≤ c.toNat ∧ c.toNat ≤ 0x39 ∨ 0x41 ≤ c.toNat ∧ c.toNat ≤ 0x5a
      ∨ 0x61 ≤ c.toNat ∧ c.toNat ≤ 0x7a := by
    have hcases : (decide ('A'.val ≤ c.val ∧ c.val ≤ 'Z'.val)
        || ('a'.val ≤ c.val && c.val ≤ 'z'.val)
        || ('0'.val ≤ c.val && c.val ≤ '9'.val)) = true := hc
    simp only [Bool.or_eq_true, Bool.and_eq_true, decide_eq_true_eq, UInt32.le_iff_toNat_le]
      at hcases
    exact hcases.symm
  have hlt : c.toNat < 0x80 := by omega
  refine ⟨hlt, ?_⟩
  unfold IsPlainByte
  rw [Utf8.toNat_ofNat (by omega)]
  exact hranges

/-- **A plain name** is not empty, and its bytes are plain. -/
theorem encode_of_isPlainName {name : String} (h : isPlainName name = true) :
    ∃ first rest, Utf8.encode name = first :: rest ∧ ∀ b ∈ first :: rest, IsPlainByte b := by
  unfold isPlainName at h
  split at h
  case h_1 => cases h
  case h_2 c cs hname =>
    rw [Bool.and_eq_true, List.all_eq_true] at h
    -- Plain names are letters and digits, each of which is one byte.
    have hchars : ∀ c' ∈ name.toList, c'.isAlphanum = true := by
      intro c' hc'
      rw [hname] at hc'
      rcases List.mem_cons.mp hc' with rfl | hc'
      · rw [Char.isAlphanum, h.1, Bool.true_or]
      · exact h.2 c' hc'
    have hbytes := Utf8.encode_of_lt fun c' hc' => (isPlainByte_of_isAlphanum (hchars c' hc')).1
    refine ⟨UInt8.ofNat c.toNat, cs.map fun c => UInt8.ofNat c.toNat, ?_, ?_⟩
    · rw [hbytes, hname, List.map_cons]
    · intro b hb
      rw [← List.map_cons (f := fun c : Char => UInt8.ofNat c.toNat), ← hname] at hb
      obtain ⟨c', hc', rfl⟩ := List.mem_map.mp hb
      exact (isPlainByte_of_isAlphanum (hchars c' hc')).2

/-- So plain names are made of plain bytes. -/
theorem plain_of_isPlainName {name : String} (h : isPlainName name = true) :
    ∀ b ∈ Utf8.encode name, IsPlainByte b := by
  obtain ⟨first, rest, hbytes, hplain⟩ := encode_of_isPlainName h
  rw [hbytes]
  exact hplain

/-- What is written for a character is neither `<` nor `"`. -/
theorem not_mem_escapedChar (c : Char) : '<' ∉ escapedChar c ∧ '"' ∉ escapedChar c := by
  unfold escapedChar
  split
  case h_6 _ hlt _ hquot _ =>
    rw [List.mem_singleton, List.mem_singleton]
    exact ⟨fun h => hlt h.symm, fun h => hquot h.symm⟩
  all_goals decide

/-- **Written character data** holds no byte that could end it. -/
theorem not_mem_encode_escaped {s : String} {b : UInt8} (hb : b ∈ Utf8.encode (escaped s)) :
    b ≠ 0x3c ∧ b ≠ 0x22 := by
  -- Such a byte would be a character of the text.
  have hchar : ∀ c : Char, b.toNat = c.toNat → c.toNat < 0x80 →
      ∃ c' : Char, c ∈ escapedChar c' := by
    intro c hbc hlt
    obtain ⟨c₁, hc₁, heq⟩ := Utf8.char_mem_of_mem_encode hb (by omega)
    obtain rfl : c₁ = c := Char.toNat_inj.mp (heq.trans hbc)
    rw [escaped, String.toList_ofList] at hc₁
    obtain ⟨c', -, hc'⟩ := List.mem_flatMap.mp hc₁
    exact ⟨c', hc'⟩
  constructor
  · rintro rfl
    obtain ⟨c', hc'⟩ := hchar '<' rfl (by decide)
    exact (not_mem_escapedChar c').1 hc'
  · rintro rfl
    obtain ⟨c', hc'⟩ := hchar '"' rfl (by decide)
    exact (not_mem_escapedChar c').2 hc'

/-- What is written for a character is not empty. -/
theorem escapedChar_ne_nil (c : Char) : escapedChar c ≠ [] := by
  unfold escapedChar
  split <;> exact List.cons_ne_nil _ _

/-- Something is left of a text when it is escaped. -/
theorem escaped_ne_empty {s : String} (hs : s ≠ "") : Utf8.encode (escaped s) ≠ [] := by
  rw [ne_eq, Utf8.encode_eq_nil_iff]
  intro h
  have hlist := congrArg String.toList h
  rw [escaped, String.toList_ofList, String.toList_empty, List.flatMap_eq_nil_iff] at hlist
  cases hchars : s.toList with
  | nil => exact hs (String.toList_eq_nil_iff.mp hchars)
  | cons c cs => exact escapedChar_ne_nil c (hlist c (hchars ▸ List.mem_cons_self))

namespace Markup

/-! ### Character data is read back -/

/-- The reference for a character, or the character, is read as the character. -/
theorem expandFrom_escapedChar (total here : Nat) (c : Char) (rest : List Char) :
    ∃ here', expandFrom total here none (escapedChar c ++ rest)
      = (expandFrom total here' none rest).map (c :: ·) := by
  unfold escapedChar
  split
  case h_6 hamp _ _ _ _ =>
    refine ⟨here + c.utf8Size, ?_⟩
    rw [List.singleton_append, expandFrom]
    exact if_neg hamp
  all_goals exact ⟨_, rfl⟩

/-- **What has been escaped is expanded again**, character by character. -/
theorem expandFrom_escaped (total here : Nat) (cs : List Char) :
    expandFrom total here none (cs.flatMap escapedChar) = .ok cs := by
  induction cs generalizing here with
  | nil => rfl
  | cons c cs ih =>
    obtain ⟨here', hc⟩ := expandFrom_escapedChar total here c (cs.flatMap escapedChar)
    rw [List.flatMap_cons, hc, ih]
    rfl

/-- **Character data** is read from its bytes as it was before it was written. -/
theorem decodeText_escaped (s : String) : decodeText (Utf8.encode (escaped s)) = .ok s := by
  have hexpand : expand (escaped s) = .ok s := by
    unfold expand escaped
    rw [String.toList_ofList, expandFrom_escaped]
    show Except.ok (String.ofList s.toList) = Except.ok s
    rw [String.ofList_toList]
  have hdecode := Utf8.decode_encode (escaped s)
  exact Except.bind_eq_ok_iff.mpr ⟨escaped s, Except.mapError_eq_ok_iff.mpr hdecode,
    Except.mapError_eq_ok_iff.mpr hexpand⟩

/-! ### Start tags are read back -/

/-- Plain bytes are no blanks, and go on with a key. -/
theorem isSpace_of_isPlainByte {b : UInt8} (hb : IsPlainByte b) :
    isSpace b = false ∧ continuesKey b = true := by
  have hspace : isSpace b = false := by
    simp only [isSpace, hb.beq_eq_false 0x20 (by decide), hb.beq_eq_false 0x0d (by decide),
      hb.beq_eq_false 0x0a (by decide), hb.beq_eq_false 0x09 (by decide), Bool.or_self]
  refine ⟨hspace, ?_⟩
  simp only [continuesKey, bne, hspace, hb.beq_eq_false 0x3d (by decide), Bool.not_false,
    Bool.and_self]

theorem skipSpace_cons {b : UInt8} (hb : isSpace b = false) (position : Nat) (rest : List UInt8) :
    Place.skipSpace ⟨position, b :: rest⟩ = ⟨position, b :: rest⟩ := by
  simp [Place.skipSpace, hb]

theorem skipSpace_blank_cons {b : UInt8} (hb : isSpace b = false) (position : Nat)
    (rest : List UInt8) :
    Place.skipSpace ⟨position, 0x20 :: b :: rest⟩ = ⟨position + 1, b :: rest⟩ := by
  have hblank : isSpace 0x20 = true := rfl
  simp [Place.skipSpace, hb, hblank]

/-- A value in double quotes ends at the next one. -/
theorem readValue_quoted {value : List UInt8} (hvalue : ∀ b ∈ value, b ≠ 0x22) (position : Nat)
    (rest : List UInt8) :
    ∃ position', readValue ⟨position, 0x22 :: (value ++ 0x22 :: rest)⟩
      = .ok (value, ⟨position', rest⟩) := by
  -- The value runs up to the next quote, which is the closing one.
  have hinside : ∀ b ∈ value, (b != 0x22) = true := fun b hb => bne_iff_ne.mpr (hvalue b hb)
  have htake : (value ++ 0x22 :: rest).takeWhile (· != 0x22) = value := by
    rw [List.takeWhile_append_of_pos hinside]
    simp
  have hdrop : (value ++ 0x22 :: rest).dropWhile (· != 0x22) = 0x22 :: rest := by
    rw [List.dropWhile_append_of_pos hinside]
    simp
  refine ⟨position + value.length + 2, ?_⟩
  unfold readValue
  rw [skipSpace_cons rfl]
  dsimp only
  have hquote : ((0x22 : UInt8) == 0x22 || (0x22 : UInt8) == 0x27) = true := by decide
  rw [if_pos hquote, htake, hdrop]

/-- The bytes of a written attribute. -/
theorem encode_attribute (a : Attribute) :
    Utf8.encode a.written
      = 0x20 :: (Utf8.encode a.name
          ++ 0x3d :: 0x22 :: (Utf8.encode (escaped a.value) ++ [0x22])) := by
  have hblank : Utf8.encode " " = [0x20] := by decide
  have hopened : Utf8.encode "=\"" = [0x3d, 0x22] := by decide
  have hquote : Utf8.encode "\"" = [0x22] := by decide
  unfold Attribute.written
  simp only [Utf8.encode_append, hblank, hopened, hquote, List.append_assoc, List.cons_append,
    List.nil_append]

/-- **A written attribute** is read back, if its key has not been read before. -/
theorem nextAttribute_written {a : Attribute} (ha : isPlainName a.name = true)
    {earlier : List (List UInt8 × Nat)} (hnew : earlier.lookup (Utf8.encode a.name) = none)
    (position : Nat) (rest : List UInt8) :
    ∃ at' after', nextAttribute earlier ⟨position, Utf8.encode a.written ++ rest⟩
      = .ok (some (⟨at', Utf8.encode a.name, Utf8.encode (escaped a.value)⟩, ⟨after', rest⟩)) := by
  obtain ⟨first, tail, hname, hplain⟩ := encode_of_isPlainName ha
  obtain ⟨hfirst, htail⟩ := List.forall_mem_cons.mp hplain
  rw [hname] at hnew
  -- The key runs up to the sign, and the value up to the quote, which it does not hold.
  have hkey : ∀ b ∈ tail, continuesKey b = true :=
    fun b hb => (isSpace_of_isPlainByte (htail b hb)).2
  have hsign : continuesKey 0x3d = false := rfl
  rw [encode_attribute, hname]
  simp only [List.cons_append, List.append_assoc, List.nil_append]
  unfold nextAttribute
  rw [skipSpace_blank_cons (isSpace_of_isPlainByte hfirst).1]
  dsimp only
  rw [List.takeWhile_append_of_pos hkey, List.dropWhile_append_of_pos hkey,
    List.takeWhile_cons_of_neg (by simp [hsign]), List.dropWhile_cons_of_neg (by simp [hsign]),
    List.append_nil, skipSpace_cons rfl]
  have hequals : ¬ ((0x3d : UInt8) != 0x3d) = true := by decide
  have hvalue : ∀ b ∈ Utf8.encode (escaped a.value), b ≠ 0x22 :=
    fun b hb => (not_mem_encode_escaped hb).2
  obtain ⟨after', hread⟩ := readValue_quoted hvalue
    (position + 1 + (first :: tail).length + 1) rest
  refine ⟨position + 1, after', ?_⟩
  dsimp only
  rw [if_neg hequals, hnew]
  dsimp only
  rw [hread]

theorem readAttributes_of_none {earlier : List (List UInt8 × Nat)} {p : Place}
    (h : nextAttribute earlier p = .ok none) : readAttributes earlier p = .ok [] := by
  rw [readAttributes]
  split
  case h_1 h' => cases h.symm.trans h'
  case h_2 => rfl
  case h_3 h' => cases h.symm.trans h'

/-- **An attribute is read**, and then the others are. -/
theorem readAttributes_of_some {earlier : List (List UInt8 × Nat)} {p after : Place}
    {position : Nat} {key bytes : List UInt8} {a : Attribute} {others : List Attribute}
    (h : nextAttribute earlier p = .ok (some (⟨position, key, bytes⟩, after)))
    (hname : Utf8.decode key = .ok a.name) (hvalue : decodeText bytes = .ok a.value)
    (hothers : readAttributes ((key, position) :: earlier) after = .ok others) :
    readAttributes earlier p = .ok (a :: others) := by
  rw [readAttributes]
  split
  case h_1 h' => cases h.symm.trans h'
  case h_2 h' => cases h.symm.trans h'
  case h_3 h' =>
    cases h.symm.trans h'
    refine Except.bind_eq_ok_iff.mpr ⟨a.name, Except.mapError_eq_ok_iff.mpr hname, ?_⟩
    refine Except.bind_eq_ok_iff.mpr ⟨a.value, Except.mapError_eq_ok_iff.mpr hvalue, ?_⟩
    exact Except.bind_eq_ok_iff.mpr ⟨others, hothers, rfl⟩

/-- **Written attributes** are read back, if their names differ from each other and from those of
attributes before. -/
theorem readAttributes_written (attributes : List Attribute) (earlier : List (List UInt8 × Nat))
    (position : Nat) (hplain : ∀ a ∈ attributes, isPlainName a.name = true)
    (hnodup : (attributes.map (·.name)).Nodup)
    (hnew : ∀ a ∈ attributes, ∀ k ∈ earlier, k.1 ≠ Utf8.encode a.name) :
    readAttributes earlier ⟨position, Utf8.encode (String.join (attributes.map Attribute.written))⟩
      = .ok attributes := by
  induction attributes generalizing earlier position with
  | nil =>
    exact readAttributes_of_none rfl
  | cons a attributes ih =>
    obtain ⟨ha, hothers⟩ := List.forall_mem_cons.mp hplain
    obtain ⟨hfresh, hdistinct⟩ := List.nodup_cons.mp hnodup
    -- The key is new, as no earlier attribute has this name.
    have hlookup : earlier.lookup (Utf8.encode a.name) = none := by
      rw [List.lookup_eq_none_iff]
      intro k hk
      exact bne_iff_ne.mpr (hnew a List.mem_cons_self k hk).symm
    rw [List.map_cons, String.join_cons, Utf8.encode_append]
    obtain ⟨at', after', hnext⟩ := nextAttribute_written ha hlookup position
      (Utf8.encode (String.join (attributes.map Attribute.written)))
    refine readAttributes_of_some hnext (Utf8.decode_encode a.name) (decodeText_escaped a.value) ?_
    refine ih _ _ hothers hdistinct fun a' ha' k hk => ?_
    rcases List.mem_cons.mp hk with rfl | hk
    · intro heq
      have hname : a'.name = a.name := (Utf8.encode_injective heq).symm
      exact hfresh (List.mem_map.mpr ⟨a', ha', hname⟩)
    · exact hnew a' (List.mem_cons_of_mem _ ha') k hk

/-- Written attributes begin with a blank, if there are any. -/
theorem encode_attributes (attributes : List Attribute) :
    Utf8.encode (String.join (attributes.map Attribute.written)) = []
      ∨ ∃ rest, Utf8.encode (String.join (attributes.map Attribute.written)) = 0x20 :: rest := by
  cases attributes with
  | nil => exact .inl rfl
  | cons a attributes =>
    rw [List.map_cons, String.join_cons, Utf8.encode_append, encode_attribute]
    exact .inr ⟨_, rfl⟩

/-- **A written start tag** is read back. -/
theorem readStartTag_written {name : String} {attributes : List Attribute}
    (hname : isPlainName name = true) (hattributes : areWritable attributes = true) :
    readStartTag (Utf8.encode (name ++ String.join (attributes.map Attribute.written)))
      = .ok { name, attributes } := by
  rw [areWritable, Bool.and_eq_true, List.all_eq_true, decide_eq_true_iff] at hattributes
  obtain ⟨first, tail, hbytes, hplain⟩ := encode_of_isPlainName hname
  have hread := readAttributes_written attributes [] (Utf8.encode name).length hattributes.1
    hattributes.2 nofun
  -- A name holds no space and each attribute begins with one, so the name is cut off whole.
  have hspace : ∀ b ∈ Utf8.encode name, (! isSpace b) = true := by
    rw [hbytes]
    intro b hb
    rw [(isSpace_of_isPlainByte (hplain b hb)).1, Bool.not_false]
  have hstop : (! isSpace 0x20) = false := rfl
  have htake : (Utf8.encode name
      ++ Utf8.encode (String.join (attributes.map Attribute.written))).takeWhile (! isSpace ·)
        = Utf8.encode name := by
    rw [List.takeWhile_append_of_pos hspace]
    rcases encode_attributes attributes with h | ⟨rest, h⟩
    · rw [h, List.takeWhile_nil, List.append_nil]
    · rw [h, List.takeWhile_cons_of_neg (by simp [hstop]), List.append_nil]
  have hdrop : (Utf8.encode name
      ++ Utf8.encode (String.join (attributes.map Attribute.written))).dropWhile (! isSpace ·)
        = Utf8.encode (String.join (attributes.map Attribute.written)) := by
    rw [List.dropWhile_append_of_pos hspace]
    rcases encode_attributes attributes with h | ⟨rest, h⟩
    · rw [h, List.dropWhile_nil]
    · rw [h, List.dropWhile_cons_of_neg (by simp [hstop])]
  rw [Utf8.encode_append]
  unfold readStartTag
  dsimp only
  rw [htake, hdrop]
  refine Except.bind_eq_ok_iff.mpr
    ⟨name, Except.mapError_eq_ok_iff.mpr (Utf8.decode_encode name), ?_⟩
  exact Except.bind_eq_ok_iff.mpr ⟨attributes, hread, rfl⟩

end Markup

end DocGraph
