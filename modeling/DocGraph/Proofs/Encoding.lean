import DocGraph.Text.Utf8

namespace DocGraph.Utf8

/-!
# Texts and their bytes

* `decode_encode` — the bytes of a text decode to it, so no two texts have the same bytes
  (`encode_injective`);
* `char_mem_of_mem_encode` — a byte of ASCII in the bytes of a text is a character of it: the bytes
  of other characters are never mistaken for markup.
-/

/-! ### Sequences of bytes -/

section Sequences

variable {a b c d : UInt8} {low high : UInt8} (index : Nat) (rest : List UInt8)

/-- Whether a byte lies between two others, in numbers. -/
theorem between_iff :
    (low ≤ a && a ≤ high) = true ↔ low.toNat ≤ a.toNat ∧ a.toNat ≤ high.toNat := by
  simp [UInt8.le_iff_toNat_le]

theorem isContinuation_iff : isContinuation b = true ↔ 0x80 ≤ b.toNat ∧ b.toNat ≤ 0xbf :=
  between_iff

/-- Two bytes open a form of three if it is neither overlong nor a surrogate. -/
theorem opensThree_eq_true (hb : isContinuation b = true) (hlow : a.toNat = 0xe0 → 0xa0 ≤ b.toNat)
    (hhigh : a.toNat = 0xed → b.toNat ≤ 0x9f) : opensThree a b = true := by
  have hcontinues := isContinuation_iff.mp hb
  unfold opensThree
  split
  case isTrue ha => exact between_iff.mpr ⟨hlow (congrArg UInt8.toNat (eq_of_beq ha)), hcontinues.2⟩
  case isFalse =>
    split
    case isTrue ha =>
      exact between_iff.mpr ⟨hcontinues.1, hhigh (congrArg UInt8.toNat (eq_of_beq ha))⟩
    case isFalse => exact hb

/-- Two bytes open a form of four if it is neither overlong nor beyond the last code point. -/
theorem opensFour_eq_true (hb : isContinuation b = true) (hlow : a.toNat = 0xf0 → 0x90 ≤ b.toNat)
    (hhigh : a.toNat = 0xf4 → b.toNat ≤ 0x8f) : opensFour a b = true := by
  have hcontinues := isContinuation_iff.mp hb
  unfold opensFour
  split
  case isTrue ha => exact between_iff.mpr ⟨hlow (congrArg UInt8.toNat (eq_of_beq ha)), hcontinues.2⟩
  case isFalse =>
    split
    case isTrue ha =>
      exact between_iff.mpr ⟨hcontinues.1, hhigh (congrArg UInt8.toNat (eq_of_beq ha))⟩
    case isFalse => exact hb

theorem decodeFrom_one (ha : a.toNat < 0x80) :
    decodeFrom index (a :: rest)
      = (decodeFrom (index + 1) rest).map (Char.ofNat a.toNat :: ·) := by
  have hone : a < 0x80 := UInt8.lt_iff_toNat_lt.mpr ha
  rw [decodeFrom.eq_def]
  dsimp only
  rw [if_pos hone]

/-- A character of two bytes. -/
theorem decodeFrom_two (ha : 0xc2 ≤ a.toNat ∧ a.toNat ≤ 0xdf) (hb : isContinuation b = true) :
    decodeFrom index (a :: b :: rest)
      = (decodeFrom (index + 2) rest).map
          (Char.ofNat (a.toNat % 0x20 * 0x40 + payload b) :: ·) := by
  have hone : ¬ a < 0x80 := fun h => by
    have hlt : a.toNat < 0x80 := UInt8.lt_iff_toNat_lt.mp h
    omega
  have htwo : (0xc2 ≤ a && a ≤ 0xdf) = true := between_iff.mpr ha
  rw [decodeFrom.eq_def]
  dsimp only
  rw [if_neg hone, if_pos htwo, if_pos hb]

/-- A character of three bytes, of which the first two exclude surrogates and longer forms than
needed. -/
theorem decodeFrom_three (ha : 0xe0 ≤ a.toNat ∧ a.toNat ≤ 0xef) (hb : opensThree a b = true)
    (hc : isContinuation c = true) :
    decodeFrom index (a :: b :: c :: rest)
      = (decodeFrom (index + 3) rest).map
          (Char.ofNat (a.toNat % 0x10 * 0x1000 + payload b * 0x40 + payload c) :: ·) := by
  have hone : ¬ a < 0x80 := fun h => by
    have hlt : a.toNat < 0x80 := UInt8.lt_iff_toNat_lt.mp h
    omega
  have htwo : ¬ (0xc2 ≤ a && a ≤ 0xdf) = true := fun h => by
    have hle : a.toNat ≤ 0xdf := (between_iff.mp h).2
    omega
  have hthree : (0xe0 ≤ a && a ≤ 0xef) = true := between_iff.mpr ha
  rw [decodeFrom.eq_def]
  dsimp only
  rw [if_neg hone, if_neg htwo, if_pos hthree, if_pos hb, if_pos hc]

/-- A character of four bytes, of which the first two exclude longer forms than needed and numbers
that no character has. -/
theorem decodeFrom_four (ha : 0xf0 ≤ a.toNat ∧ a.toNat ≤ 0xf4) (hb : opensFour a b = true)
    (hc : isContinuation c = true) (hd : isContinuation d = true) :
    decodeFrom index (a :: b :: c :: d :: rest)
      = (decodeFrom (index + 4) rest).map
          (Char.ofNat (a.toNat % 0x8 * 0x40000 + payload b * 0x1000 + payload c * 0x40
            + payload d) :: ·) := by
  have hone : ¬ a < 0x80 := fun h => by
    have hlt : a.toNat < 0x80 := UInt8.lt_iff_toNat_lt.mp h
    omega
  have htwo : ¬ (0xc2 ≤ a && a ≤ 0xdf) = true := fun h => by
    have hle : a.toNat ≤ 0xdf := (between_iff.mp h).2
    omega
  have hthree : ¬ (0xe0 ≤ a && a ≤ 0xef) = true := fun h => by
    have hle : a.toNat ≤ 0xef := (between_iff.mp h).2
    omega
  have hfour : (0xf0 ≤ a && a ≤ 0xf4) = true := between_iff.mpr ha
  rw [decodeFrom.eq_def]
  dsimp only
  rw [if_neg hone, if_neg htwo, if_neg hthree, if_pos hfour, if_pos hb, if_pos hc, if_pos hd]

end Sequences

/-! ### One character -/

theorem toNat_ofNat {n : Nat} (h : n < 0x100) : (UInt8.ofNat n).toNat = n := by
  rw [UInt8.toNat_ofNat']
  exact Nat.mod_eq_of_lt h

/-- A byte that continues a sequence holds six bits. -/
theorem toNat_continuing (n : Nat) : (UInt8.ofNat (n % 64 + 128)).toNat = n % 64 + 128 :=
  toNat_ofNat (by omega)

theorem isContinuation_continuing (n : Nat) :
    isContinuation (UInt8.ofNat (n % 64 + 128)) = true := by
  rw [isContinuation_iff, toNat_continuing]
  omega

theorem payload_continuing (n : Nat) : payload (UInt8.ofNat (n % 64 + 128)) = n % 64 := by
  rw [payload, toNat_continuing]
  omega

section CodePoints

variable (index : Nat) (rest : List UInt8) {n : Nat}

/-- A code point that takes two bytes. -/
theorem decodeFrom_codePoint_two (hn : 0x80 ≤ n ∧ n < 0x800) :
    decodeFrom index (UInt8.ofNat (n / 64 % 32 + 192) :: UInt8.ofNat (n % 64 + 128) :: rest)
      = (decodeFrom (index + 2) rest).map (Char.ofNat n :: ·) := by
  have ha : (UInt8.ofNat (n / 64 % 32 + 192)).toNat = n / 64 % 32 + 192 := toNat_ofNat (by omega)
  have hsum : (n / 64 % 32 + 192) % 0x20 * 0x40 + n % 64 = n := by omega
  rw [decodeFrom_two _ _ (by omega) (isContinuation_continuing n), ha, payload_continuing, hsum]

/-- A code point that takes three bytes, and is no surrogate. -/
theorem decodeFrom_codePoint_three (hn : 0x800 ≤ n ∧ n < 0x10000)
    (hvalid : n < 0xd800 ∨ 0xdfff < n) :
    decodeFrom index (UInt8.ofNat (n / 4096 % 16 + 224) :: UInt8.ofNat (n / 64 % 64 + 128)
        :: UInt8.ofNat (n % 64 + 128) :: rest)
      = (decodeFrom (index + 3) rest).map (Char.ofNat n :: ·) := by
  have ha : (UInt8.ofNat (n / 4096 % 16 + 224)).toNat = n / 4096 % 16 + 224 :=
    toNat_ofNat (by omega)
  have hb := toNat_continuing (n / 64)
  have hopens : opensThree (UInt8.ofNat (n / 4096 % 16 + 224)) (UInt8.ofNat (n / 64 % 64 + 128))
      = true := opensThree_eq_true (isContinuation_continuing (n / 64)) (by omega) (by omega)
  have hsum : (n / 4096 % 16 + 224) % 0x10 * 0x1000 + n / 64 % 64 * 0x40 + n % 64 = n := by omega
  rw [decodeFrom_three _ _ (by omega) hopens (isContinuation_continuing n), ha, payload_continuing,
    payload_continuing, hsum]

/-- A code point that takes four bytes. -/
theorem decodeFrom_codePoint_four (hn : 0x10000 ≤ n ∧ n < 0x110000) :
    decodeFrom index (UInt8.ofNat (n / 262144 % 8 + 240) :: UInt8.ofNat (n / 4096 % 64 + 128)
        :: UInt8.ofNat (n / 64 % 64 + 128) :: UInt8.ofNat (n % 64 + 128) :: rest)
      = (decodeFrom (index + 4) rest).map (Char.ofNat n :: ·) := by
  have ha : (UInt8.ofNat (n / 262144 % 8 + 240)).toNat = n / 262144 % 8 + 240 :=
    toNat_ofNat (by omega)
  have hb := toNat_continuing (n / 4096)
  have hopens : opensFour (UInt8.ofNat (n / 262144 % 8 + 240)) (UInt8.ofNat (n / 4096 % 64 + 128))
      = true := opensFour_eq_true (isContinuation_continuing (n / 4096)) (by omega) (by omega)
  have hsum : (n / 262144 % 8 + 240) % 0x8 * 0x40000 + n / 4096 % 64 * 0x1000
      + n / 64 % 64 * 0x40 + n % 64 = n := by omega
  rw [decodeFrom_four _ _ (by omega) hopens (isContinuation_continuing (n / 64))
    (isContinuation_continuing n), ha, payload_continuing, payload_continuing, payload_continuing,
    hsum]

end CodePoints

/-- **A character** is decoded from its bytes, whatever follows. -/
theorem decodeFrom_char (index : Nat) (c : Char) (rest : List UInt8) :
    ∃ index', decodeFrom index (String.utf8EncodeChar c ++ rest)
      = (decodeFrom index' rest).map (c :: ·) := by
  have hvalid : c.toNat < 0xd800 ∨ 0xdfff < c.toNat ∧ c.toNat < 0x110000 := c.valid
  have hval : c.val.toNat = c.toNat := rfl
  rw [String.utf8EncodeChar.eq_1, hval]
  conv => enter [1, index']; rhs; rw [← Char.ofNat_toNat c]
  generalize c.toNat = n at hvalid
  -- by the number of bytes that the code point takes
  split
  case isTrue h1 =>
    have ha : (UInt8.ofNat n).toNat = n := toNat_ofNat (by omega)
    refine ⟨index + 1, ?_⟩
    rw [List.singleton_append, decodeFrom_one _ _ (by omega), ha]
  case isFalse h1 =>
    split
    case isTrue h2 => exact ⟨index + 2, decodeFrom_codePoint_two index rest (by omega)⟩
    case isFalse h2 =>
      split
      case isTrue h3 =>
        exact ⟨index + 3, decodeFrom_codePoint_three index rest (by omega) (by omega)⟩
      case isFalse h3 => exact ⟨index + 4, decodeFrom_codePoint_four index rest (by omega)⟩

/-- A byte below 0x80 is that of the character with its number. -/
theorem toNat_of_mem_char {c : Char} {b : UInt8} (hb : b ∈ String.utf8EncodeChar c)
    (hlt : b.toNat < 0x80) : c.toNat = b.toNat := by
  have hval : c.val.toNat = c.toNat := rfl
  rw [String.utf8EncodeChar.eq_1, hval] at hb
  generalize c.toNat = n at hb
  -- The bytes of longer sequences have their first bit set.
  have hlong : ∀ m, 0x80 ≤ m → m < 0x100 → b ≠ UInt8.ofNat m := by
    rintro m hm hm' rfl
    rw [toNat_ofNat hm'] at hlt
    omega
  split at hb
  case isTrue h1 =>
    obtain rfl := List.mem_singleton.mp hb
    exact (toNat_ofNat (by omega)).symm
  case isFalse =>
    exfalso
    split at hb
    case isTrue =>
      simp only [List.mem_cons, List.not_mem_nil, or_false] at hb
      rcases hb with hb | hb
      all_goals exact hlong _ (by omega) (by omega) hb
    case isFalse =>
      split at hb
      all_goals simp only [List.mem_cons, List.not_mem_nil, or_false] at hb
      · rcases hb with hb | hb | hb
        all_goals exact hlong _ (by omega) (by omega) hb
      · rcases hb with hb | hb | hb | hb
        all_goals exact hlong _ (by omega) (by omega) hb

/-- A character of ASCII is one byte. -/
theorem encode_char_of_lt {c : Char} (hc : c.toNat < 0x80) :
    String.utf8EncodeChar c = [UInt8.ofNat c.toNat] := by
  have hval : c.val.toNat = c.toNat := rfl
  rw [String.utf8EncodeChar.eq_1, hval]
  exact if_pos (by omega)

/-! ### Texts -/

/-- **What has been encoded is decoded again**, character by character. -/
theorem decodeFrom_encode (index : Nat) (cs : List Char) :
    decodeFrom index (cs.flatMap String.utf8EncodeChar) = .ok cs := by
  induction cs generalizing index with
  | nil => rfl
  | cons c cs ih =>
    obtain ⟨index', hchar⟩ := decodeFrom_char index c (cs.flatMap String.utf8EncodeChar)
    rw [List.flatMap_cons, hchar, ih]
    rfl

/-- **A text** is decoded from its bytes. -/
theorem decode_encode (s : String) : decode (encode s) = .ok s := by
  unfold decode encode
  rw [decodeFrom_encode]
  show Except.ok (String.ofList s.toList) = Except.ok s
  rw [String.ofList_toList]

/-- So no two texts have the same bytes. -/
theorem encode_injective {s t : String} (h : encode s = encode t) : s = t := by
  have hdecode := decode_encode s
  rw [h, decode_encode] at hdecode
  exact (Except.ok.inj hdecode).symm

/-- **A byte of ASCII** in the bytes of a text is a character of it. -/
theorem char_mem_of_mem_encode {s : String} {b : UInt8} (hb : b ∈ encode s) (hlt : b.toNat < 0x80) :
    ∃ c ∈ s.toList, c.toNat = b.toNat := by
  obtain ⟨c, hc, hb⟩ := List.mem_flatMap.mp hb
  exact ⟨c, hc, toNat_of_mem_char hb hlt⟩

/-- A text of ASCII has one byte for each character. -/
theorem encode_of_lt {s : String} (h : ∀ c ∈ s.toList, c.toNat < 0x80) :
    encode s = s.toList.map fun c => UInt8.ofNat c.toNat := by
  unfold encode
  generalize s.toList = cs at h
  induction cs with
  | nil => rfl
  | cons c cs ih =>
    obtain ⟨hc, hcs⟩ := List.forall_mem_cons.mp h
    rw [List.flatMap_cons, encode_char_of_lt hc, ih hcs]
    rfl

theorem encode_append (s t : String) : encode (s ++ t) = encode s ++ encode t := by
  unfold encode
  rw [String.toList_append, List.flatMap_append]

/-- Only the empty text has no bytes. -/
theorem encode_eq_nil_iff {s : String} : encode s = [] ↔ s = "" := by
  constructor
  · intro h
    exact encode_injective (h.trans rfl)
  · rintro rfl
    rfl

end DocGraph.Utf8
