import DocGraph.Proofs.Encoding
import DocGraph.Proofs.RefIds

namespace DocGraph.RefId

/-!
# Reference ids, byte by byte

Ids may be taken apart without decoding them: where the delimiter is, is told by their bytes, and
what stands before and after it are the bytes of texts.

* `hashedPlace?` — the place of the delimiter of a hashed anchor, by the shape of the last bytes;
* `lastPlace?` — the last place of the delimiter, whatever follows it;
* `lastPlace?_of_hashedPlace?` — the first of the two never finds another place than the second;
* `delimiter_infix_of_bytes` — no delimiter is found across the bytes of other characters;
* `bytesOfOwner`, `bytesOfFragment`, `bytes_encode` — hence ids fall apart between characters, into
  their owner and their fragment;
* `split_at_last_delimiter` — the main statement: both parts come of one cut, at the last delimiter.
-/

/-! ### Searching bytes -/

/-- The bytes of the delimiter. -/
def delimiterBytes : List UInt8 := [0x5f, 0x31]

/-- Bytes of hexadecimal digits in either case. -/
def isHexByte (b : UInt8) : Bool :=
  (0x30 ≤ b && b ≤ 0x39) || (0x61 ≤ b && b ≤ 0x66) || (0x41 ≤ b && b ≤ 0x46)

/-- Bytes of lower-case letters of ASCII. -/
def isSmallByte (b : UInt8) : Bool := 0x61 ≤ b && b ≤ 0x7a

/-- The place of the delimiter of a hashed anchor with `letters` letters before its digits. -/
def hashedPlaceWith? (bytes : List UInt8) (letters : Nat) : Option Nat :=
  let digitsPlace := bytes.length - hashDigits
  let leadPlace := digitsPlace - letters
  let place := leadPlace - delimiterBytes.length
  if delimiterBytes.length + letters + hashDigits ≤ bytes.length
      && (bytes.drop digitsPlace).all isHexByte
      && ((bytes.drop leadPlace).take letters).all isSmallByte
      && (bytes.drop place).take delimiterBytes.length == delimiterBytes then
    some place
  else none

/-- The place of the delimiter of a hashed anchor. -/
def hashedPlace? (bytes : List UInt8) : Option Nat :=
  (List.range (hashLetters + 1)).findSome? (hashedPlaceWith? bytes)

/-- The last of all places at which there is a delimiter. -/
def lastPlace? : List UInt8 → Option Nat
  | [] => none
  | b :: rest =>
    match lastPlace? rest with
    | some i => some (i + 1)
    | none => if delimiterBytes.isPrefixOf (b :: rest) then some 0 else none

/-- The bytes before the delimiter of a hashed anchor, or else before the last delimiter. -/
def bytesOfOwner (bytes : List UInt8) : List UInt8 :=
  (((hashedPlace? bytes).or (lastPlace? bytes)).map bytes.take).getD bytes

/-- The bytes after the last delimiter. -/
def bytesOfFragment (bytes : List UInt8) : List UInt8 :=
  ((lastPlace? bytes).map fun i => bytes.drop (i + delimiterBytes.length)).getD bytes

/-! ### The last place -/

section

variable {bytes before after anchor pre : List UInt8} {i letters : Nat}

/-- There is no last place if there is no delimiter. -/
theorem lastPlace?_eq_none_iff : lastPlace? bytes = none ↔ ¬ delimiterBytes <:+: bytes := by
  induction bytes with
  | nil => simp [lastPlace?, delimiterBytes]
  | cons b rest ih =>
    rw [lastPlace?, List.infix_cons_iff, not_or, ← ih]
    cases lastPlace? rest with
    | some i => simp
    | none => simp [← List.isPrefixOf_iff_prefix]

/-- No delimiter begins before the first byte of one. -/
theorem delimiter_infix_append (hpre : 0x5f ∉ pre) :
    delimiterBytes <:+: pre ++ bytes ↔ delimiterBytes <:+: bytes := by
  induction pre with
  | nil => rfl
  | cons b pre ih =>
    rw [List.mem_cons, not_or] at hpre
    rw [List.cons_append, List.infix_cons_iff, ih hpre.2, or_iff_right]
    intro hbegin
    exact hpre.1 (List.cons_prefix_cons.mp hbegin).1

/-- **The last place** is that of a delimiter behind which there is no other one. -/
theorem lastPlace?_append (hafter : ¬ delimiterBytes <:+: after) :
    lastPlace? (before ++ (delimiterBytes ++ after)) = some before.length := by
  induction before with
  | nil =>
    -- Behind the first byte of the delimiter there is no other delimiter.
    have hnone : lastPlace? (0x31 :: after) = none := by
      rw [lastPlace?_eq_none_iff]
      exact mt (delimiter_infix_append (by decide : (0x5f : UInt8) ∉ [0x31])).mp hafter
    have hbegin : delimiterBytes.isPrefixOf (0x5f :: 0x31 :: after) = true :=
      List.isPrefixOf_iff_prefix.mpr (List.prefix_append delimiterBytes after)
    show lastPlace? (0x5f :: 0x31 :: after) = some 0
    rw [lastPlace?, hnone]
    simp [hbegin]
  | cons b before ih => rw [List.cons_append, lastPlace?, ih, List.length_cons]

/-! ### Hashed anchors -/

/-- What stands behind the place of a hashed anchor is the delimiter and an anchor in which no other
delimiter can begin. -/
theorem eq_append_of_hashedPlaceWith? (hplace : hashedPlaceWith? bytes letters = some i) :
    ∃ before anchor, bytes = before ++ (delimiterBytes ++ anchor) ∧ before.length = i
      ∧ 0x5f ∉ anchor := by
  have htwo : delimiterBytes.length = 2 := rfl
  simp only [hashedPlaceWith?, Option.ite_none_right_eq_some, Bool.and_eq_true, decide_eq_true_eq,
    List.all_eq_true, beq_iff_eq, Option.some.injEq, htwo] at hplace
  obtain ⟨⟨⟨⟨hlen, hdigits⟩, hlead⟩, hdelimiter⟩, hplace⟩ := hplace
  -- The delimiter ends where the letters begin, and these where the digits do.
  have hleadPlace : bytes.length - hashDigits - letters = i + 2 := by omega
  have hdigitsPlace : bytes.length - hashDigits = i + 2 + letters := by omega
  rw [hplace] at hdelimiter
  rw [hleadPlace] at hlead
  rw [hdigitsPlace] at hdigits
  refine ⟨bytes.take i, bytes.drop (i + 2), ?_, ?_, fun hmem => ?_⟩
  · rw [← hdelimiter, ← List.drop_drop, List.take_append_drop, List.take_append_drop]
  · rw [List.length_take]
    omega
  · -- the letters come first in the anchor, and its digits after them
    rw [← List.take_append_drop letters (bytes.drop (i + 2)), List.drop_drop, List.mem_append]
      at hmem
    rcases hmem with hmem | hmem
    · exact absurd (hlead _ hmem) (by decide)
    · exact absurd (hdigits _ hmem) (by decide)

/-- **Hashed anchors are found where any anchor is**, behind the last delimiter. -/
theorem lastPlace?_of_hashedPlace? (hplace : hashedPlace? bytes = some i) :
    lastPlace? bytes = some i := by
  obtain ⟨letters, -, hletters⟩ := List.exists_of_findSome?_eq_some hplace
  obtain ⟨before, anchor, rfl, rfl, hanchor⟩ := eq_append_of_hashedPlaceWith? hletters
  exact lastPlace?_append fun hwithin => hanchor (hwithin.subset (by decide))

/-- **The delimiter of a hashed anchor is the last one**, so looking for it first makes no
difference. -/
theorem bytesOfOwner_eq (bytes : List UInt8) :
    bytesOfOwner bytes = ((lastPlace? bytes).map bytes.take).getD bytes := by
  rw [bytesOfOwner]
  cases hplace : hashedPlace? bytes with
  | none => rw [Option.none_or]
  | some i => rw [Option.some_or, lastPlace?_of_hashedPlace? hplace]

end

/-! ### Bytes of texts -/

/-- Only a character of ASCII has its byte. -/
theorem eq_of_mem_encodeChar {c d : Char} {b : UInt8} (hb : b ∈ String.utf8EncodeChar c)
    (hd : d.toNat = b.toNat) (hlt : b.toNat < 0x80) : c = d := by
  rw [← Char.toNat_inj, hd]
  exact Utf8.toNat_of_mem_char hb hlt

/-- A text whose bytes begin with that of a character of ASCII begins with the character. -/
theorem exists_eq_cons_of_bytes {cs : List Char} {d : Char} {b : UInt8}
    (h : [b] <+: cs.flatMap String.utf8EncodeChar) (hd : d.toNat = b.toNat)
    (hlt : b.toNat < 0x80) : ∃ rest, cs = d :: rest := by
  cases cs with
  | nil => simp at h
  | cons c rest =>
    obtain ⟨first, others, hfirst⟩ :=
      List.exists_cons_of_ne_nil (String.utf8EncodeChar_ne_nil (c := c))
    rw [List.flatMap_cons, hfirst, List.cons_append] at h
    obtain ⟨rfl, -⟩ := List.cons_prefix_cons.mp h
    have hmem : b ∈ String.utf8EncodeChar c := by simp [hfirst]
    rw [eq_of_mem_encodeChar hmem hd hlt]
    exact ⟨rest, rfl⟩

/-- **A delimiter among the bytes of a text** is one in the text. -/
theorem delimiter_infix_of_bytes {cs : List Char}
    (h : delimiterBytes <:+: cs.flatMap String.utf8EncodeChar) : delimiter <:+: cs := by
  induction cs with
  | nil => exact absurd h (by decide)
  | cons c cs ih =>
    rw [List.flatMap_cons] at h
    have hrest : delimiterBytes <:+: cs.flatMap String.utf8EncodeChar → delimiter <:+: c :: cs :=
      fun h => (ih h).trans (List.suffix_cons c cs).isInfix
    by_cases hc : c = '_'
    · subst hc
      -- the underscore is one byte, and the second byte of a delimiter begins the next character
      rcases List.infix_cons_iff.mp h with hbegin | h
      · obtain ⟨rest, rfl⟩ := exists_eq_cons_of_bytes (d := '1')
          (List.cons_prefix_cons.mp hbegin).2 rfl (by decide)
        exact (List.prefix_append delimiter rest).isInfix
      · exact hrest h
    · have hfree : 0x5f ∉ String.utf8EncodeChar c := fun hmem =>
        hc (eq_of_mem_encodeChar hmem rfl (by decide))
      exact hrest ((delimiter_infix_append hfree).mp h)

/-! ### Both parts -/

section

variable {id before after : String}

theorem toList_append_delimiter (before after : String) :
    (before ++ "_1" ++ after).toList = before.toList ++ (delimiter ++ after.toList) := by
  rw [String.toList_append, String.toList_append, List.append_assoc]
  rfl

theorem encode_append_delimiter (before after : String) :
    Utf8.encode (before ++ "_1" ++ after)
      = Utf8.encode before ++ (delimiterBytes ++ Utf8.encode after) := by
  have hdelimiter : Utf8.encode "_1" = delimiterBytes := by decide
  rw [Utf8.encode_append, Utf8.encode_append, hdelimiter, List.append_assoc]

/-- The first part is the owner if there is no delimiter in the second. -/
theorem owner_append (hafter : ¬ delimiter <:+: after.toList) :
    owner (before ++ "_1" ++ after) = before := by
  rw [← String.toList_inj, toList_owner, toList_append_delimiter, beforeLast,
    cutLast?_delimiter_append hafter]
  rfl

theorem fragment_append (hafter : ¬ delimiter <:+: after.toList) :
    fragment (before ++ "_1" ++ after) = after :=
  fragment_eq_iff.mpr ⟨hafter, Or.inr ⟨before.toList, toList_append_delimiter before after⟩⟩

/-- An id is cut once, at its last delimiter. -/
theorem exists_eq_append (hid : delimiter <:+: id.toList) :
    ∃ before after, id = before ++ "_1" ++ after ∧ ¬ delimiter <:+: after.toList := by
  refine ⟨owner id, fragment id, ?_, (fragment_eq_iff.mp rfl).no_delimiter⟩
  rw [← String.toList_inj, toList_append_delimiter, owner_append_fragment hid]

theorem owner_eq_self (hid : ¬ delimiter <:+: id.toList) : owner id = id := by
  rw [← String.toList_inj, toList_owner, beforeLast, cutLast?_eq_none_iff.mpr hid]
  rfl

theorem fragment_eq_self (hid : ¬ delimiter <:+: id.toList) : fragment id = id :=
  fragment_eq_iff.mpr ⟨hid, Or.inl rfl⟩

/-- **The bytes of both parts** are what stands before and after the last delimiter among the bytes
of an id. -/
theorem bytes_encode (id : String) :
    bytesOfOwner (Utf8.encode id) = Utf8.encode (owner id)
      ∧ bytesOfFragment (Utf8.encode id) = Utf8.encode (fragment id) := by
  rw [bytesOfOwner_eq, bytesOfFragment]
  -- A delimiter in the bytes is one in the text, so the last one is found at the same cut.
  by_cases hid : delimiter <:+: id.toList
  · obtain ⟨before, after, rfl, hafter⟩ := exists_eq_append hid
    have hplace : lastPlace? (Utf8.encode before ++ (delimiterBytes ++ Utf8.encode after))
        = some (Utf8.encode before).length :=
      lastPlace?_append (mt delimiter_infix_of_bytes hafter)
    rw [owner_append hafter, fragment_append hafter, encode_append_delimiter, hplace]
    refine ⟨List.take_left, ?_⟩
    show (Utf8.encode before ++ (delimiterBytes ++ Utf8.encode after)).drop
      ((Utf8.encode before).length + delimiterBytes.length) = Utf8.encode after
    rw [← List.drop_drop, List.drop_left, List.drop_left]
  · have hnone : lastPlace? (Utf8.encode id) = none :=
      lastPlace?_eq_none_iff.mpr (mt delimiter_infix_of_bytes hid)
    rw [owner_eq_self hid, fragment_eq_self hid, hnone]
    exact ⟨rfl, rfl⟩

end

/-- **An id is split at its last delimiter**, whatever the shape of its anchor, and its parts are
those that its bytes have there; an id without a delimiter is both of its parts. -/
theorem split_at_last_delimiter :
    (∀ id, delimiter <:+: id.toList →
        owner id ++ "_1" ++ fragment id = id ∧ ¬ delimiter <:+: (fragment id).toList)
      ∧ (∀ id, ¬ delimiter <:+: id.toList → owner id = id ∧ fragment id = id)
      ∧ (∀ before after : String, ¬ delimiter <:+: after.toList →
          owner (before ++ "_1" ++ after) = before ∧ fragment (before ++ "_1" ++ after) = after)
      ∧ (∀ id before, hashedOwner? id = some before →
          ∃ after, cutLast? delimiter id = some (before, after))
      ∧ (∀ bytes i, hashedPlace? bytes = some i → lastPlace? bytes = some i)
      ∧ ∀ id, bytesOfOwner (Utf8.encode id) = Utf8.encode (owner id)
          ∧ bytesOfFragment (Utf8.encode id) = Utf8.encode (fragment id) := by
  refine ⟨fun id hid => ?_, fun id hid => ⟨owner_eq_self hid, fragment_eq_self hid⟩,
    fun before after hafter => ⟨owner_append hafter, fragment_append hafter⟩,
    fun id before => cutLast?_of_hashedOwner?, fun bytes i => lastPlace?_of_hashedPlace?,
    bytes_encode⟩
  obtain ⟨before, after, rfl, hafter⟩ := exists_eq_append hid
  rw [owner_append hafter, fragment_append hafter]
  exact ⟨rfl, hafter⟩

/-- The two parts of the id of a member, whose class has a name that is not of ASCII. -/
theorem split_at_last_delimiter_hashed :
    let member := "classns_1_1_é" ++ "_1" ++ "ga0123456789abcdef0123456789abcdef"
    ¬ delimiter <:+: "ga0123456789abcdef0123456789abcdef".toList
      ∧ owner member = "classns_1_1_é"
      ∧ fragment member = "ga0123456789abcdef0123456789abcdef" := by
  have hafter : ¬ delimiter <:+: "ga0123456789abcdef0123456789abcdef".toList := by decide
  exact ⟨hafter, split_at_last_delimiter.2.2.1 "classns_1_1_é" _ hafter⟩

end DocGraph.RefId
