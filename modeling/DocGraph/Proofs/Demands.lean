import DocGraph.Proofs.Building

namespace DocGraph

/-!
# What attributes may be

What the checks of attributes come to, without the order in which they are made:

* `Numeral.WordType.IsNumeral` — the numerals of a machine word; these and no others are read
  (`Numeral.WordType.isSome_read?_iff`);
* `Demand.Admits` — the values that meet a demand, absence among them;
* `AttributeRule.check_eq_ok_iff`, `AttributeRule.checkAll_eq_ok_iff` — the checks accept these.
-/

/-! ### Numerals -/

namespace Numeral

variable {c : Char} {cs digits : List Char} {limit value d : Nat} {t : WordType}

/-- A number goes on with one more decimal digit. -/
def followedBy (value : Nat) (c : Char) : Nat := value * 10 + (c.toNat - '0'.toNat)

/-- The number that decimal digits write. -/
def valueOf (digits : List Char) : Nat := digits.foldl followedBy 0

/-- The numerals of a word: one or more decimal digits after a sign or none, with a value in range.
Only words with a sign are written with a minus. -/
def WordType.IsNumeral (t : WordType) (cs : List Char) : Prop :=
  ∃ sign digits, cs = sign ++ digits ∧ digits ≠ [] ∧ (∀ c ∈ digits, c.isDigit = true)
    ∧ ((sign = [] ∨ sign = ['+']) ∧ valueOf digits ≤ t.largest
      ∨ sign = ['-'] ∧ (∃ bits, t = .signed bits) ∧ valueOf digits ≤ t.deepest)

/-- Digits are those of ASCII. -/
theorem isDigit_iff : c.isDigit = true ↔ '0' ≤ c ∧ c ≤ '9' := by
  have hbounds : c.isDigit = (decide ('0' ≤ c) && decide (c ≤ '9')) := rfl
  rw [hbounds, Bool.and_eq_true, decide_eq_true_iff, decide_eq_true_iff]

/-- Letters are digits of larger bases only. -/
theorem digit?_eq_some_iff :
    digit? 10 c = some d ↔ c.isDigit = true ∧ d = c.toNat - '0'.toNat := by
  rw [isDigit_iff]
  unfold digit?
  dsimp only
  by_cases hdigit : '0' ≤ c ∧ c ≤ '9'
  · have hle : c.toNat ≤ 57 := UInt32.le_iff_toNat_le.mp hdigit.2
    have hzero : '0'.toNat = 48 := rfl
    have hsmall : c.toNat - '0'.toNat < 10 := by omega
    rw [if_pos hdigit, Option.filter_some, if_pos (decide_eq_true hsmall), Option.some.injEq]
    exact ⟨fun h => ⟨hdigit, h.symm⟩, fun h => h.2.symm⟩
  · rw [if_neg hdigit]
    -- Letters stand for ten and more, which base ten has not.
    have hnone : ∀ n, ¬ (some (n + 10)).filter (· < 10) = some d := by
      intro n
      have hlarge : ¬ n + 10 < 10 := by omega
      simp [Option.filter_some, hlarge]
    split
    · exact iff_of_false (hnone _) fun h => hdigit h.1
    · split
      · exact iff_of_false (hnone _) fun h => hdigit h.1
      · exact iff_of_false nofun fun h => hdigit h.1

/-- More digits make no number smaller, so reading may stop when the limit is passed. -/
theorem le_foldl (value : Nat) (cs : List Char) : value ≤ cs.foldl followedBy value := by
  induction cs generalizing value with
  | nil => exact Nat.le_refl value
  | cons c cs ih =>
    have hstep : value ≤ followedBy value c := by
      unfold followedBy
      omega
    exact Nat.le_trans hstep (ih (followedBy value c))

/-- Digits are read on if there is nothing else and the number stays in range. -/
theorem isOk_readDigitsFrom_iff (hvalue : value ≤ limit) :
    (∃ n, readDigitsFrom 10 limit value cs = .ok n)
      ↔ (∀ c ∈ cs, c.isDigit = true) ∧ cs.foldl followedBy value ≤ limit := by
  induction cs generalizing value with
  | nil => simpa [readDigitsFrom] using hvalue
  | cons c cs ih =>
    rw [List.forall_mem_cons, List.foldl_cons, readDigitsFrom]
    cases hd : digit? 10 c with
    | none =>
      have hdigit : ¬ c.isDigit = true := fun h => by
        rw [digit?_eq_some_iff.mpr ⟨h, rfl⟩] at hd
        cases hd
      simp [hdigit]
    | some d =>
      obtain ⟨hdigit, rfl⟩ := digit?_eq_some_iff.mp hd
      dsimp only
      split
      -- The value only grows from here on, so what exceeds the limit now exceeds it at the end.
      case isTrue hlarge =>
        have hle := le_foldl (followedBy value c) cs
        have hlarge : limit < followedBy value c := hlarge
        simp only [reduceCtorEq, exists_false, false_iff, not_and]
        intro _
        omega
      case isFalse hsmall =>
        have hsmall : followedBy value c ≤ limit := Nat.le_of_not_lt hsmall
        rw [and_assoc, ← ih hsmall]
        exact ⟨fun h => ⟨hdigit, h⟩, fun h => h.2⟩

/-- **Digits are read** if there are any, nothing else is among them, and their number is within the
limit. -/
theorem isOk_readDigits_iff :
    (∃ n, readDigits 10 limit cs = .ok n)
      ↔ cs ≠ [] ∧ (∀ c ∈ cs, c.isDigit = true) ∧ valueOf cs ≤ limit := by
  cases cs with
  | nil => simp [readDigits]
  | cons c cs =>
    rw [readDigits, isOk_readDigitsFrom_iff (Nat.zero_le limit)]
    · simp [valueOf]
    · exact List.cons_ne_nil c cs

/-- Digits with a value up to a limit. -/
def AreDigits (limit : Nat) (digits : List Char) : Prop :=
  digits ≠ [] ∧ (∀ c ∈ digits, c.isDigit = true) ∧ valueOf digits ≤ limit

/-- Behind a plus sign only digits are left. -/
theorem WordType.isNumeral_plus : t.IsNumeral ('+' :: digits) ↔ AreDigits t.largest digits := by
  refine ⟨?_, fun ⟨hne, hdigits, hrange⟩ =>
    ⟨['+'], digits, rfl, hne, hdigits, .inl ⟨.inr rfl, hrange⟩⟩⟩
  rintro ⟨sign, digits', heq, hne, hdigits, ⟨rfl | rfl, hrange⟩ | ⟨rfl, -⟩⟩
  · rw [List.nil_append] at heq
    exact absurd (hdigits '+' (heq ▸ List.mem_cons_self)) (by decide)
  · obtain rfl := (List.cons.inj heq).2
    exact ⟨hne, hdigits, hrange⟩
  · exact absurd (List.cons.inj heq).1 (by decide)

/-- Behind a minus sign, too, within the limit for numbers below zero. -/
theorem WordType.isNumeral_minus {bits : Nat} :
    (signed bits).IsNumeral ('-' :: digits) ↔ AreDigits (signed bits).deepest digits := by
  refine ⟨?_, fun ⟨hne, hdigits, hrange⟩ =>
    ⟨['-'], digits, rfl, hne, hdigits, .inr ⟨rfl, ⟨bits, rfl⟩, hrange⟩⟩⟩
  rintro ⟨sign, digits', heq, hne, hdigits, ⟨rfl | rfl, hrange⟩ | ⟨rfl, -, hrange⟩⟩
  · rw [List.nil_append] at heq
    exact absurd (hdigits '-' (heq ▸ List.mem_cons_self)) (by decide)
  · exact absurd (List.cons.inj heq).1 (by decide)
  · obtain rfl := (List.cons.inj heq).2
    exact ⟨hne, hdigits, hrange⟩

/-- Without a sign that the word has, there are only digits. -/
theorem WordType.isNumeral_iff_of_no_sign (hplus : ∀ rest, cs ≠ '+' :: rest)
    (hminus : ∀ bits rest, t = .signed bits → cs ≠ '-' :: rest) :
    t.IsNumeral cs ↔ AreDigits t.largest cs := by
  refine ⟨?_, fun ⟨hne, hdigits, hrange⟩ =>
    ⟨[], cs, rfl, hne, hdigits, .inl ⟨.inl rfl, hrange⟩⟩⟩
  rintro ⟨sign, digits, rfl, hne, hdigits, ⟨rfl | rfl, hrange⟩ | ⟨rfl, ⟨bits, rfl⟩, -⟩⟩
  · exact ⟨hne, hdigits, hrange⟩
  · exact absurd rfl (hplus digits)
  · exact absurd rfl (hminus bits digits rfl)

/-- **The texts that denote words** are the numerals. -/
theorem WordType.isSome_read?_iff {s : String} :
    (t.read? s).isSome = true ↔ t.IsNumeral s.toList := by
  have hread : ∀ {limit : Nat} {digits : List Char},
      (readDigits 10 limit digits).toOption.isSome = true ↔ AreDigits limit digits := by
    intro limit digits
    rw [Option.isSome_iff_exists, AreDigits, ← isOk_readDigits_iff]
    simp only [toOption_eq_some_iff]
  have hlift : ∀ x : Option Nat, (x >>= fun n => pure (n : Int)).isSome = x.isSome := by
    intro x
    cases x <;> rfl
  unfold read?
  split
  -- A minus before the digits of a signed type, a plus, or no sign at all.
  case h_1 hminus => rw [Option.isSome_map, hlift, hread, hminus, isNumeral_minus]
  case h_2 hplus => rw [Option.isSome_map, hread, hplus, isNumeral_plus]
  case h_3 hplus hminus =>
    rw [Option.isSome_map, hread, isNumeral_iff_of_no_sign]
    · exact fun rest h => hplus rest h
    · exact fun bits rest ht h => hminus bits rest ht h

end Numeral

/-! ### Values -/

/-- The values of an attribute that meet a demand; no value is that of an absent attribute. -/
def Demand.Admits : Demand → Option String → Prop
  | .any, _ => True
  | .filled, value => ∃ s, value = some s ∧ s ≠ ""
  | .number type required, value =>
    (required = true → value.isSome = true)
      ∧ ∀ s, value = some s → type.IsNumeral (trimmed s).toList
  | .flag, value => ∀ s, value = some s → s ∈ ["yes", "true", "no", "false"]
  | .refKind, value => ∃ s, value = some s ∧ s ∈ ["compound", "member", "xrefsect"]

namespace AttributeRule

variable {e : Element} {r : AttributeRule} {rules : List AttributeRule} {name value : String}

/-- An attribute is read if it is there. -/
theorem string_eq_ok_iff : e.string name = .ok value ↔ e.attribute? name = some value := by
  unfold Element.string
  cases e.attribute? name with
  | none => exact ⟨nofun, nofun⟩
  | some s => simp

/-- It is filled if its value is not empty. -/
theorem checkFilled_eq_ok_iff :
    checkFilled name e = .ok value ↔ e.attribute? name = some value ∧ value ≠ "" := by
  unfold checkFilled
  rw [Except.bind_eq_ok_iff]
  constructor
  · rintro ⟨s, hs, h⟩
    rw [string_eq_ok_iff] at hs
    by_cases hempty : s.isEmpty = true
    · rw [if_pos hempty] at h
      cases h
    · rw [if_neg hempty] at h
      obtain rfl := Except.ok.inj h
      exact ⟨hs, fun heq => hempty (heq ▸ rfl)⟩
  · rintro ⟨hs, hne⟩
    refine ⟨value, string_eq_ok_iff.mpr hs, ?_⟩
    have hempty : ¬ value.isEmpty = true := fun h => hne (String.isEmpty_iff.mp h)
    rw [if_neg hempty]
    rfl

theorem isSome_parseBool_iff :
    (parseBool value).isSome = true ↔ value ∈ ["yes", "true", "no", "false"] := by
  unfold parseBool
  split <;> simp_all

theorem isSome_ofName?_iff :
    (RefKind.ofName? value).isSome = true ↔ value ∈ ["compound", "member", "xrefsect"] := by
  unfold RefKind.ofName?
  split <;> simp_all

/-- **A number** is read from an attribute that is there, with a numeral among blanks as its value.
-/
theorem isOk_number_iff {type : Numeral.WordType} :
    (∃ n, e.number type name = .ok n)
      ↔ ∃ s, e.attribute? name = some s ∧ type.IsNumeral (trimmed s).toList := by
  -- A number is read from the trimmed value, which has to be a numeral.
  have hread : ∀ s : String, (parseNumber type s).isSome = true
      ↔ type.IsNumeral (trimmed s).toList := fun s => Numeral.WordType.isSome_read?_iff
  unfold Element.number
  simp only [Except.bind_eq_ok_iff, string_eq_ok_iff, ← hread]
  constructor
  · rintro ⟨n, s, hs, h⟩
    refine ⟨s, hs, ?_⟩
    split at h
    case h_1 hn => rw [hn]; rfl
    case h_2 => cases h
  · rintro ⟨s, hs, h⟩
    obtain ⟨n, hn⟩ := Option.isSome_iff_exists.mp h
    refine ⟨n, s, hs, ?_⟩
    rw [hn]
    rfl

/-- **A flag** is read from an attribute that is there, with one of the words as its value. -/
theorem isOk_boolean_iff :
    (∃ b, e.boolean name = .ok b)
      ↔ ∃ s, e.attribute? name = some s ∧ s ∈ ["yes", "true", "no", "false"] := by
  unfold Element.boolean
  simp only [Except.bind_eq_ok_iff, string_eq_ok_iff, ← isSome_parseBool_iff]
  constructor
  · rintro ⟨b, s, hs, h⟩
    refine ⟨s, hs, ?_⟩
    split at h
    case h_1 hb => rw [hb]; rfl
    case h_2 => cases h
  · rintro ⟨s, hs, h⟩
    obtain ⟨b, hb⟩ := Option.isSome_iff_exists.mp h
    refine ⟨b, s, hs, ?_⟩
    rw [hb]
    rfl

/-- A check that reads a value and leaves it. -/
theorem discard_eq_ok_iff {α : Type} {x : Except Violation α} :
    (do let _ ← x) = .ok () ↔ ∃ a, x = .ok a := by
  rw [Except.bind_eq_ok_iff]
  exact exists_congr fun a => and_iff_left rfl

/-- The check of a value that has to be filled. -/
theorem check_filled_iff :
    (AttributeRule.mk name .filled).check e = .ok ()
      ↔ Demand.filled.Admits (e.attribute? name) := by
  unfold check
  dsimp only
  rw [discard_eq_ok_iff]
  exact exists_congr fun value => checkFilled_eq_ok_iff

/-- The check of a number, which need not be there unless it is required. -/
theorem check_number_iff {type : Numeral.WordType} {required : Bool} :
    (AttributeRule.mk name (.number type required)).check e = .ok ()
      ↔ (Demand.number type required).Admits (e.attribute? name) := by
  have hnumber : (do let _ ← e.number type name) = .ok ()
      ↔ ∃ s, e.attribute? name = some s ∧ type.IsNumeral (trimmed s).toList := by
    rw [discard_eq_ok_iff, isOk_number_iff]
  unfold check
  dsimp only
  cases hvalue : e.attribute? name with
  | none =>
    rw [hvalue] at hnumber
    cases required with
    | true =>
      rw [if_pos (Bool.true_or _), hnumber]
      simp [Demand.Admits]
    | false =>
      rw [if_neg (by decide)]
      simp [Demand.Admits]
  | some s =>
    rw [hvalue] at hnumber
    rw [if_pos (by simp), hnumber]
    simp [Demand.Admits]

/-- The check of a flag, which need not be there. -/
theorem check_flag_iff :
    (AttributeRule.mk name .flag).check e = .ok () ↔ Demand.flag.Admits (e.attribute? name) := by
  have hflag : (do let _ ← e.boolean name) = .ok ()
      ↔ ∃ s, e.attribute? name = some s ∧ s ∈ ["yes", "true", "no", "false"] := by
    rw [discard_eq_ok_iff, isOk_boolean_iff]
  unfold check
  dsimp only
  cases hvalue : e.attribute? name with
  | none => simp [Demand.Admits]
  | some s =>
    rw [hvalue] at hflag
    rw [if_pos Option.isSome_some, hflag]
    simp [Demand.Admits]

/-- The check of a kind of reference, which has to be there. -/
theorem check_refKind_iff :
    (AttributeRule.mk name .refKind).check e = .ok ()
      ↔ Demand.refKind.Admits (e.attribute? name) := by
  unfold check
  dsimp only
  rw [Except.bind_eq_ok_iff]
  constructor
  · rintro ⟨value, hvalue, h⟩
    refine ⟨value, (checkFilled_eq_ok_iff.mp hvalue).1, isSome_ofName?_iff.mp ?_⟩
    by_cases hnone : (RefKind.ofName? value).isNone = true
    · rw [if_pos hnone] at h
      cases h
    · rw [Option.isNone_iff_eq_none] at hnone
      exact Option.isSome_iff_ne_none.mpr hnone
  · rintro ⟨value, hvalue, hname⟩
    -- No kind of reference has the empty name.
    have hne : value ≠ "" := by
      rintro rfl
      exact absurd hname (by decide)
    have hsome : ¬ (RefKind.ofName? value).isNone = true := by
      rw [Option.isNone_iff_eq_none]
      exact Option.isSome_iff_ne_none.mp (isSome_ofName?_iff.mpr hname)
    refine ⟨value, checkFilled_eq_ok_iff.mpr ⟨hvalue, hne⟩, ?_⟩
    rw [if_neg hsome]
    rfl

/-- **A rule is met** by the values that its demand admits. -/
theorem check_eq_ok_iff : r.check e = .ok () ↔ r.demand.Admits (e.attribute? r.name) := by
  obtain ⟨name, demand⟩ := r
  cases demand with
  | any => exact iff_of_true rfl trivial
  | filled => exact check_filled_iff
  | number type required => exact check_number_iff
  | flag => exact check_flag_iff
  | refKind => exact check_refKind_iff

/-- **The attributes of an element** are accepted if each has a rule and each rule is met. -/
theorem checkAll_eq_ok_iff :
    checkAll rules e = .ok ()
      ↔ (∀ a ∈ e.attributes, ∃ r ∈ rules, r.name = a.name)
        ∧ ∀ r ∈ rules, r.demand.Admits (e.attribute? r.name) := by
  have hknown : (e.attributeNames.find? fun name => rules.all (·.name != name)) = none
      ↔ ∀ a ∈ e.attributes, ∃ r ∈ rules, r.name = a.name := by
    simp [List.find?_eq_none, Element.attributeNames]
  unfold checkAll
  rw [← hknown]
  split
  case h_1 unknown hunknown => simp [hunknown]
  case h_2 hnone =>
    rw [forM_eq_ok_iff, iff_true_intro hnone, true_and]
    exact forall₂_congr fun r _ => check_eq_ok_iff

end AttributeRule

end DocGraph
