namespace DocGraph.Numeral

/-!
# Numerals

Whole numbers written with digits, within the range of a machine word:

* `readDigits` — digits of any base up to 36, refused at the first character that is no digit or at
  the first digit that leads beyond the limit, whichever comes first;
* `WordType` — signed or unsigned words of a number of bits;
* `WordType.read?` — an optional sign and one or more decimal digits, in range.  An unsigned
  number takes no minus sign, not even before zero.
-/

/-- Why a numeral is refused. -/
inductive ReadError where
  | empty
  | invalidDigit
  | tooLarge
deriving DecidableEq, Repr

/-- The wording of a refusal. -/
def ReadError.message : ReadError → String
  | .empty => "cannot parse integer from empty string"
  | .invalidDigit => "invalid digit found in string"
  | .tooLarge => "number too large to fit in target type"

/-- The value of a digit of the given base, upper or lower case. -/
def digit? (base : Nat) (c : Char) : Option Nat :=
  let value :=
    if '0' ≤ c ∧ c ≤ '9' then some (c.toNat - '0'.toNat)
    else if 'a' ≤ c ∧ c ≤ 'z' then some (c.toNat - 'a'.toNat + 10)
    else if 'A' ≤ c ∧ c ≤ 'Z' then some (c.toNat - 'A'.toNat + 10)
    else none
  value.filter (· < base)

/-- Continues a number `value` already read with further digits. -/
def readDigitsFrom (base limit value : Nat) : List Char → Except ReadError Nat
  | [] => .ok value
  | c :: rest =>
    match digit? base c with
    | none => .error .invalidDigit
    | some d =>
      if limit < value * base + d then .error .tooLarge
      else readDigitsFrom base limit (value * base + d) rest

/-- A number of one or more digits, at most `limit`. -/
def readDigits (base limit : Nat) : List Char → Except ReadError Nat
  | [] => .error .empty
  | cs => readDigitsFrom base limit 0 cs

/-- Machine words. -/
inductive WordType where
  | unsigned (bits : Nat)
  | signed (bits : Nat)
deriving DecidableEq, Repr

/-- The largest word. -/
def WordType.largest : WordType → Nat
  | .unsigned bits => Nat.pow 2 bits - 1
  | .signed bits => Nat.pow 2 (bits - 1) - 1

/-- The size of the least word: none is below zero without a sign. -/
def WordType.deepest : WordType → Nat
  | .unsigned _ => 0
  | .signed bits => Nat.pow 2 (bits - 1)

/-- The word that a text denotes, if any. -/
def WordType.read? (t : WordType) (s : String) : Option Int :=
  match t, s.toList with
  | .signed _, '-' :: digits =>
    (readDigits 10 t.deepest digits).toOption.map fun n => -(n : Int)
  | _, '+' :: digits => (readDigits 10 t.largest digits).toOption.map Int.ofNat
  | _, digits => (readDigits 10 t.largest digits).toOption.map Int.ofNat

end DocGraph.Numeral
