/-!
Decimal numerals. `value?` reads a numeral of any length as a natural number;
`word?` reads it into 32 bits and refuses it as soon as the digits seen so far
no longer fit. `word?_eq` relates the two.
-/

namespace LinkReconciler.Numeral

def isNumeral (digits : List Char) : Bool :=
  !digits.isEmpty && digits.all Char.isDigit

def value? (digits : List Char) : Option Nat :=
  if isNumeral digits then some (Nat.ofDigitChars 10 digits 0) else none

def appendDigit (number : UInt32) (digit : Char) : Nat :=
  10 * number.toNat + (digit.toNat - '0'.toNat)

def extend? (number : UInt32) (digit : Char) : Option UInt32 :=
  if digit.isDigit = true ∧ appendDigit number digit < UInt32.size then
    some (UInt32.ofNat (appendDigit number digit))
  else none

def extendAll? : UInt32 → List Char → Option UInt32
  | number, [] => some number
  | number, digit :: rest => (extend? number digit).bind (extendAll? · rest)

/-- Reads a numeral into a word; no sign, no blank, no other digit. -/
def word? (digits : List Char) : Option UInt32 :=
  if digits.isEmpty then none else extendAll? 0 digits

/-- Reads a numeral that may carry one plus sign. -/
def plusWord? : List Char → Option UInt32
  | '+' :: digits => word? digits
  | digits => word? digits

def ofWord (number : UInt32) : String :=
  String.ofList (Nat.toDigits 10 number.toNat)

theorem ofDigitChars_mono (digits : List Char) (start : Nat) :
    start ≤ Nat.ofDigitChars 10 digits start := by
  induction digits generalizing start with
  | nil => exact Nat.le_refl start
  | cons digit rest ih =>
      have grows : start ≤ 10 * start + (digit.toNat - '0'.toNat) := by omega
      exact Nat.le_trans grows (ih _)

theorem toNat_of_isDigit {digit : Char} (isDigit : digit.isDigit = true) :
    '0'.toNat ≤ digit.toNat ∧ digit.toNat ≤ '9'.toNat := by
  simp only [Char.isDigit, Bool.and_eq_true, decide_eq_true_eq] at isDigit
  exact isDigit

/-- What a digit counts that has so many places after it. -/
def scale (places : Nat) : Nat := Nat.pow 10 places

theorem scale_zero : scale 0 = 1 := rfl

theorem scale_succ (places : Nat) : scale (places + 1) = 10 * scale places :=
  Nat.mul_comm (scale places) 10

theorem scale_add (left right : Nat) : scale (left + right) = scale left * scale right :=
  Nat.pow_add 10 left right

theorem scale_pos (places : Nat) : 0 < scale places :=
  Nat.pow_pos (by decide)

theorem scale_le {few many : Nat} (fewer : few ≤ many) : scale few ≤ scale many :=
  Nat.pow_le_pow_right (by decide) fewer

theorem le_ofDigitChars (digits : List Char) (start : Nat) :
    start * scale digits.length ≤ Nat.ofDigitChars 10 digits start := by
  induction digits generalizing start with
  | nil => simp [Nat.ofDigitChars, scale_zero]
  | cons digit rest ih =>
      have grows : start * 10 ≤ 10 * start + (digit.toNat - '0'.toNat) := by omega
      calc start * scale (rest.length + 1)
          = start * 10 * scale rest.length := by
            rw [scale_succ, Nat.mul_assoc]
        _ ≤ (10 * start + (digit.toNat - '0'.toNat)) * scale rest.length :=
            Nat.mul_le_mul_right _ grows
        _ ≤ Nat.ofDigitChars 10 (digit :: rest) start := ih _

theorem ofDigitChars_lt {digits : List Char}
    (digitsOnly : digits.all Char.isDigit = true) (start : Nat) :
    Nat.ofDigitChars 10 digits start < (start + 1) * scale digits.length := by
  induction digits generalizing start with
  | nil => simp [Nat.ofDigitChars, scale_zero]
  | cons digit rest ih =>
      rw [List.all_cons, Bool.and_eq_true] at digitsOnly
      have most := (toNat_of_isDigit digitsOnly.1).2
      have nine : '9'.toNat = '0'.toNat + 9 := rfl
      have room : 10 * start + (digit.toNat - '0'.toNat) + 1 ≤
          (start + 1) * 10 := by omega
      calc Nat.ofDigitChars 10 (digit :: rest) start
          < (10 * start + (digit.toNat - '0'.toNat) + 1) * scale rest.length :=
            ih digitsOnly.2 _
        _ ≤ (start + 1) * 10 * scale rest.length := Nat.mul_le_mul_right _ room
        _ = (start + 1) * scale (rest.length + 1) := by
            rw [scale_succ, Nat.mul_assoc]

theorem extendAll?_eq (digits : List Char) (number : UInt32) :
    extendAll? number digits =
      if digits.all Char.isDigit = true ∧
          Nat.ofDigitChars 10 digits number.toNat < UInt32.size
      then some (UInt32.ofNat (Nat.ofDigitChars 10 digits number.toNat))
      else none := by
  induction digits generalizing number with
  | nil => simp [extendAll?, Nat.ofDigitChars, number.toNat_lt_size]
  | cons digit rest ih =>
      have unfolded : Nat.ofDigitChars 10 (digit :: rest) number.toNat =
          Nat.ofDigitChars 10 rest (appendDigit number digit) := rfl
      have grows := ofDigitChars_mono rest (appendDigit number digit)
      rw [unfolded, extendAll?, extend?, List.all_cons]
      by_cases isDigit : digit.isDigit = true
      · by_cases fits : appendDigit number digit < UInt32.size
        · rw [if_pos ⟨isDigit, fits⟩, Option.bind_some, ih,
            UInt32.toNat_ofNat_of_lt' fits, isDigit, Bool.true_and]
        · have overflows : ¬ Nat.ofDigitChars 10 rest
              (appendDigit number digit) < UInt32.size := by omega
          rw [if_neg fun both => fits both.2,
            if_neg fun both => overflows both.2, Option.bind_none]
      · simp [isDigit]

theorem word?_eq (digits : List Char) :
    word? digits =
      (value? digits).bind fun number =>
        if number < UInt32.size then some (UInt32.ofNat number) else none := by
  unfold word? value? isNumeral
  cases digits with
  | nil => rfl
  | cons digit rest =>
      rw [List.isEmpty_cons, if_neg (by simp), extendAll?_eq]
      by_cases digitsOnly : (digit :: rest).all Char.isDigit = true
      · simp [digitsOnly]
      · simp [digitsOnly]

theorem value?_ofWord (number : UInt32) :
    value? (ofWord number).toList = some number.toNat := by
  have digitsOnly : (Nat.toDigits 10 number.toNat).all Char.isDigit = true :=
    List.all_eq_true.mpr fun _ member =>
      Nat.isDigit_of_mem_toDigits (by decide) (by decide) member
  simp [value?, ofWord, isNumeral, digitsOnly, Nat.toDigits_ne_nil,
    Nat.ofDigitChars_toDigits]

theorem word?_ofWord (number : UInt32) :
    word? (ofWord number).toList = some number := by
  simp [word?_eq, value?_ofWord, number.toNat_lt_size]

end LinkReconciler.Numeral
