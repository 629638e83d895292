import LinkReconciler.Text.Numeral

/-!
The range of double precision: the decimal numbers that round to a finite one.
`holds_iff` says that the shortcut by the place of the first digit is exact.
-/

namespace LinkReconciler.DoubleRange

open Numeral (scale)

/-- Half a step beyond the largest finite number. From here on numbers round to
infinity. -/
def bound : Nat := 1 <<< 1024 - 1 <<< 970

/-- Whether digits times a power of ten lie below the bound. The bound has 309
digits, so that only numbers of as many places have to be compared with it. -/
def holds (digits : List Char) (exponent : Int) : Bool :=
  let significant := digits.dropWhile (· = '0')
  let places : Int := significant.length + exponent
  if significant.isEmpty || places < 309 then true
  else if 309 < places then false
  else Nat.ofDigitChars 10 significant 0 * scale exponent.toNat <
    bound * scale (-exponent).toNat

theorem bound_length : scale 308 ≤ bound ∧ bound ≤ scale 309 := by
  decide +kernel

theorem pow_le_bound {least places shift : Nat} (small : scale least ≤ bound)
    (low : places ≤ least + shift) : scale places ≤ bound * scale shift := by
  refine Nat.le_trans (Numeral.scale_le low) ?_
  rw [Numeral.scale_add]
  exact Nat.mul_le_mul_right _ small

theorem bound_le_pow {most places shift : Nat} (large : bound ≤ scale most)
    (high : most + shift ≤ places) : bound * scale shift ≤ scale places := by
  refine Nat.le_trans ?_ (Numeral.scale_le high)
  rw [Numeral.scale_add]
  exact Nat.mul_le_mul_right _ large

theorem ofDigitChars_dropZeros (digits : List Char) :
    Nat.ofDigitChars 10 (digits.dropWhile (· = '0')) 0 =
      Nat.ofDigitChars 10 digits 0 := by
  induction digits with
  | nil => rfl
  | cons digit rest ih =>
      by_cases zero : digit = '0'
      · subst zero
        rw [List.dropWhile_cons_of_pos (by simp), ih]
        rfl
      · rw [List.dropWhile_cons_of_neg (by simpa using zero)]

theorem pow_le_ofDigitChars {digit : Char} (rest : List Char)
    (isDigit : digit.isDigit = true) (nonzero : digit ≠ '0') :
    scale rest.length ≤ Nat.ofDigitChars 10 (digit :: rest) 0 := by
  have positive : 1 ≤ 10 * 0 + (digit.toNat - '0'.toNat) := by
    have differs : digit.toNat ≠ '0'.toNat := fun same =>
      nonzero (Char.toNat_inj.mp same)
    have least := (Numeral.toNat_of_isDigit isDigit).1
    omega
  calc scale rest.length = 1 * scale rest.length := (Nat.one_mul _).symm
    _ ≤ (10 * 0 + (digit.toNat - '0'.toNat)) * scale rest.length :=
        Nat.mul_le_mul_right _ positive
    _ ≤ Nat.ofDigitChars 10 (digit :: rest) 0 :=
        Numeral.le_ofDigitChars rest _

theorem holds_iff (digits : List Char) (exponent : Int)
    (digitsOnly : digits.all Char.isDigit = true) :
    holds digits exponent = true ↔
      Nat.ofDigitChars 10 digits 0 * scale exponent.toNat <
        bound * scale (-exponent).toNat := by
  have same := ofDigitChars_dropZeros digits
  have leading := List.head?_dropWhile_not (· = '0') digits
  have digitsLeft : (digits.dropWhile (· = '0')).all Char.isDigit = true :=
    List.all_eq_true.mpr fun digit member =>
      List.all_eq_true.mp digitsOnly digit
        ((List.dropWhile_sublist _).subset member)
  unfold holds
  dsimp only
  rw [← same]
  generalize digits.dropWhile (· = '0') = significant at leading digitsLeft ⊢
  cases significant with
  | nil =>
      have positive : 0 < bound :=
        Nat.lt_of_lt_of_le (Numeral.scale_pos 308) bound_length.1
      have below : 0 * scale exponent.toNat < bound * scale (-exponent).toNat := by
        rw [Nat.zero_mul]
        exact Nat.mul_pos positive (Numeral.scale_pos _)
      exact iff_of_true (by simp) below
  | cons digit rest =>
      have nonzero : digit ≠ '0' := by simpa using leading
      have isDigit : digit.isDigit = true := by
        rw [List.all_cons, Bool.and_eq_true] at digitsLeft
        exact digitsLeft.1
      have least := pow_le_ofDigitChars rest isDigit nonzero
      have most := Numeral.ofDigitChars_lt digitsLeft 0
      generalize Nat.ofDigitChars 10 (digit :: rest) 0 = value at least most ⊢
      rw [List.length_cons, Nat.zero_add, Nat.one_mul] at most
      simp only [List.isEmpty_cons, Bool.false_or, decide_eq_true_eq,
        List.length_cons]
      split
      next low =>
        have powers : rest.length + 1 + exponent.toNat ≤
            308 + (-exponent).toNat := by omega
        have below : value * scale exponent.toNat <
            bound * scale (-exponent).toNat :=
          calc value * scale exponent.toNat
              < scale (rest.length + 1) * scale exponent.toNat :=
                Nat.mul_lt_mul_of_pos_right most (Numeral.scale_pos _)
            _ = scale (rest.length + 1 + exponent.toNat) :=
                (Numeral.scale_add ..).symm
            _ ≤ bound * scale (-exponent).toNat :=
                pow_le_bound bound_length.1 powers
        exact iff_of_true rfl below
      next notLow =>
        split
        next high =>
          have powers : 309 + (-exponent).toNat ≤
              rest.length + exponent.toNat := by omega
          have above : bound * scale (-exponent).toNat ≤
              value * scale exponent.toNat :=
            calc bound * scale (-exponent).toNat
                ≤ scale (rest.length + exponent.toNat) :=
                  bound_le_pow bound_length.2 powers
              _ = scale rest.length * scale exponent.toNat := Numeral.scale_add ..
              _ ≤ value * scale exponent.toNat :=
                  Nat.mul_le_mul_right _ least
          exact iff_of_false Bool.false_ne_true (Nat.not_lt.mpr above)
        next => exact decide_eq_true_iff

end LinkReconciler.DoubleRange
