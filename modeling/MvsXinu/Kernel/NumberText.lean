import Mathlib.Logic.Function.Iterate
import Mathlib.Tactic.IntervalCases
import MvsXinu.Kernel.Doprnt

/-!
# The texts of the numeric conversions

A number as it stands in the machine is written by wrapping subtractions, by shifts that keep the
sign and by a mask, and yet its text is the numeral of its value.
-/

namespace MvsXinu.Doprnt

open Numerals

set_option autoImplicit false

/-! ## Characters -/

theorem addChar_zero {digit : Nat} (small : digit < 10) :
    addChar '0' digit = digit.digitChar := by
  interval_cases digit <;> rfl

theorem addChar_digit {first units : Nat} (small : first + units < 10) :
    addChar first.digitChar units = (first + units).digitChar := by
  have below : first < 10 := by omega
  rw [← addChar_zero small, addChar, addChar, Nat.toNat_digitChar_of_lt_ten below, Nat.add_assoc]
  rfl

theorem hexDigits_getD {digit : Nat} (small : digit < 16) :
    hexDigits.getD digit '0' = digit.digitChar := by
  interval_cases digit <;> rfl

/-- The mask leaves the two low bits of a digit. -/
theorem maskChar_digit {digit : Nat} (small : digit < 8) :
    maskChar (addChar '0' digit) '3' = (digit % 4).digitChar := by
  interval_cases digit <;> rfl

/-! ## Shifted digits -/

/-- The low bits of the machine number are those of the other one. -/
def Low (bits : Nat) (num : BitVec 32) (number : Nat) : Prop :=
  ∀ i < bits, num.getLsbD i = number.testBit i

theorem low_toNat (bits : Nat) (num : BitVec 32) : Low bits num num.toNat := fun _ _ => rfl

theorem Low.mod {bits number : Nat} {num : BitVec 32} (low : Low bits num number) :
    num.toNat % 2 ^ bits = number % 2 ^ bits := by
  apply Nat.eq_of_testBit_eq
  intro i
  rw [Nat.testBit_mod_two_pow, Nat.testBit_mod_two_pow]
  by_cases inside : i < bits
  · rw [← low i inside]
    rfl
  · rw [decide_eq_false inside, Bool.false_and, Bool.false_and]

/-- The copies of the sign come in above the bits that are left. -/
theorem Low.shift {shift bits number : Nat} {num : BitVec 32}
    (low : Low (shift + bits) num number) (word : shift + bits ≤ 32) :
    Low bits (num.sshiftRight shift) (number / 2 ^ shift) := by
  intro i inside
  have place : shift + i < 32 := by omega
  rw [BitVec.getLsbD_sshiftRight, decide_eq_false (by omega), if_pos place, Bool.not_false,
    Bool.true_and, Nat.testBit_div_two_pow, low (shift + i) (by omega), Nat.add_comm]

theorem temp_low {shift : Nat} {digit : BitVec 32 → Char}
    (digits : ∀ num number, Low shift num number → digit num = (number % 2 ^ shift).digitChar)
    (turns : Nat) {num : BitVec 32} {number : Nat} (low : Low (shift * turns) num number)
    (word : shift * turns ≤ 32) :
    temp digit (fun num => num.sshiftRight shift) turns num = lowDigits (2 ^ shift) turns number := by
  induction turns generalizing num number with
  | zero => rfl
  | succ turns ih =>
      rw [Nat.mul_succ, Nat.add_comm] at low word
      have first : Low shift num number := fun i inside => low i (by omega)
      rw [temp, lowDigits, digits num number first, ih (low.shift word) (by omega)]

theorem temp_succ (digit : BitVec 32 → Char) (rest : BitVec 32 → BitVec 32) (turns : Nat)
    (num : BitVec 32) :
    temp digit rest (turns + 1) num = temp digit rest turns num ++ [digit (rest^[turns] num)] := by
  induction turns generalizing num with
  | zero => rfl
  | succ turns ih => rw [temp, ih, temp, List.cons_append, Function.iterate_succ_apply]

theorem low_iterate {shift turns bits number : Nat} {num : BitVec 32}
    (low : Low (shift * turns + bits) num number) (word : shift * turns + bits ≤ 32) :
    Low bits ((fun num => num.sshiftRight shift)^[turns] num) (number / 2 ^ (shift * turns)) := by
  induction turns generalizing num number with
  | zero => simpa using low
  | succ turns ih =>
      have split : shift * (turns + 1) + bits = shift + (shift * turns + bits) := by
        rw [Nat.mul_succ]
        omega
      rw [split] at low word
      have rest := ih (low.shift word) (by omega)
      rw [Nat.div_div_eq_div_mul, ← Nat.pow_add, ← Nat.add_comm _ shift, ← Nat.mul_succ] at rest
      exact rest

theorem and_mask (bits : Nat) (num mask : BitVec 32) (ones : mask.toNat = 2 ^ bits - 1) :
    (num &&& mask).toNat = num.toNat % 2 ^ bits := by
  rw [BitVec.toNat_and, ones, Nat.and_two_pow_sub_one_eq_mod]

theorem octal_digit (num : BitVec 32) (number : Nat) (low : Low 3 num number) :
    addChar '0' (num &&& 7).toNat = (number % 2 ^ 3).digitChar := by
  rw [and_mask 3 num 7 rfl, low.mod]
  exact addChar_zero (by omega)

theorem hex_digit (num : BitVec 32) (number : Nat) (low : Low 4 num number) :
    hexDigits.getD (num &&& 15).toNat '0' = (number % 2 ^ 4).digitChar := by
  rw [and_mask 4 num 15 rfl, low.mod]
  exact hexDigits_getD (by omega)

theorem prtl16_eq (num : BitVec 32) : prtl16 num = Nat.toDigits 16 num.toNat := by
  rw [prtl16, temp_low hex_digit 8 (low_toNat _ num) (by decide)]
  exact strip_lowDigits (by decide) (by decide) num.isLt

/-- Of the digit at the top the mask leaves the two bits that belong to the number. -/
theorem prtl8_eq (num : BitVec 32) : prtl8 num = Nat.toDigits 8 num.toNat := by
  have bound := num.isLt
  have top : Low 2 ((fun num => num.sshiftRight 3)^[10] num) (num.toNat / 2 ^ 30) :=
    low_iterate (low_toNat _ num) (by decide)
  rw [prtl8, temp_succ, temp_low octal_digit 10 (low_toNat _ num) (by decide)]
  generalize (fun num : BitVec 32 => num.sshiftRight 3)^[10] num = shifted at top
  have masked : maskChar (addChar '0' (shifted &&& 7).toNat) '3' =
      (num.toNat / (2 ^ 3) ^ 10).digitChar := by
    have digit := and_mask 3 shifted 7 rfl
    have same := top.mod
    rw [maskChar_digit (by omega)]
    congr 1
    omega
  have below : num.toNat < (2 ^ 3) ^ (10 + 1) := by omega
  have placed : (lowDigits (2 ^ 3) 10 num.toNat ++ [addChar '0' (shifted &&& 7).toNat]).modify 10
      (fun ch => maskChar ch '3') = lowDigits (2 ^ 3) (10 + 1) num.toNat := by
    rw [lowDigits_top below, ← masked, List.modify_eq_take_cons_drop (by simp)]
    simp
  rw [placed]
  exact strip_lowDigits (by decide) (by decide) below

/-! ## Decimal digits -/

theorem temp_decimal (turns : Nat) {num : BitVec 32} (sign : num.msb = false) :
    temp (fun num => addChar '0' (num.srem 10).toNat) (fun num => num.sdiv 10) turns num =
      lowDigits 10 turns num.toNat := by
  induction turns generalizing num with
  | zero => rfl
  | succ turns ih =>
      have ten : (10 : BitVec 32).msb = false := rfl
      have remainder : (num.srem 10).toNat = num.toNat % 10 := by
        rw [BitVec.srem_eq, sign, ten]
        rfl
      have quotient : (num.sdiv 10).toNat = num.toNat / 10 := by
        rw [BitVec.sdiv_eq, sign, ten]
        rfl
      have positive : (num.sdiv 10).msb = false := by
        rw [BitVec.msb_eq_false_iff_two_mul_lt] at sign ⊢
        omega
      rw [temp, lowDigits, remainder, addChar_zero (by omega), ih positive, quotient]

theorem prtl10_eq {num : BitVec 32} (sign : num.msb = false) :
    prtl10 num = Nat.toDigits 10 num.toNat := by
  have bound := num.isLt
  rw [prtl10, temp_decimal 10 sign]
  exact strip_lowDigits (by decide) (by decide) (by omega)

/-- What the loop takes away comes back in whole units of the tenth digit. -/
theorem positive_cases (num : BitVec 32) (digit1 : Nat) :
    ∃ units, (positive num digit1).2 = digit1 + units ∧ (positive num digit1).1.msb = false ∧
      num.toNat = (positive num digit1).1.toNat + units * 10 ^ 9 ∧
      (units = 0 ∨ 10 ^ 9 ≤ (positive num digit1).1.toNat) := by
  induction num, digit1 using positive.induct with
  | case1 num digit1 negative ih =>
      obtain ⟨units, counted, sign, value, large⟩ := ih
      have above := BitVec.msb_eq_true_iff_two_mul_ge.mp negative
      have less : (num - 1000000000#32).toNat = num.toNat - 10 ^ 9 := by
        rw [BitVec.toNat_sub_of_le]
        · rfl
        · rw [BitVec.le_def, BitVec.toNat_ofNat]
          omega
      rw [positive, if_pos negative]
      refine ⟨units + 1, by omega, sign, by omega, Or.inr ?_⟩
      rcases large with rfl | large
      · omega
      · exact large
  | case2 num digit1 sign =>
      have positiveNum : num.msb = false := by simpa using sign
      rw [positive, if_neg sign]
      exact ⟨0, rfl, positiveNum, by simp, Or.inl rfl⟩

theorem unsigned_eq (num : BitVec 32) : unsigned num = Nat.toDigits 10 num.toNat := by
  have bound := num.isLt
  obtain ⟨units, counted, sign, value, large⟩ := positive_cases num 0
  have text : unsigned num =
      (prtl10 (positive num 0).1).modifyHead fun ch => addChar ch (positive num 0).2 := rfl
  have below := BitVec.msb_eq_false_iff_two_mul_lt.mp sign
  rw [text, counted, prtl10_eq sign, value]
  generalize (positive num 0).1.toNat = rest at *
  rcases large with rfl | large
  · have same : (fun ch => addChar ch (0 + 0)) = id := by
      funext ch
      exact Char.ofNat_toNat ch
    rw [same, List.modifyHead_id]
    simp
  · have within : rest + units * 10 ^ 9 < 10 ^ (9 + 1) := by omega
    obtain ⟨low, first, whole⟩ := toDigits_add_top (by decide) large within
    rw [first, whole, List.modifyHead_cons, Nat.zero_add, addChar_digit (by omega)]

end MvsXinu.Doprnt
