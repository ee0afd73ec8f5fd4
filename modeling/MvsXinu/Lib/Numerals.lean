import Mathlib.Algebra.Ring.Nat
import Mathlib.Data.List.TakeWhile

/-!
# Numerals from their low digits

A number is written by taking a fixed count of digits off its low end, and then leaving out the
zeros at the high end, all but one. With as many digits as the number can have, that is its
numeral. A first digit to which something is added belongs to a number that is larger by as many
units of the highest place.
-/

namespace MvsXinu.Numerals

set_option autoImplicit false

/-- So many digits, the lowest one first. -/
def lowDigits (base : Nat) : Nat → Nat → List Char
  | 0, _ => []
  | count + 1, number => (number % base).digitChar :: lowDigits base count (number / base)

/-- The digits from the highest one on that is not a zero, and the lowest one in any case. -/
def strip (low : List Char) : List Char :=
  match low.reverse.dropWhile fun ch => ch == '0' with
  | [] => low.take 1
  | high => high

variable {base : Nat}

@[simp] theorem lowDigits_length (count number : Nat) :
    (lowDigits base count number).length = count := by
  induction count generalizing number with
  | zero => rfl
  | succ count ih => rw [lowDigits, List.length_cons, ih]

theorem lowDigits_zero (count : Nat) : lowDigits base count 0 = List.replicate count '0' := by
  induction count with
  | zero => rfl
  | succ count ih =>
      rw [lowDigits, Nat.zero_mod, Nat.zero_div, ih, List.replicate_succ]
      rfl

/-- The digit above the others. -/
theorem lowDigits_succ (count number : Nat) :
    lowDigits base (count + 1) number =
      lowDigits base count number ++ [(number / base ^ count % base).digitChar] := by
  induction count generalizing number with
  | zero => simp [lowDigits]
  | succ count ih =>
      rw [lowDigits, ih, lowDigits, List.cons_append, Nat.div_div_eq_div_mul, Nat.pow_succ,
        Nat.mul_comm base]

/-- What is above the digits is not seen. -/
theorem lowDigits_add (positive : 0 < base) (count number above : Nat) :
    lowDigits base count (number + above * base ^ count) = lowDigits base count number := by
  induction count generalizing number with
  | zero => rfl
  | succ count ih =>
      have shift : above * base ^ (count + 1) = above * base ^ count * base := by
        rw [Nat.pow_succ, Nat.mul_assoc]
      rw [lowDigits, lowDigits, shift, Nat.add_mul_mod_self_right,
        Nat.add_mul_div_right _ _ positive, ih]

theorem lowDigits_above {count number : Nat} (small : number < base ^ count) (extra : Nat) :
    lowDigits base (count + extra) number =
      lowDigits base count number ++ List.replicate extra '0' := by
  induction count generalizing number with
  | zero =>
      obtain rfl : number = 0 := by
        rw [Nat.pow_zero] at small
        omega
      rw [Nat.zero_add, lowDigits_zero]
      rfl
  | succ count ih =>
      rw [Nat.pow_succ] at small
      rw [Nat.succ_add, lowDigits, lowDigits, ih (Nat.div_lt_of_lt_mul (by rwa [Nat.mul_comm])),
        List.cons_append]

theorem strip_zeros (low : List Char) (count : Nat) (nonempty : low ≠ []) :
    strip (low ++ List.replicate count '0') = strip low := by
  have zeros : ∀ ch ∈ List.replicate count '0', (ch == '0') = true := by
    intro ch member
    rw [List.eq_of_mem_replicate member]
    rfl
  have first : (low ++ List.replicate count '0').take 1 = low.take 1 :=
    List.take_append_of_le_length (List.length_pos_iff.mpr nonempty)
  rw [strip, List.reverse_append, List.reverse_replicate,
    List.dropWhile_append_of_pos zeros, first]
  rfl

theorem strip_of_last {ch : Char} (nonzero : ch ≠ '0') (low : List Char) :
    strip (low ++ [ch]) = ch :: low.reverse := by
  rw [strip, List.reverse_append, List.reverse_singleton, List.singleton_append,
    List.dropWhile_cons_of_neg (by simpa using nonzero)]

/-- A number's digits up to its highest one, which is not zero. -/
theorem toDigits_eq_reverse (large : 1 < base) {number : Nat} (positive : 0 < number) :
    ∃ count, base ^ count ≤ number ∧ number < base ^ (count + 1) ∧
      Nat.toDigits base number = (lowDigits base (count + 1) number).reverse := by
  induction number using Nat.strong_induction_on with
  | _ number ih =>
      rcases Nat.lt_or_ge number base with small | big
      · refine ⟨0, by rwa [Nat.pow_zero], by rwa [Nat.zero_add, Nat.pow_one], ?_⟩
        rw [Nat.toDigits_of_lt_base small, lowDigits, lowDigits, Nat.mod_eq_of_lt small]
        rfl
      · have quotient : 0 < number / base := Nat.div_pos big (by omega)
        obtain ⟨count, lower, upper, digits⟩ := ih (number / base)
          (Nat.div_lt_self positive large) quotient
        refine ⟨count + 1, ?_, ?_, ?_⟩
        · rw [Nat.pow_succ]
          exact (Nat.le_div_iff_mul_le (by omega)).mp lower
        · rw [Nat.pow_succ]
          exact (Nat.div_lt_iff_lt_mul (by omega)).mp upper
        · rw [Nat.toDigits_of_base_le large big, digits, ← List.reverse_cons]
          rfl

/-- The highest digit, and the other ones. -/
theorem lowDigits_top {top number : Nat} (upper : number < base ^ (top + 1)) :
    lowDigits base (top + 1) number =
      lowDigits base top number ++ [(number / base ^ top).digitChar] := by
  have leading : number / base ^ top < base := by
    rw [Nat.pow_succ] at upper
    exact Nat.div_lt_of_lt_mul upper
  rw [lowDigits_succ, Nat.mod_eq_of_lt leading]

theorem strip_top (large : 1 < base) {top number : Nat} (lower : base ^ top ≤ number)
    (upper : number < base ^ (top + 1)) :
    strip (lowDigits base (top + 1) number) =
      (number / base ^ top).digitChar :: (lowDigits base top number).reverse := by
  have nonzero : 0 < number / base ^ top := Nat.div_pos lower (Nat.pow_pos (by omega))
  rw [lowDigits_top upper]
  apply strip_of_last
  rw [Ne, Nat.digitChar_eq_zero]
  omega

/-- The digits that a number of so many digits can have, without the zeros in front. -/
theorem strip_lowDigits (large : 1 < base) {count number : Nat} (some : 0 < count)
    (small : number < base ^ count) :
    strip (lowDigits base count number) = Nat.toDigits base number := by
  rcases Nat.eq_zero_or_pos number with rfl | positive
  · obtain ⟨extra, rfl⟩ : ∃ extra, count = 1 + extra := ⟨count - 1, by omega⟩
    rw [lowDigits_above (by rw [Nat.pow_one]; omega), strip_zeros _ _ (by simp [lowDigits]),
      Nat.toDigits_zero, lowDigits, Nat.zero_mod]
    rfl
  · obtain ⟨top, lower, upper, digits⟩ := toDigits_eq_reverse large positive
    have within : top < count := (Nat.pow_lt_pow_iff_right large).mp (by omega)
    obtain ⟨extra, rfl⟩ : ∃ extra, count = top + 1 + extra := ⟨count - (top + 1), by omega⟩
    rw [lowDigits_above upper, strip_zeros _ _ (by simp [lowDigits]), digits,
      strip_top large lower upper, lowDigits_top upper, List.reverse_append]
    rfl

/-- The first digit of a number that is not zero is not a zero. -/
theorem toDigits_first (large : 1 < base) {number : Nat} (positive : 0 < number) :
    ∃ ch low, Nat.toDigits base number = ch :: low ∧ ch ≠ '0' := by
  obtain ⟨top, lower, upper, digits⟩ := toDigits_eq_reverse large positive
  have nonzero : 0 < number / base ^ top := Nat.div_pos lower (Nat.pow_pos (by omega))
  refine ⟨(number / base ^ top).digitChar, (lowDigits base top number).reverse, ?_, ?_⟩
  · rw [digits, lowDigits_top upper, List.reverse_append]
    rfl
  · rw [Ne, Nat.digitChar_eq_zero]
    omega

/-- Units of the highest place are added to the first digit. -/
theorem toDigits_add_top (large : 1 < base) {top number units : Nat}
    (lower : base ^ top ≤ number) (upper : number + units * base ^ top < base ^ (top + 1)) :
    ∃ low, Nat.toDigits base number = (number / base ^ top).digitChar :: low ∧
      Nat.toDigits base (number + units * base ^ top) =
        (number / base ^ top + units).digitChar :: low := by
  have place : 0 < base ^ top := Nat.pow_pos (by omega)
  have below : number < base ^ (top + 1) := by omega
  refine ⟨(lowDigits base top number).reverse, ?_, ?_⟩
  · rw [← strip_lowDigits large (Nat.succ_pos top) below, strip_top large lower below]
  · rw [← strip_lowDigits large (Nat.succ_pos top) upper,
      strip_top large (Nat.le_add_right_of_le lower) upper, Nat.add_mul_div_right _ _ place,
      lowDigits_add (by omega)]

end MvsXinu.Numerals
