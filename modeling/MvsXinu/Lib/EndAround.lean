import Mathlib.Algebra.BigOperators.Group.List.Basic
import Mathlib.Tactic.Ring

/-!
# Sums with an end-around carry

Words of a base are added so that a carry that leaves at the top comes back in at the bottom.
Such a sum is a number taken modulo one less than the base, with two words for zero; the one
that is not `0` stands for every sum in which something other than zeros was added.
-/

namespace MvsXinu.EndAround

set_option autoImplicit false

def add (base first second : Nat) : Nat :=
  if first + second < base then first + second else first + second - base + 1

def total (base : Nat) (words : List Nat) : Nat := words.foldl (add base) 0

/-- The word that a number comes to when its carries are added in. -/
def reduce (base number : Nat) : Nat :=
  if number = 0 then 0 else (number - 1) % (base - 1) + 1

/-- The digits above the lowest one are added to it. -/
def fold (base number : Nat) : Nat := number / base + number % base

variable {base : Nat}

@[simp] theorem reduce_zero : reduce base 0 = 0 := rfl

theorem reduce_lt (digits : 2 ≤ base) (number : Nat) : reduce base number < base := by
  have remainder := Nat.mod_lt (number - 1) (by omega : 0 < base - 1)
  unfold reduce
  split_ifs <;> omega

theorem reduce_eq_zero {number : Nat} : reduce base number = 0 ↔ number = 0 := by
  unfold reduce
  split_ifs with zero
  · simp [zero]
  · simp [zero]

theorem reduce_of_lt {number : Nat} (word : number < base) : reduce base number = number := by
  unfold reduce
  split_ifs with zero
  · exact zero.symm
  · rw [Nat.mod_eq_of_lt (by omega)]
    omega

/-- A whole round of the modulus changes nothing that is not zero. -/
theorem reduce_round {number : Nat} (some : 0 < number) (rounds : Nat) :
    reduce base ((base - 1) * rounds + number) = reduce base number := by
  unfold reduce
  rw [if_neg (by omega), if_neg (by omega)]
  have shifted : (base - 1) * rounds + number - 1 = (base - 1) * rounds + (number - 1) := by omega
  rw [shifted, Nat.mul_add_mod]

theorem reduce_fold (digits : 2 ≤ base) (number : Nat) :
    reduce base (fold base number) = reduce base number := by
  by_cases zero : number = 0
  · simp [zero, fold]
  have whole := Nat.div_add_mod number base
  have some : 0 < fold base number := by
    apply Nat.pos_of_ne_zero
    intro none
    obtain ⟨noHigh, noLow⟩ := Nat.add_eq_zero_iff.mp none
    rw [noHigh, noLow, Nat.mul_zero] at whole
    exact zero whole.symm
  have parts : number = (base - 1) * (number / base) + fold base number := by
    have product : base * (number / base) = (base - 1) * (number / base) + number / base := by
      obtain ⟨less, rfl⟩ : ∃ less, base = less + 1 := ⟨base - 1, by omega⟩
      rw [Nat.add_sub_cancel]
      ring
    rw [fold]
    omega
  calc reduce base (fold base number)
      = reduce base ((base - 1) * (number / base) + fold base number) :=
        (reduce_round some _).symm
    _ = reduce base number := by rw [← parts]

/-- Two words of carries are added in by two foldings, the second of them without its carry. -/
theorem fold_twice (digits : 2 ≤ base) {number : Nat} (bound : number < base * base) :
    fold base number + fold base number / base < 2 * base ∧
      (fold base number + fold base number / base) % base = reduce base number := by
  have high : number / base < base := Nat.div_lt_of_lt_mul bound
  have low : number % base < base := Nat.mod_lt _ (by omega)
  have small : fold base number ≤ 2 * base - 2 := by
    rw [fold]
    omega
  rw [← reduce_fold digits number]
  by_cases word : fold base number < base
  · rw [Nat.div_eq_of_lt word, Nat.add_zero, Nat.mod_eq_of_lt word, reduce_of_lt word]
    omega
  · have carry : fold base number / base = 1 := by
      apply Nat.div_eq_of_lt_le
      · omega
      · omega
    have parts : fold base number = (base - 1) * 1 + (fold base number - base + 1) := by omega
    have folded : reduce base (fold base number) = fold base number - base + 1 := by
      rw [parts, reduce_round (by omega), reduce_of_lt (by omega)]
      omega
    rw [carry, folded, Nat.mod_eq_sub_mod (by omega), Nat.mod_eq_of_lt (by omega)]
    omega

theorem add_reduce (digits : 2 ≤ base) (number : Nat) {word : Nat} (small : word < base) :
    add base (reduce base number) word = reduce base (number + word) := by
  have reduced := reduce_lt digits number
  by_cases zero : number = 0
  · rw [zero, reduce_zero, Nat.zero_add, reduce_of_lt small, add, Nat.zero_add, if_pos small]
  -- the rounds that `number` holds beyond its word
  have whole := Nat.div_add_mod (number - 1) (base - 1)
  have value : reduce base number = (number - 1) % (base - 1) + 1 := by rw [reduce, if_neg zero]
  have parts : number + word =
      (base - 1) * ((number - 1) / (base - 1)) + (reduce base number + word) := by omega
  rw [parts, reduce_round (by omega), add]
  have twice : reduce base number + word < 2 * base - 1 := by omega
  generalize reduce base number + word = sum at twice ⊢
  split_ifs with fits
  · exact (reduce_of_lt fits).symm
  · have round : sum = (base - 1) * 1 + (sum - base + 1) := by omega
    calc sum - base + 1
        = reduce base (sum - base + 1) := (reduce_of_lt (by omega)).symm
      _ = reduce base ((base - 1) * 1 + (sum - base + 1)) := (reduce_round (by omega) 1).symm
      _ = reduce base sum := by rw [← round]

/-- The order of the additions does not matter, and neither does the time when the carries
are added in. -/
theorem total_eq_reduce (digits : 2 ≤ base) (words : List Nat)
    (small : ∀ word ∈ words, word < base) : total base words = reduce base words.sum := by
  have from_start : ∀ start, words.foldl (add base) (reduce base start) =
      reduce base (start + words.sum) := by
    induction words with
    | nil =>
        intro start
        simp
    | cons word rest ih =>
        intro start
        rw [List.foldl_cons, add_reduce digits start (small word (by simp)),
          ih (fun later member => small later (by simp [member])), List.sum_cons, Nat.add_assoc]
  have whole := from_start 0
  rw [reduce_zero, Nat.zero_add] at whole
  exact whole

/-- A sum that its own complement is added to comes to the zero of all ones. -/
theorem reduce_complement (digits : 2 ≤ base) (number : Nat) :
    reduce base (number + (base - 1 - reduce base number)) = base - 1 := by
  have reduced := reduce_lt digits number
  by_cases zero : number = 0
  · rw [zero, reduce_zero, Nat.zero_add, Nat.sub_zero, reduce_of_lt (by omega)]
  have whole := Nat.div_add_mod (number - 1) (base - 1)
  have value : reduce base number = (number - 1) % (base - 1) + 1 := by rw [reduce, if_neg zero]
  have parts : number + (base - 1 - reduce base number) =
      (base - 1) * ((number - 1) / (base - 1)) + (base - 1) := by omega
  rw [parts, reduce_round (by omega), reduce_of_lt (by omega)]

end MvsXinu.EndAround
