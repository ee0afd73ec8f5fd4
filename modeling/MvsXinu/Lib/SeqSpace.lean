import Mathlib.Data.BitVec
import Mathlib.Tactic.Ring

/-!
# Sequence numbers modulo `2 ^ 32`

A sequence number is a 32-bit word, two of them are compared through the sign of
their wrapped difference. `seqAt base z` names the word that lies `z` places after
`base`; on offsets that are less than `2 ^ 31` apart the wrapped difference is the
difference of the offsets, so ordering arguments are done on integers.
-/

namespace MvsXinu.SeqSpace

set_option autoImplicit false

abbrev Word := BitVec 32

/-- Sign and size of the wrapped difference. -/
def signedDist (left right : Word) : Int := (left - right).toInt

def seqAt (base : Word) (offset : Int) : Word := base + BitVec.ofInt 32 offset

theorem to_int_of_range (z : Int) (low : -2 ^ 31 ≤ z) (high : z < 2 ^ 31) :
    (BitVec.ofInt 32 z).toInt = z := by
  rw [BitVec.toInt_ofInt]
  exact Int.bmod_eq_of_le (by omega) (by omega)

theorem to_int_bounds (word : Word) : -2 ^ 31 ≤ word.toInt ∧ word.toInt < 2 ^ 31 := by
  rw [BitVec.toInt_eq_toNat_cond]
  have bound := word.isLt
  split <;> omega

theorem to_int_of_small (word : Word) (small : word.toNat < 2 ^ 31) :
    word.toInt = word.toNat := by
  rw [BitVec.toInt_eq_toNat_cond, if_pos (by omega)]

theorem of_int_to_int (word : Word) : BitVec.ofInt 32 word.toInt = word :=
  BitVec.ofInt_toInt

@[simp] theorem seq_at_zero (base : Word) : seqAt base 0 = base := by
  simp [seqAt]

theorem seq_at_add (base : Word) (offset step : Int) :
    seqAt base offset + BitVec.ofInt 32 step = seqAt base (offset + step) := by
  rw [seqAt, seqAt, BitVec.ofInt_add, BitVec.add_assoc]

theorem seq_at_add_nat (base : Word) (offset : Int) (step : Nat) :
    seqAt base offset + BitVec.ofNat 32 step = seqAt base (offset + step) := by
  rw [← seq_at_add, BitVec.ofInt_natCast]

theorem seq_at_add_word (base : Word) (offset : Int) (step : Word) :
    seqAt base offset + step = seqAt base (offset + step.toNat) := by
  rw [← seq_at_add_nat, BitVec.ofNat_toNat, BitVec.setWidth_eq]

theorem seq_at_sub (base : Word) (left right : Int) :
    seqAt base left - seqAt base right = BitVec.ofInt 32 (left - right) := by
  rw [seqAt, seqAt, Int.sub_eq_add_neg, BitVec.ofInt_add, BitVec.ofInt_neg]
  ring

theorem seq_at_sub_const (base : Word) (offset step : Int) :
    seqAt base offset - BitVec.ofInt 32 step = seqAt base (offset - step) := by
  rw [Int.sub_eq_add_neg, ← seq_at_add, BitVec.ofInt_neg, BitVec.sub_eq_add_neg]

/-- On offsets less than half the space apart the comparison is the one of integers. -/
theorem signed_dist_seq_at (base : Word) (left right : Int)
    (low : -2 ^ 31 ≤ left - right) (high : left - right < 2 ^ 31) :
    signedDist (seqAt base left) (seqAt base right) = left - right := by
  rw [signedDist, seq_at_sub, to_int_of_range _ low high]

theorem seq_at_injective (base : Word) (left right : Int)
    (low : -2 ^ 31 ≤ left - right) (high : left - right < 2 ^ 31)
    (same : seqAt base left = seqAt base right) : left = right := by
  have distance := signed_dist_seq_at base left right low high
  rw [same, signedDist, BitVec.sub_self, BitVec.toInt_zero] at distance
  omega

/-- Every word is some offset away from every base, by its signed distance. -/
theorem seq_at_signed_dist (base word : Word) : seqAt base (signedDist word base) = word := by
  rw [seqAt, signedDist, of_int_to_int]
  ring

theorem signed_dist_bounds (left right : Word) :
    -2 ^ 31 ≤ signedDist left right ∧ signedDist left right < 2 ^ 31 :=
  to_int_bounds _

@[simp] theorem signed_dist_self (word : Word) : signedDist word word = 0 := by
  simp [signedDist]

theorem signed_dist_eq_zero (left right : Word) :
    signedDist left right = 0 ↔ left = right := by
  constructor
  · intro zero
    have back := seq_at_signed_dist right left
    rw [zero, seq_at_zero] at back
    exact back.symm
  · rintro rfl
    exact signed_dist_self left

/-- The unsigned distance is the signed one, or wraps when that is negative. -/
theorem sub_to_nat_of_signed_dist (word base : Word) :
    ((word - base).toNat : Int) =
      if 0 ≤ signedDist word base then signedDist word base
      else signedDist word base + 2 ^ 32 := by
  have bound := (word - base).isLt
  rw [signedDist, BitVec.toInt_eq_toNat_cond]
  split <;> split <;> omega

/-- Two signed comparisons around the last number decide whether a number lies in a window
that is not empty and at most half the space long. -/
theorem signed_window_iff (base word : Word) (window : Nat) (nonempty : 0 < window)
    (half : window ≤ 2 ^ 31) :
    (0 ≤ signedDist word base ∧ signedDist word (seqAt base (window - 1)) ≤ 0) ↔
      (word - base).toNat < window := by
  have distance := sub_to_nat_of_signed_dist word base
  have bounds := signed_dist_bounds word base
  by_cases behind : 0 ≤ signedDist word base
  · have last : signedDist word (seqAt base (window - 1)) =
        signedDist word base - (window - 1) := by
      have exact := signed_dist_seq_at base (signedDist word base) (window - 1)
        (by omega) (by omega)
      rw [seq_at_signed_dist] at exact
      exact exact
    rw [if_pos behind] at distance
    rw [last]
    omega
  · rw [if_neg behind] at distance
    omega

/-- Around an empty window the two comparisons still meet at one number, half the space
away, where the second difference wraps. -/
theorem signed_empty_window_iff (base word : Word) :
    (0 ≤ signedDist word base ∧ signedDist word (seqAt base (-1)) ≤ 0) ↔
      word = seqAt base (2 ^ 31 - 1) := by
  have bounds := signed_dist_bounds word base
  constructor
  · intro meets
    rcases meets with ⟨behind, before⟩
    by_cases short : signedDist word base < 2 ^ 31 - 1
    · have next := signed_dist_seq_at base (signedDist word base) (-1) (by omega) (by omega)
      rw [seq_at_signed_dist] at next
      omega
    · have farthest : signedDist word base = 2 ^ 31 - 1 := by omega
      rw [← farthest, seq_at_signed_dist]
  · intro same
    have distance : signedDist word base = 2 ^ 31 - 1 := by
      have far := signed_dist_seq_at base (2 ^ 31 - 1) 0 (by omega) (by omega)
      rw [seq_at_zero, ← same] at far
      omega
    have wrapped : signedDist word (seqAt base (-1)) = -2 ^ 31 := by
      rw [same, signedDist, seq_at_sub]
      decide
    omega

theorem word_add_to_nat (left right : Word) (bounded : left.toNat + right.toNat < 2 ^ 32) :
    (left + right).toNat = left.toNat + right.toNat := by
  rw [BitVec.toNat_add, Nat.mod_eq_of_lt bounded]

theorem word_sub_to_nat (left right : Word) (ordered : right.toNat ≤ left.toNat) :
    (left - right).toNat = left.toNat - right.toNat := by
  have bound := left.isLt
  rw [BitVec.toNat_sub]
  omega

end MvsXinu.SeqSpace
