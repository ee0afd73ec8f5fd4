import Mathlib.Data.BitVec
import Mathlib.Data.List.Basic

/-!
# The checksum of the internet protocols

Octets are added up as halfwords, an odd one as if a zero followed it, in a word of 32 bits;
the carries are added in and the sum is complemented. Up to the carries the arithmetic is that
of the integers modulo 65535.
-/

namespace MvsXinu.Checksum

set_option autoImplicit false

def sum16 : List (BitVec 8) → Nat
  | [] => 0
  | [last] => last.toNat * 256
  | high :: low :: rest => high.toNat * 256 + low.toNat + sum16 rest

def foldCarries (sum : Nat) : Nat :=
  let once := sum / 65536 + sum % 65536
  (once + once / 65536) % 65536

def cksum (sum : Nat) : Nat := 65535 - foldCarries (sum % 2 ^ 32)

theorem sum16_append (front back : List (BitVec 8)) (even : front.length % 2 = 0) :
    sum16 (front ++ back) = sum16 front + sum16 back := by
  induction front using sum16.induct with
  | case1 => simp [sum16]
  | case2 last => simp at even
  | case3 high low rest ih =>
      have evenRest : rest.length % 2 = 0 := by
        simp only [List.length_cons] at even
        omega
      simp only [List.cons_append, sum16, ih evenRest]
      omega

theorem sum16_le (octets : List (BitVec 8)) :
    sum16 octets ≤ 65535 * ((octets.length + 1) / 2) := by
  induction octets using sum16.induct with
  | case1 => simp [sum16]
  | case2 last =>
      have bound := last.isLt
      simp only [sum16, List.length_singleton]
      omega
  | case3 high low rest ih =>
      have boundHigh := high.isLt
      have boundLow := low.isLt
      simp only [sum16, List.length_cons]
      omega

theorem foldCarries_spec {sum : Nat} (some : 0 < sum) (bound : sum < 2 ^ 32) :
    0 < foldCarries sum ∧ foldCarries sum ≤ 65535 ∧ foldCarries sum % 65535 = sum % 65535 := by
  unfold foldCarries
  dsimp only
  have high : sum / 65536 < 65536 := by omega
  have once : (sum / 65536 + sum % 65536) % 65535 = sum % 65535 := by omega
  generalize isOnce : sum / 65536 + sum % 65536 = total at once
  have positive : 0 < total := by omega
  have small : total ≤ 131070 := by omega
  rw [← once]
  by_cases carry : total < 65536
  · have none : total / 65536 = 0 := by omega
    rw [none]
    omega
  · have one : total / 65536 = 1 := by omega
    rw [one]
    omega

theorem cksum_spec {sum : Nat} (some : 0 < sum) (bound : sum < 2 ^ 32) :
    cksum sum ≤ 65534 ∧ (cksum sum + sum) % 65535 = 0 := by
  obtain ⟨positive, small, same⟩ := foldCarries_spec some bound
  unfold cksum
  rw [Nat.mod_eq_of_lt bound]
  omega

theorem cksum_eq_zero_iff {sum : Nat} (some : 0 < sum) (bound : sum < 2 ^ 32) :
    cksum sum = 0 ↔ sum % 65535 = 0 := by
  obtain ⟨positive, small, same⟩ := foldCarries_spec some bound
  unfold cksum
  rw [Nat.mod_eq_of_lt bound]
  omega

/-- A checksum that was taken with `part` in the sum verifies without it exactly if `part`
counts for nothing. -/
theorem verifies_without_iff {rest part field : Nat} (some : 0 < rest)
    (bound : rest + part + 65535 < 2 ^ 32) (small : field ≤ 65535)
    (isField : field % 65535 = cksum (rest + part) % 65535) :
    cksum (rest + field) = 0 ↔ part % 65535 = 0 := by
  obtain ⟨_, balance⟩ := cksum_spec (by omega : 0 < rest + part) (by omega)
  rw [cksum_eq_zero_iff (by omega) (by omega)]
  omega

end MvsXinu.Checksum
