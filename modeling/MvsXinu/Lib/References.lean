import Mathlib.Data.BitVec
import Mathlib.Data.List.Nodup
import Mathlib.Logic.Function.Basic

/-!
# Counted references to the buffers of a pool

Each buffer has a count in a word of 32 bits. A buffer comes out of the pool with one
reference, and goes back when a release finds no other one left. What the count is to be is a
number of references for each buffer, which the operations change by one.
-/

namespace MvsXinu.References

set_option autoImplicit false

variable {Address : Type*} [DecidableEq Address]

structure Counts (Address : Type*) where
  count : Address → BitVec 32
  pool : List Address

/-- The first buffer of the pool, with the reference of its caller. -/
def Counts.take (counts : Counts Address) (address : Address) (rest : List Address) :
    Counts Address where
  count := Function.update counts.count address 1
  pool := rest

def Counts.share (counts : Counts Address) (address : Address) : Counts Address :=
  { counts with count := Function.update counts.count address (counts.count address + 1) }

def Counts.release (counts : Counts Address) (address : Address) : Counts Address :=
  let left := counts.count address - 1
  { count := Function.update counts.count address left
    pool := if left.sle 0 then address :: counts.pool else counts.pool }

/-- The counts are the numbers of references, and the pool holds once each buffer to which
there is none. -/
structure Tallied (counts : Counts Address) (buffers : Address → Prop) (tally : Address → Nat) :
    Prop where
  counted : ∀ address, 0 < tally address → (counts.count address).toInt = tally address
  inUse : ∀ address, 0 < tally address → counts.pool.count address = 0
  pooled : ∀ address, buffers address → tally address = 0 → counts.pool.count address = 1
  known : ∀ address, 0 < tally address → buffers address
  ofPool : ∀ address ∈ counts.pool, buffers address

variable {counts : Counts Address} {buffers : Address → Prop} {tally : Address → Nat}
  {address : Address}

theorem Tallied.of_eq {other : Address → Nat} (tallied : Tallied counts buffers tally)
    (same : ∀ address, other address = tally address) : Tallied counts buffers other := by
  have equal : other = tally := funext same
  rw [equal]
  exact tallied

theorem Tallied.take {rest : List Address} (tallied : Tallied counts buffers tally)
    (shape : counts.pool = address :: rest) :
    Tallied (counts.take address rest) buffers (Function.update tally address 1) := by
  have isBuffer := tallied.ofPool address (by rw [shape]; exact List.mem_cons_self)
  have unused : tally address = 0 := by
    by_contra used
    have none := tallied.inUse address (Nat.pos_of_ne_zero used)
    rw [shape, List.count_cons_self] at none
    omega
  have once := tallied.pooled address isBuffer unused
  rw [shape, List.count_cons_self] at once
  have others : ∀ other, other ≠ address → rest.count other = counts.pool.count other := by
    intro other away
    rw [shape, List.count_cons_of_ne (Ne.symm away)]
  constructor
  · intro other used
    by_cases same : other = address
    · rw [same]
      simp [Counts.take]
    · simp only [Counts.take, Function.update_of_ne same] at used ⊢
      exact tallied.counted other used
  · intro other used
    by_cases same : other = address
    · rw [same]
      simp only [Counts.take]
      omega
    · rw [Function.update_of_ne same] at used
      simp only [Counts.take, others other same]
      exact tallied.inUse other used
  · intro other isOther none
    have away : other ≠ address := by
      rintro rfl
      rw [Function.update_self] at none
      omega
    rw [Function.update_of_ne away] at none
    simp only [Counts.take, others other away]
    exact tallied.pooled other isOther none
  · intro other used
    by_cases same : other = address
    · rw [same]
      exact isBuffer
    · rw [Function.update_of_ne same] at used
      exact tallied.known other used
  · intro other member
    apply tallied.ofPool
    rw [shape]
    exact List.mem_cons_of_mem _ member

/-- A count at the end of its range would wrap. -/
theorem Tallied.share (tallied : Tallied counts buffers tally) (used : 0 < tally address)
    (room : tally address < 2147483647) :
    Tallied (counts.share address) buffers
      (Function.update tally address (tally address + 1)) := by
  have value := tallied.counted address used
  have pos : ∀ other, 0 < Function.update tally address (tally address + 1) other →
      0 < tally other := by
    intro other usedOther
    by_cases same : other = address
    · rw [same]
      exact used
    · rw [Function.update_of_ne same] at usedOther
      exact usedOther
  constructor
  · intro other usedOther
    by_cases same : other = address
    · rw [same]
      have one : (1 : BitVec 32).toInt = 1 := by decide
      simp only [Counts.share, Function.update_self]
      rw [BitVec.toInt_add, value, one]
      push_cast
      apply Int.bmod_eq_of_le <;> omega
    · simp only [Counts.share, Function.update_of_ne same] at usedOther ⊢
      exact tallied.counted other usedOther
  · intro other usedOther
    exact tallied.inUse other (pos other usedOther)
  · intro other isOther none
    have away : other ≠ address := by
      rintro rfl
      rw [Function.update_self] at none
      omega
    rw [Function.update_of_ne away] at none
    exact tallied.pooled other isOther none
  · intro other usedOther
    exact tallied.known other (pos other usedOther)
  · exact tallied.ofPool

theorem release_last_iff (tallied : Tallied counts buffers tally) (used : 0 < tally address) :
    (counts.count address - 1).toInt = tally address - 1 ∧
      ((counts.count address - 1).sle 0 = true ↔ tally address = 1) := by
  have value := tallied.counted address used
  have bound := (counts.count address).toInt_lt
  have one : (1 : BitVec 32).toInt = 1 := by decide
  have left : (counts.count address - 1).toInt = tally address - 1 := by
    rw [BitVec.toInt_sub, value, one]
    apply Int.bmod_eq_of_le <;> omega
  refine ⟨left, ?_⟩
  rw [BitVec.sle_eq_decide, left, decide_eq_true_iff]
  have zero : (0 : BitVec 32).toInt = 0 := by decide
  rw [zero]
  omega

theorem Tallied.release (tallied : Tallied counts buffers tally) (used : 0 < tally address) :
    Tallied (counts.release address) buffers
      (Function.update tally address (tally address - 1)) := by
  obtain ⟨left, last⟩ := release_last_iff tallied used
  have outside := tallied.inUse address used
  have pool : ∀ other, other ≠ address →
      (counts.release address).pool.count other = counts.pool.count other := by
    intro other away
    unfold Counts.release
    dsimp only
    split
    · exact List.count_cons_of_ne (Ne.symm away)
    · rfl
  constructor
  · intro other usedOther
    by_cases same : other = address
    · rw [same] at usedOther ⊢
      rw [Function.update_self] at usedOther ⊢
      simp only [Counts.release, Function.update_self, left]
      omega
    · simp only [Counts.release, Function.update_of_ne same] at usedOther ⊢
      exact tallied.counted other usedOther
  · intro other usedOther
    by_cases same : other = address
    · rw [same] at usedOther ⊢
      rw [Function.update_self] at usedOther
      have notLast : ¬ (counts.count address - 1).sle 0 = true := by
        rw [last]
        omega
      simp only [Counts.release, if_neg notLast, outside]
    · rw [Function.update_of_ne same] at usedOther
      rw [pool other same]
      exact tallied.inUse other usedOther
  · intro other isOther none
    by_cases same : other = address
    · rw [same] at none ⊢
      rw [Function.update_self] at none
      have isLast : (counts.count address - 1).sle 0 = true := by
        rw [last]
        omega
      simp only [Counts.release, if_pos isLast, List.count_cons_self, outside]
    · rw [Function.update_of_ne same] at none
      rw [pool other same]
      exact tallied.pooled other isOther none
  · intro other usedOther
    by_cases same : other = address
    · rw [same]
      exact tallied.known address used
    · rw [Function.update_of_ne same] at usedOther
      exact tallied.known other usedOther
  · intro other member
    unfold Counts.release at member
    dsimp only at member
    split at member
    · rcases List.mem_cons.mp member with rfl | inPool
      · exact tallied.known _ used
      · exact tallied.ofPool other inPool
    · exact tallied.ofPool other member

end MvsXinu.References
