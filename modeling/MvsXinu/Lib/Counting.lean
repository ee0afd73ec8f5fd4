import Mathlib.Data.List.Nodup

/-!
# Counting semaphores

A count and the parties that wait, in the order of their calls: as many as the count is below
zero.
-/

namespace MvsXinu.Counting

set_option autoImplicit false

structure Counting (Party : Type*) where
  count : Int
  waiting : List Party
  deriving DecidableEq

variable {Party : Type*} {sem : Counting Party} {party other : Party}

def Counting.Blocks (sem : Counting Party) : Prop := sem.count - 1 < 0

instance (sem : Counting Party) : Decidable sem.Blocks := inferInstanceAs (Decidable (_ < _))

def Counting.wait (sem : Counting Party) (party : Party) : Counting Party where
  count := sem.count - 1
  waiting := if sem.Blocks then sem.waiting ++ [party] else sem.waiting

def Counting.signal (sem : Counting Party) : Counting Party where
  count := sem.count + 1
  waiting := if sem.count < 0 then sem.waiting.tail else sem.waiting

def Counting.Even (sem : Counting Party) : Prop := (sem.waiting.length : Int) = max (-sem.count) 0

theorem wait_even (even : sem.Even) (party : Party) : (sem.wait party).Even := by
  unfold Counting.Even Counting.wait at *
  by_cases blocks : sem.Blocks
  · rw [if_pos blocks]
    dsimp only
    rw [List.length_append, List.length_singleton]
    unfold Counting.Blocks at blocks
    omega
  · rw [if_neg blocks]
    dsimp only
    unfold Counting.Blocks at blocks
    omega

theorem signal_even (even : sem.Even) : sem.signal.Even := by
  unfold Counting.Even Counting.signal at *
  split
  · dsimp only
    rw [List.length_tail]
    omega
  · dsimp only
    omega

/-- Nobody waits on a semaphore that is not below zero. -/
theorem waiting_nil (even : sem.Even) (nonneg : 0 ≤ sem.count) : sem.waiting = [] := by
  unfold Counting.Even at even
  apply List.length_eq_zero_iff.mp
  omega

theorem mem_wait : other ∈ (sem.wait party).waiting ↔
    other ∈ sem.waiting ∨ (sem.Blocks ∧ other = party) := by
  unfold Counting.wait
  split
  · rename_i blocks
    rw [List.mem_append, List.mem_singleton]
    simp [blocks]
  · rename_i passes
    simp [passes]

theorem mem_of_mem_signal (member : other ∈ sem.signal.waiting) : other ∈ sem.waiting := by
  unfold Counting.signal at member
  split at member
  · exact List.mem_of_mem_tail member
  · exact member

/-- The party at the head of the queue is the one that a signal releases. -/
theorem signal_releases (even : sem.Even) (nodup : sem.waiting.Nodup)
    (first : sem.waiting.head? = some party) : party ∉ sem.signal.waiting := by
  unfold Counting.Even at even
  unfold Counting.signal
  cases found : sem.waiting with
  | nil =>
      rw [found] at first
      cases first
  | cons head rest =>
      rw [found] at first nodup even
      have negative : sem.count < 0 := by
        rw [List.length_cons] at even
        omega
      have same : head = party := Option.some.inj first
      rw [if_pos negative, ← same]
      exact (List.nodup_cons.mp nodup).1

/-- A signal to a semaphore without a token leaves one there or releases a party. -/
theorem signal_serves (even : sem.Even) (nodup : sem.waiting.Nodup) (low : sem.count ≤ 0) :
    0 < sem.signal.count ∨ ∃ party ∈ sem.waiting, party ∉ sem.signal.waiting := by
  cases found : sem.waiting with
  | nil =>
      left
      unfold Counting.Even at even
      rw [found, List.length_nil] at even
      change 0 < sem.count + 1
      omega
  | cons head rest =>
      right
      refine ⟨head, List.mem_cons_self, ?_⟩
      apply signal_releases even nodup
      rw [found]
      rfl

theorem wait_nodup (nodup : sem.waiting.Nodup) (absent : party ∉ sem.waiting) :
    (sem.wait party).waiting.Nodup := by
  unfold Counting.wait
  split
  · apply List.nodup_append.mpr
    refine ⟨nodup, List.nodup_singleton _, ?_⟩
    intro first member second isLast same
    rw [List.mem_singleton.mp isLast] at same
    exact absent (same ▸ member)
  · exact nodup

theorem signal_nodup (nodup : sem.waiting.Nodup) : sem.signal.waiting.Nodup := by
  unfold Counting.signal
  split
  · exact nodup.sublist (List.tail_sublist _)
  · exact nodup

end MvsXinu.Counting
