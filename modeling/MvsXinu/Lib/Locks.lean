import MvsXinu.Lib.Mutex

/-!
# Locks made of counting semaphores

A semaphore as the kernel counts it, with a record of the party that has got through. It is
`Lawful` for parties that are at the lock or not if it behaves as a mutex would: its count is
one when nobody has it, and the parties at it are the one that has it and those that wait.
-/

namespace MvsXinu.Locks

open MvsXinu.Mutex

set_option autoImplicit false

structure Lock (Party : Type*) where
  count : Int
  mutex : Mutex Party
  deriving DecidableEq

variable {Party : Type*} {lock : Lock Party} {party : Party}
  {present present' holds holds' : Party → Prop}

def Lock.wait (lock : Lock Party) (party : Party) : Lock Party where
  count := lock.count - 1
  mutex :=
    if lock.count - 1 < 0 then { lock.mutex with waiting := lock.mutex.waiting ++ [party] }
    else { lock.mutex with owner := some party }

def Lock.signal (lock : Lock Party) : Lock Party where
  count := lock.count + 1
  mutex := if lock.count < 0 then lock.mutex.signal else { lock.mutex with owner := none }

/-- Created with a count of zero: the creator has it. -/
def Lock.created (party : Party) : Lock Party := { count := 0, mutex := ⟨some party, []⟩ }

def Lock.deleted : Lock Party := { count := 0, mutex := unowned }

structure Lawful (lock : Lock Party) (present holds : Party → Prop) : Prop where
  orderly : lock.mutex.Orderly
  count : lock.count = if lock.mutex.owner.isSome then -(lock.mutex.waiting.length : Int) else 1
  involved : ∀ party, lock.mutex.Involves party ↔ present party
  holder : ∀ party, holds party → lock.mutex.owner = some party

theorem Lawful.congr (lawful : Lawful lock present holds)
    (same : ∀ party, present' party ↔ present party)
    (holder : ∀ party, holds' party → lock.mutex.owner = some party) :
    Lawful lock present' holds' :=
  ⟨lawful.orderly, lawful.count, fun party => (lawful.involved party).trans (same party).symm,
    holder⟩

theorem Lawful.wait_mutex (lawful : Lawful lock present holds) (party : Party) :
    (lock.wait party).mutex = lock.mutex.wait party := by
  have count := lawful.count
  unfold Lock.wait Mutex.wait
  dsimp only
  cases owner : lock.mutex.owner with
  | none =>
      rw [owner] at count
      rw [if_neg (by simp at count; omega)]
  | some other =>
      rw [owner] at count
      rw [if_pos (by simp at count; omega)]

theorem Lawful.signal_mutex (lawful : Lawful lock present holds)
    (owner : lock.mutex.owner = some party) : lock.signal.mutex = lock.mutex.signal := by
  have count := lawful.count
  rw [owner] at count
  simp only [Option.isSome_some, if_true] at count
  unfold Lock.signal Mutex.signal
  dsimp only
  cases waiting : lock.mutex.waiting with
  | nil =>
      rw [waiting] at count
      rw [if_neg (by simp at count; omega)]
      rfl
  | cons first rest =>
      rw [waiting] at count
      rw [if_pos (by simp at count; omega)]

theorem Lawful.wait (lawful : Lawful lock present holds) (absent : ¬ present party)
    (joined : ∀ other, present' other ↔ present other ∨ other = party)
    (holder : ∀ other, holds' other → holds other) : Lawful (lock.wait party) present' holds' := by
  have outside : ¬ lock.mutex.Involves party := fun inside => absent ((lawful.involved _).mp inside)
  have mutex := lawful.wait_mutex party
  refine ⟨?_, ?_, ?_, ?_⟩
  · rw [mutex]
    exact wait_orderly lawful.orderly outside
  · have count := lawful.count
    rw [mutex]
    change lock.count - 1 = _
    unfold Mutex.wait
    cases owner : lock.mutex.owner with
    | none =>
        have nobody := lawful.orderly.2 owner
        rw [owner] at count
        simp only [Option.isSome_none] at count
        simp [nobody, count]
    | some other =>
        rw [owner] at count
        simp only [Option.isSome_some, if_true] at count
        simp only [Option.isSome_some, if_true, List.length_append, List.length_singleton]
        omega
  · intro other
    rw [mutex, wait_involves lawful.orderly, lawful.involved, joined]
  · intro other itHolds
    have owner := lawful.holder other (holder other itHolds)
    rw [mutex]
    unfold Mutex.wait
    rw [owner]

theorem Lawful.signal (lawful : Lawful lock present holds)
    (owner : lock.mutex.owner = some party)
    (left : ∀ other, present' other ↔ present other ∧ other ≠ party)
    (holder : ∀ other, holds' other → holds other ∧ other ≠ party) :
    Lawful lock.signal present' holds' := by
  have mutex := lawful.signal_mutex owner
  refine ⟨?_, ?_, ?_, ?_⟩
  · rw [mutex]
    exact signal_orderly lawful.orderly
  · have count := lawful.count
    rw [owner] at count
    simp only [Option.isSome_some, if_true] at count
    rw [mutex]
    change lock.count + 1 = _
    unfold Mutex.signal
    cases waiting : lock.mutex.waiting with
    | nil =>
        rw [waiting] at count
        simp [count]
    | cons first rest =>
        rw [waiting] at count
        simp only [List.length_cons, List.head?_cons, Option.isSome_some, if_true,
          List.tail_cons] at count ⊢
        omega
  · intro other
    rw [mutex, signal_involves lawful.orderly owner, lawful.involved, left]
  · intro other itHolds
    obtain ⟨before, away⟩ := holder other itHolds
    have isOwner := lawful.holder other before
    rw [owner] at isOwner
    exact absurd (Option.some.inj isOwner).symm away

theorem created_lawful (alone : ∀ other, present other ↔ other = party)
    (holder : ∀ other, holds other → other = party) :
    Lawful (Lock.created party) present holds := by
  refine ⟨⟨List.nodup_singleton party, fun free => by cases free⟩, rfl, ?_, ?_⟩
  · intro other
    rw [involves_iff, alone]
    exact List.mem_singleton
  · intro other itHolds
    rw [holder other itHolds]
    rfl

/-- Who is at the lock and does not wait has it. -/
theorem Lawful.owner (lawful : Lawful lock present holds) (isPresent : present party)
    (unblocked : party ∉ lock.mutex.waiting) : lock.mutex.owner = some party :=
  ((lawful.involved party).mpr isPresent).resolve_right unblocked

end MvsXinu.Locks
