import Mathlib.Data.List.Nodup

/-!
# A semaphore with a count of one

Who holds it and who waits for it, in the order of the calls. A `signal` hands it over to the
first that waits.
-/

namespace MvsXinu.Mutex

set_option autoImplicit false

structure Mutex (Party : Type*) where
  owner : Option Party
  waiting : List Party
  deriving DecidableEq

variable {Party : Type*} {mutex : Mutex Party} {party : Party}

def unowned : Mutex Party := ⟨none, []⟩

def Mutex.wait (mutex : Mutex Party) (party : Party) : Mutex Party :=
  match mutex.owner with
  | none => { mutex with owner := some party }
  | some _ => { mutex with waiting := mutex.waiting ++ [party] }

def Mutex.signal (mutex : Mutex Party) : Mutex Party where
  owner := mutex.waiting.head?
  waiting := mutex.waiting.tail

/-- The party holds the semaphore or waits for it. -/
def Mutex.Involves (mutex : Mutex Party) (party : Party) : Prop :=
  mutex.owner = some party ∨ party ∈ mutex.waiting

/-- No party has called twice. -/
def Mutex.Orderly (mutex : Mutex Party) : Prop :=
  (mutex.owner.toList ++ mutex.waiting).Nodup ∧ (mutex.owner = none → mutex.waiting = [])

theorem involves_iff : mutex.Involves party ↔ party ∈ mutex.owner.toList ++ mutex.waiting := by
  unfold Mutex.Involves
  rw [List.mem_append, Option.mem_toList]

theorem wait_lists (orderly : mutex.Orderly) (party : Party) :
    (mutex.wait party).owner.toList ++ (mutex.wait party).waiting =
      mutex.owner.toList ++ mutex.waiting ++ [party] := by
  unfold Mutex.wait
  split
  · rename_i free
    rw [orderly.2 free, free]
    rfl
  · rename_i owner held
    rw [held, List.append_assoc]

theorem signal_lists (mutex : Mutex Party) :
    mutex.signal.owner.toList ++ mutex.signal.waiting = mutex.waiting := by
  unfold Mutex.signal
  cases mutex.waiting <;> rfl

theorem wait_involves (orderly : mutex.Orderly) (party other : Party) :
    (mutex.wait party).Involves other ↔ mutex.Involves other ∨ other = party := by
  rw [involves_iff, wait_lists orderly, List.mem_append, involves_iff, List.mem_singleton]

theorem wait_orderly (orderly : mutex.Orderly) (absent : ¬ mutex.Involves party) :
    (mutex.wait party).Orderly := by
  constructor
  · rw [wait_lists orderly]
    apply List.nodup_append.mpr
    refine ⟨orderly.1, List.nodup_singleton _, ?_⟩
    intro first member second isLast same
    rw [List.mem_singleton.mp isLast] at same
    rw [same, ← involves_iff] at member
    exact absent member
  · unfold Mutex.wait
    split
    · intro free
      cases free
    · rename_i held
      intro free
      rw [held] at free
      cases free

theorem signal_orderly (orderly : mutex.Orderly) : mutex.signal.Orderly := by
  constructor
  · rw [signal_lists]
    exact (List.nodup_append.mp orderly.1).2.1
  · unfold Mutex.signal
    cases mutex.waiting with
    | nil => intro _; rfl
    | cons first rest => intro free; cases free

theorem signal_involves (orderly : mutex.Orderly) (held : mutex.owner = some party)
    (other : Party) :
    mutex.signal.Involves other ↔ mutex.Involves other ∧ other ≠ party := by
  have absent : party ∉ mutex.waiting := by
    intro member
    exact (List.nodup_append.mp orderly.1).2.2 party (by rw [held]; simp) party member rfl
  rw [involves_iff, signal_lists]
  unfold Mutex.Involves
  rw [held]
  constructor
  · intro member
    refine ⟨Or.inr member, ?_⟩
    intro same
    exact absent (same ▸ member)
  · rintro ⟨isOwner | member, away⟩
    · exact absurd (Option.some.inj isOwner).symm away
    · exact member

theorem unowned_orderly : (unowned : Mutex Party).Orderly := ⟨List.nodup_nil, fun _ => rfl⟩

theorem unowned_involves : ¬ (unowned : Mutex Party).Involves party := by
  rintro (owned | member)
  · cases owned
  · cases member

end MvsXinu.Mutex
