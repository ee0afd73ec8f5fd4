import Mathlib.Data.List.DropRight

/-!
# Generic priority queues (`gpq.c`)

A queue is the prefix of the `q_key`/`q_elt` arrays below `q_count`. `enq` scans from
the tail towards the head as long as the new key is greater, and inserts behind the
element at which the scan stops.
-/

namespace MvsXinu.Gpq

set_option autoImplicit false

variable {Elt : Type*}

structure Queue (Elt : Type*) where
  qMax : Nat
  items : List (Int × Elt)

def newq (size : Nat) : Queue Elt where
  qMax := size
  items := []

/-- `none` is the refusal of a full queue; otherwise the number of slots left. -/
def enq (queue : Queue Elt) (elt : Elt) (key : Int) : Option (Nat × Queue Elt) :=
  if queue.qMax ≤ queue.items.length then none
  else
    let lower := fun item : Int × Elt => decide (item.1 < key)
    some (queue.qMax - (queue.items.length + 1),
      { queue with
        items := queue.items.rdropWhile lower ++ (key, elt) :: queue.items.rtakeWhile lower })

def deq (queue : Queue Elt) : Option (Elt × Queue Elt) :=
  match queue.items with
  | [] => none
  | item :: rest => some (item.2, { queue with items := rest })

def elements (queue : Queue Elt) : List Elt := queue.items.map Prod.snd

theorem enq_items (queue after : Queue Elt) (elt : Elt) (key : Int) (left : Nat)
    (accepted : enq queue elt key = some (left, after)) (item : Int × Elt) :
    item ∈ after.items ↔ item = (key, elt) ∨ item ∈ queue.items := by
  unfold enq at accepted
  split at accepted
  · cases accepted
  · simp only [Option.some.injEq, Prod.mk.injEq] at accepted
    rw [← accepted.2]
    have parts := List.rdropWhile_append_rtakeWhile
      (p := fun item : Int × Elt => decide (item.1 < key)) (l := queue.items)
    conv_rhs => rw [← parts]
    simp only [List.mem_append, List.mem_cons]
    tauto

theorem enq_elements (queue after : Queue Elt) (elt : Elt) (key : Int) (left : Nat)
    (accepted : enq queue elt key = some (left, after)) (other : Elt) :
    other ∈ elements after ↔ other = elt ∨ other ∈ elements queue := by
  have items := enq_items queue after elt key left accepted
  simp only [elements, List.mem_map, items]
  constructor
  · rintro ⟨item, new | old, rfl⟩
    · exact Or.inl (by rw [new])
    · exact Or.inr ⟨item, old, rfl⟩
  · rintro (rfl | ⟨item, old, rfl⟩)
    · exact ⟨(key, other), Or.inl rfl, rfl⟩
    · exact ⟨item, Or.inr old, rfl⟩

theorem enq_perm {queue after : Queue Elt} {elt : Elt} {key : Int} {left : Nat}
    (accepted : enq queue elt key = some (left, after)) :
    (elements after).Perm (elt :: elements queue) := by
  unfold enq at accepted
  split at accepted
  · cases accepted
  · simp only [Option.some.injEq, Prod.mk.injEq] at accepted
    rw [← accepted.2]
    have parts := List.rdropWhile_append_rtakeWhile
      (p := fun item : Int × Elt => decide (item.1 < key)) (l := queue.items)
    unfold elements
    rw [← List.map_cons (f := Prod.snd) (a := (key, elt))]
    apply List.Perm.map
    conv_rhs => rw [← parts]
    exact List.perm_middle

theorem enq_accepts (queue : Queue Elt) (elt : Elt) (key : Int)
    (room : queue.items.length < queue.qMax) :
    ∃ left after, enq queue elt key = some (left, after) ∧ after.qMax = queue.qMax ∧
      after.items.length = queue.items.length + 1 := by
  unfold enq
  rw [if_neg (Nat.not_le.mpr room)]
  refine ⟨_, _, rfl, rfl, ?_⟩
  have parts := congrArg List.length (List.rdropWhile_append_rtakeWhile
    (p := fun item : Int × Elt => decide (item.1 < key)) (l := queue.items))
  rw [List.length_append] at parts
  simp only [List.length_append, List.length_cons]
  omega

/-- The keys do not rise from the head to the tail. -/
def Sorted (queue : Queue Elt) : Prop :=
  queue.items.Pairwise fun first second => second.1 ≤ first.1

/-- The scan stops behind the last element that is not lower, and none in front of it is. -/
theorem kept_higher {items : List (Int × Elt)}
    (sorted : items.Pairwise fun first second => second.1 ≤ first.1) (key : Int) :
    ∀ item ∈ items.rdropWhile (fun item => decide (item.1 < key)), key ≤ item.1 := by
  set lower := fun item : Int × Elt => decide (item.1 < key) with lowerEq
  intro item member
  have nonempty : items.rdropWhile lower ≠ [] := List.ne_nil_of_mem member
  have stopped := List.rdropWhile_last_not lower items nonempty
  have front := sorted.sublist (List.rdropWhile_prefix lower items).sublist
  rw [← List.dropLast_append_getLast nonempty] at member front
  have lastHigher : key ≤ ((items.rdropWhile lower).getLast nonempty).1 := by
    simpa [lowerEq] using stopped
  rcases List.mem_append.mp member with earlier | same
  · exact Int.le_trans lastHigher
      ((List.pairwise_append.mp front).2.2 item earlier _ (List.mem_singleton_self _))
  · rw [List.mem_singleton.mp same]
    exact lastHigher

theorem enq_sorted (queue after : Queue Elt) (elt : Elt) (key : Int) (left : Nat)
    (sorted : Sorted queue) (accepted : enq queue elt key = some (left, after)) :
    Sorted after := by
  unfold enq at accepted
  split at accepted
  · cases accepted
  · simp only [Option.some.injEq, Prod.mk.injEq] at accepted
    rw [← accepted.2]
    set lower := fun item : Int × Elt => decide (item.1 < key) with lowerEq
    have parts : queue.items.rdropWhile lower ++ queue.items.rtakeWhile lower = queue.items :=
      List.rdropWhile_append_rtakeWhile
    unfold Sorted at sorted
    have divided := sorted
    rw [← parts] at divided
    obtain ⟨front, back, across⟩ := List.pairwise_append.mp divided
    have backLower : ∀ item ∈ queue.items.rtakeWhile lower, item.1 < key := by
      intro item member
      simpa [lowerEq] using List.mem_rtakeWhile_imp member
    have frontHigher := kept_higher sorted key
    apply List.pairwise_append.mpr
    refine ⟨front, List.pairwise_cons.mpr ⟨?_, back⟩, ?_⟩
    · intro item member
      exact Int.le_of_lt (backLower item member)
    · intro item member other later
      rcases List.mem_cons.mp later with same | behind
      · rw [same]
        exact frontHigher item member
      · exact across item member other behind

theorem deq_elements (queue after : Queue Elt) (elt : Elt)
    (taken : deq queue = some (elt, after)) :
    elements queue = elt :: elements after := by
  unfold deq at taken
  split at taken
  · cases taken
  · rename_i item rest shape
    simp only [Option.some.injEq, Prod.mk.injEq] at taken
    simp [elements, shape, ← taken.1, ← taken.2]

end MvsXinu.Gpq
