import Mathlib.Algebra.Order.Ring.Nat
import Mathlib.Data.List.Basic

/-!
# Boxes filled one after another

Items come in order. Each goes into the box that is open, and into a new one when that is full:
the boxes hold the items in order, and all but the last are full.
-/

namespace MvsXinu.Packing

set_option autoImplicit false

variable {Item : Type*} {capacity : Nat} {items : List Item} {boxes : List (List Item)}

structure Packed (capacity : Nat) (items : List Item) (boxes : List (List Item)) : Prop where
  flat : boxes.flatten = items
  filled : ∀ box ∈ boxes, box ≠ [] ∧ box.length ≤ capacity
  full : ∀ box ∈ boxes.dropLast, box.length = capacity

theorem packed_nil (capacity : Nat) : Packed capacity ([] : List Item) [] where
  flat := rfl
  filled := by simp
  full := by simp

/-- A new box behind boxes that are all full. -/
theorem Packed.start (packed : Packed capacity items boxes) (roomy : 0 < capacity)
    (full : ∀ box ∈ boxes, box.length = capacity) (item : Item) :
    Packed capacity (items ++ [item]) (boxes ++ [[item]]) where
  flat := by simp [packed.flat]
  filled := by
    intro box member
    rcases List.mem_append.mp member with old | new
    · exact packed.filled box old
    · rw [List.mem_singleton.mp new]
      exact ⟨by simp, roomy⟩
  full := by
    rw [List.dropLast_concat]
    exact full

/-- One more item in the last box. -/
theorem Packed.fill {front : List (List Item)} {box : List Item}
    (packed : Packed capacity items (front ++ [box])) (room : box.length < capacity)
    (item : Item) : Packed capacity (items ++ [item]) (front ++ [box ++ [item]]) where
  flat := by
    rw [← packed.flat]
    simp
  filled := by
    intro other member
    rcases List.mem_append.mp member with old | new
    · exact packed.filled other (List.mem_append_left _ old)
    · rw [List.mem_singleton.mp new]
      refine ⟨by simp, ?_⟩
      rw [List.length_append, List.length_singleton]
      exact room
  full := by
    have full := packed.full
    rw [List.dropLast_concat] at full ⊢
    exact full

/-- The items are as many as the boxes before the last one hold and those in it. -/
theorem Packed.length {front : List (List Item)} {box : List Item}
    (packed : Packed capacity items (front ++ [box])) :
    items.length = front.length * capacity + box.length := by
  have full := packed.full
  rw [List.dropLast_concat] at full
  have lengths : front.map List.length = List.replicate front.length capacity := by
    apply List.eq_replicate_of_mem ?_ |>.trans
    · rw [List.length_map]
    · intro count member
      obtain ⟨other, inside, rfl⟩ := List.mem_map.mp member
      exact full other inside
  rw [← packed.flat, List.flatten_append, List.length_append, List.length_flatten, lengths]
  simp

end MvsXinu.Packing
