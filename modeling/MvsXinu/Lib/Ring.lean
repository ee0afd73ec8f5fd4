import Mathlib.Data.List.Basic
import Mathlib.Data.Nat.ModEq
import Mathlib.Logic.Function.Basic

/-!
# Circular stores

A circular store is a function from slots to values of which the slots below `size`
are used. `store` and `load` are the copy loops that advance a slot index and set it
back to zero at `size`. Positions relative to a start slot are taken modulo `size`,
and a run of at most `size` positions meets every slot at most once.
-/

namespace MvsXinu.Ring

set_option autoImplicit false

variable {Value : Type*}

def next (size index : Nat) : Nat := if size ≤ index + 1 then 0 else index + 1

def store (size : Nat) (cells : Nat → Value) : Nat → List Value → Nat → Value
  | _, [] => cells
  | index, value :: rest =>
      store size (Function.update cells index value) (next size index) rest

def load (size : Nat) (cells : Nat → Value) : Nat → Nat → List Value
  | _, 0 => []
  | index, count + 1 => cells index :: load size cells (next size index) count

theorem next_eq_mod (size index : Nat) (bound : index < size) :
    next size index = (index + 1) % size := by
  unfold next
  split
  · have exact : index + 1 = size := by omega
    rw [exact, Nat.mod_self]
  · rw [Nat.mod_eq_of_lt (by omega)]

theorem next_slot (size start : Nat) (positive : 0 < size) :
    next size (start % size) = (start + 1) % size := by
  rw [next_eq_mod size _ (Nat.mod_lt _ positive), Nat.mod_add_mod]

theorem slot_injective (size start left right : Nat)
    (leftBound : left < size) (rightBound : right < size)
    (same : (start + left) % size = (start + right) % size) : left = right := by
  have congruent : left ≡ right [MOD size] := Nat.ModEq.add_left_cancel' start same
  rwa [Nat.ModEq, Nat.mod_eq_of_lt leftBound, Nat.mod_eq_of_lt rightBound] at congruent

@[simp] theorem load_length (size : Nat) (cells : Nat → Value) (index count : Nat) :
    (load size cells index count).length = count := by
  induction count generalizing index with
  | zero => rfl
  | succ count ih => simp [load, ih]

theorem load_slot (size : Nat) (cells : Nat → Value) (start count : Nat) (positive : 0 < size) :
    load size cells (start % size) count =
      (List.range count).map fun position => cells ((start + position) % size) := by
  induction count generalizing start with
  | zero => rfl
  | succ count ih =>
      rw [load, next_slot size start positive, ih (start + 1), List.range_succ_eq_map,
        List.map_cons, List.map_map, Nat.add_zero]
      congr 1
      apply List.map_congr_left
      intro position _
      simp only [Function.comp, Nat.add_assoc, Nat.add_comm 1]

theorem load_congr (size : Nat) (cells other : Nat → Value) (start count : Nat)
    (positive : 0 < size)
    (agree : ∀ position < count,
      cells ((start + position) % size) = other ((start + position) % size)) :
    load size cells (start % size) count = load size other (start % size) count := by
  rw [load_slot size cells start count positive, load_slot size other start count positive]
  apply List.map_congr_left
  intro position member
  exact agree position (List.mem_range.mp member)

/-- A store that starts `offset` slots after `start` leaves the slots outside of its
run alone. -/
theorem store_outside (size start offset : Nat) (cells : Nat → Value) (values : List Value)
    (fits : offset + values.length ≤ size) (position : Nat) (bound : position < size)
    (outside : position < offset ∨ offset + values.length ≤ position) :
    store size cells ((start + offset) % size) values ((start + position) % size) =
      cells ((start + position) % size) := by
  induction values generalizing cells offset with
  | nil => rfl
  | cons value values ih =>
      simp only [List.length_cons] at fits outside
      have positive : 0 < size := by omega
      have different : (start + position) % size ≠ (start + offset) % size := by
        intro same
        have equal := slot_injective size start position offset bound (by omega) same
        omega
      rw [store, next_slot size (start + offset) positive, Nat.add_assoc,
        ih (offset + 1) _ (by omega) (by omega), Function.update_of_ne different]

/-- Inside of its run it leaves the stored values, in order. -/
theorem store_inside (size start offset : Nat) (cells : Nat → Value) (values : List Value)
    (fits : offset + values.length ≤ size) (position : Nat) (bound : position < values.length) :
    store size cells ((start + offset) % size) values ((start + (offset + position)) % size) =
      values[position] := by
  induction values generalizing cells offset position with
  | nil => simp at bound
  | cons value values ih =>
      simp only [List.length_cons] at fits bound
      have positive : 0 < size := by omega
      rw [store, next_slot size (start + offset) positive, Nat.add_assoc]
      cases position with
      | zero =>
          rw [show offset + 0 = offset from rfl, store_outside size start (offset + 1) _ values (by omega) offset
            (by omega) (Or.inl (by omega)), Function.update_self, List.getElem_cons_zero]
      | succ position =>
          have shifted : offset + (position + 1) = offset + 1 + position := by omega
          rw [shifted, ih (offset + 1) _ (by omega) position (by omega),
            List.getElem_cons_succ]

theorem load_append (size : Nat) (cells : Nat → Value) (start left right : Nat)
    (positive : 0 < size) :
    load size cells (start % size) (left + right) =
      load size cells (start % size) left ++ load size cells ((start + left) % size) right := by
  induction left generalizing start with
  | zero => simp [load]
  | succ left ih =>
      rw [Nat.add_right_comm, load, load, next_slot size start positive, ih (start + 1),
        Nat.add_assoc, Nat.add_comm 1 left, List.cons_append]

theorem load_drop (size : Nat) (cells : Nat → Value) (start count offset : Nat)
    (positive : 0 < size) (inside : offset ≤ count) :
    (load size cells (start % size) count).drop offset =
      load size cells ((start + offset) % size) (count - offset) := by
  have split : count = offset + (count - offset) := by omega
  rw [split, load_append size cells start _ _ positive, List.drop_left' (load_length _ _ _ _),
    Nat.add_sub_cancel_left]

theorem load_take (size : Nat) (cells : Nat → Value) (start count len : Nat)
    (positive : 0 < size) (inside : len ≤ count) :
    (load size cells (start % size) count).take len = load size cells (start % size) len := by
  have split : count = len + (count - len) := by omega
  rw [split, load_append size cells start _ _ positive, List.take_left' (load_length _ _ _ _)]

/-- Values stored behind the first `count` are loaded behind them. -/
theorem load_store (size start count : Nat) (cells : Nat → Value) (values : List Value)
    (positive : 0 < size) (fits : count + values.length ≤ size) :
    load size (store size cells ((start + count) % size) values) (start % size)
        (count + values.length) = load size cells (start % size) count ++ values := by
  rw [load_append size _ start count _ positive]
  congr 1
  · apply load_congr size _ _ start count positive
    intro position bound
    exact store_outside size start count cells values fits position (by omega) (Or.inl bound)
  · rw [load_slot size _ (start + count) _ positive]
    apply List.ext_getElem
    · simp
    · intro position _ bound
      have inside := store_inside size start count cells values fits position bound
      simpa [Nat.add_assoc] using inside

end MvsXinu.Ring
