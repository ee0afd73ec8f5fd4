import Mathlib.Data.List.Basic
import Mathlib.Data.Int.Basic

/-!
# Rounds through a table

A search goes down through a table from a place that it remembers and starts again at the top
below the first entry. As many visits as the table has entries see every entry.
-/

namespace MvsXinu.Rounds

set_option autoImplicit false

/-- The entry behind `place` in the order of the search. -/
def next (size place : Int) : Int := if place ≤ 0 then size - 1 else place - 1

def visits (size : Int) : Nat → Int → List Int
  | 0, _ => []
  | tries + 1, place => place :: visits size tries (next size place)

def Inside (size place : Int) : Prop := 0 ≤ place ∧ place < size

variable {size place : Int}

theorem next_inside (inside : Inside size place) : Inside size (next size place) := by
  unfold next Inside at *
  split_ifs <;> omega

theorem visits_inside (tries : Nat) (inside : Inside size place) :
    ∀ visited ∈ visits size tries place, Inside size visited := by
  induction tries generalizing place with
  | zero =>
      intro visited member
      cases member
  | succ tries ih =>
      intro visited member
      rcases List.mem_cons.mp member with rfl | later
      · exact inside
      · exact ih (next_inside inside) visited later

/-- The search gets down to every entry below the place, and from the top to those above it. -/
theorem mem_visits_of_steps (steps : Nat) (tries : Nat) (enough : steps < tries)
    (inside : Inside size place) (target : Int)
    (reached : (0 ≤ place - steps ∧ target = place - steps) ∨
      (place - steps < 0 ∧ 0 ≤ place - steps + size ∧ target = place - steps + size)) :
    target ∈ visits size tries place := by
  induction steps generalizing tries place with
  | zero =>
      obtain ⟨tries, rfl⟩ := Nat.exists_eq_succ_of_ne_zero (n := tries) (by omega)
      unfold Inside at inside
      have here : target = place := by
        push_cast at reached
        omega
      rw [visits, here]
      exact List.mem_cons_self
  | succ steps ih =>
      obtain ⟨tries, rfl⟩ := Nat.exists_eq_succ_of_ne_zero (n := tries) (by omega)
      rw [visits]
      apply List.mem_cons_of_mem
      apply ih tries (by omega) (next_inside inside)
      unfold Inside at inside
      unfold next
      push_cast at reached
      split_ifs <;> omega

theorem mem_visits (inside : Inside size place) (target : Int) (isEntry : Inside size target) :
    target ∈ visits size size.toNat place := by
  unfold Inside at isEntry
  by_cases below : target ≤ place
  · apply mem_visits_of_steps (place - target).toNat size.toNat _ inside target
    · left
      unfold Inside at inside
      omega
    · unfold Inside at inside
      omega
  · apply mem_visits_of_steps (place - target + size).toNat size.toNat _ inside target
    · right
      unfold Inside at inside
      omega
    · unfold Inside at inside
      omega

/-! ## Searching -/

section Searching

variable (size) (free : Int → Prop) [DecidablePred free]

/-- The first free entry, and where the next search begins. -/
def scan : Nat → Int → Option Int × Int
  | 0, place => (none, place)
  | tries + 1, place =>
      if free place then (some place, next size place) else scan tries (next size place)

theorem scan_inside (tries : Nat) (inside : Inside size place) :
    Inside size (scan size free tries place).2 := by
  induction tries generalizing place with
  | zero => exact inside
  | succ tries ih =>
      rw [scan]
      split_ifs
      · exact next_inside inside
      · exact ih (next_inside inside)

theorem scan_some (tries : Nat) {found : Int} (finds : (scan size free tries place).1 = some found) :
    free found ∧ found ∈ visits size tries place := by
  induction tries generalizing place with
  | zero => cases finds
  | succ tries ih =>
      rw [scan] at finds
      rw [visits]
      split_ifs at finds with here
      · rw [← Option.some.inj finds]
        exact ⟨here, List.mem_cons_self⟩
      · obtain ⟨isFree, visited⟩ := ih finds
        exact ⟨isFree, List.mem_cons_of_mem _ visited⟩

theorem scan_none (tries : Nat) (fails : (scan size free tries place).1 = none) :
    ∀ visited ∈ visits size tries place, ¬ free visited := by
  induction tries generalizing place with
  | zero =>
      intro visited member
      cases member
  | succ tries ih =>
      rw [scan] at fails
      split_ifs at fails with here
      intro visited member
      rcases List.mem_cons.mp member with rfl | later
      · exact here
      · exact ih fails visited later

/-- A whole round fails only if there is no free entry. -/
theorem round_cases (inside : Inside size place) :
    ∃ later, Inside size later ∧
      ((scan size free size.toNat place = (none, later) ∧
          ∀ entry, Inside size entry → ¬ free entry) ∨
        ∃ found, Inside size found ∧ free found ∧
          scan size free size.toNat place = (some found, later)) := by
  refine ⟨(scan size free size.toNat place).2, scan_inside size free size.toNat inside, ?_⟩
  cases finds : (scan size free size.toNat place).1 with
  | none =>
      left
      refine ⟨Prod.ext finds rfl, ?_⟩
      intro entry isEntry
      exact scan_none size free size.toNat finds entry (mem_visits inside entry isEntry)
  | some found =>
      right
      obtain ⟨isFree, visited⟩ := scan_some size free size.toNat finds
      exact ⟨found, visits_inside _ inside found visited, isFree, Prod.ext finds rfl⟩

end Searching

end MvsXinu.Rounds
