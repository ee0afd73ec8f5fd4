import Mathlib.Data.List.Basic
import Mathlib.Logic.Function.Basic

/-!
# Mailboxes that hold one letter

Every owner has a box for one letter. A letter gets a serial number when it is posted, and
replaces what is in the box; its owner takes it out. No letter is taken twice.
-/

namespace MvsXinu.Mailboxes

set_option autoImplicit false

variable {Owner Msg : Type*}

structure Letter (Msg : Type*) where
  serial : Nat
  msg : Msg

/-- `taken` is in the order of taking. -/
structure Boxes (Owner Msg : Type*) where
  slot : Owner → Option (Letter Msg)
  posted : Nat
  taken : List (Letter Msg)

def emptyBoxes : Boxes Owner Msg where
  slot := fun _ => none
  posted := 0
  taken := []

variable [DecidableEq Owner]

def Boxes.post (boxes : Boxes Owner Msg) (owner : Owner) (msg : Msg) : Boxes Owner Msg where
  slot := Function.update boxes.slot owner (some { serial := boxes.posted, msg := msg })
  posted := boxes.posted + 1
  taken := boxes.taken

def Boxes.clear (boxes : Boxes Owner Msg) (owner : Owner) : Boxes Owner Msg :=
  { boxes with slot := Function.update boxes.slot owner none }

def Boxes.take (boxes : Boxes Owner Msg) (owner : Owner) : Boxes Owner Msg :=
  match boxes.slot owner with
  | none => boxes
  | some letter => { boxes.clear owner with taken := boxes.taken ++ [letter] }

/-- No letter is in two places, of the boxes and of what was taken. -/
structure Boxes.Once (boxes : Boxes Owner Msg) : Prop where
  nodup : (boxes.taken.map Letter.serial).Nodup
  takenPosted : ∀ letter ∈ boxes.taken, letter.serial < boxes.posted
  slotPosted : ∀ owner letter, boxes.slot owner = some letter → letter.serial < boxes.posted
  fresh : ∀ owner letter, boxes.slot owner = some letter →
    letter.serial ∉ boxes.taken.map Letter.serial
  apart : ∀ first second letter other, boxes.slot first = some letter →
    boxes.slot second = some other → letter.serial = other.serial → first = second

omit [DecidableEq Owner] in
theorem emptyBoxes_once : (emptyBoxes : Boxes Owner Msg).Once where
  nodup := List.nodup_nil
  takenPosted := fun letter member => absurd member List.not_mem_nil
  slotPosted := fun owner letter found => by cases found
  fresh := fun owner letter found => by cases found
  apart := fun first second letter other found => by cases found

section Steps

variable {boxes : Boxes Owner Msg}

@[simp] theorem Boxes.post_slot_self (owner : Owner) (msg : Msg) :
    (boxes.post owner msg).slot owner = some { serial := boxes.posted, msg := msg } :=
  Function.update_self _ _ _

theorem Boxes.post_slot_other {owner other : Owner} (away : other ≠ owner) (msg : Msg) :
    (boxes.post owner msg).slot other = boxes.slot other :=
  Function.update_of_ne away _ _

@[simp] theorem Boxes.clear_slot_self (owner : Owner) : (boxes.clear owner).slot owner = none :=
  Function.update_self _ _ _

theorem Boxes.clear_slot_other {owner other : Owner} (away : other ≠ owner) :
    (boxes.clear owner).slot other = boxes.slot other :=
  Function.update_of_ne away _ _

theorem Boxes.take_none {owner : Owner} (empty : boxes.slot owner = none) :
    boxes.take owner = boxes := by
  rw [Boxes.take, empty]

theorem Boxes.take_some {owner : Owner} {letter : Letter Msg}
    (found : boxes.slot owner = some letter) :
    boxes.take owner = { boxes.clear owner with taken := boxes.taken ++ [letter] } := by
  rw [Boxes.take, found]

theorem Boxes.take_slot_self (owner : Owner) : (boxes.take owner).slot owner = none := by
  cases found : boxes.slot owner with
  | none => rw [Boxes.take_none found, found]
  | some letter =>
      rw [Boxes.take_some found]
      exact Boxes.clear_slot_self owner

theorem Boxes.take_slot_other {owner other : Owner} (away : other ≠ owner) :
    (boxes.take owner).slot other = boxes.slot other := by
  cases found : boxes.slot owner with
  | none => rw [Boxes.take_none found]
  | some letter =>
      rw [Boxes.take_some found]
      exact Boxes.clear_slot_other away

theorem Boxes.Once.post (once : boxes.Once) (owner : Owner) (msg : Msg) :
    (boxes.post owner msg).Once := by
  have slots : ∀ other letter, (boxes.post owner msg).slot other = some letter →
      (other = owner ∧ letter.serial = boxes.posted) ∨
        (other ≠ owner ∧ boxes.slot other = some letter) := by
    intro other letter found
    by_cases same : other = owner
    · rw [same, Boxes.post_slot_self] at found
      rw [← Option.some.inj found]
      exact Or.inl ⟨same, rfl⟩
    · rw [Boxes.post_slot_other same] at found
      exact Or.inr ⟨same, found⟩
  constructor
  · exact once.nodup
  · intro letter member
    exact Nat.lt_succ_of_lt (once.takenPosted letter member)
  · intro other letter found
    show letter.serial < boxes.posted + 1
    rcases slots other letter found with new | old
    · omega
    · have before := once.slotPosted other letter old.2
      omega
  · intro other letter found member
    rcases slots other letter found with new | old
    · rcases List.mem_map.mp member with ⟨earlier, isTaken, same⟩
      have before := once.takenPosted earlier isTaken
      omega
    · exact once.fresh other letter old.2 member
  · intro first second letter other foundFirst foundSecond same
    rcases slots first letter foundFirst with newFirst | oldFirst
    · rcases slots second other foundSecond with newSecond | oldSecond
      · rw [newFirst.1, newSecond.1]
      · have before := once.slotPosted second other oldSecond.2
        omega
    · rcases slots second other foundSecond with newSecond | oldSecond
      · have before := once.slotPosted first letter oldFirst.2
        omega
      · exact once.apart first second letter other oldFirst.2 oldSecond.2 same

theorem Boxes.clear_slot {owner other : Owner} {letter : Letter Msg}
    (found : (boxes.clear owner).slot other = some letter) :
    other ≠ owner ∧ boxes.slot other = some letter := by
  by_cases same : other = owner
  · rw [same, Boxes.clear_slot_self] at found
    cases found
  · rw [Boxes.clear_slot_other same] at found
    exact ⟨same, found⟩

theorem Boxes.Once.clear (once : boxes.Once) (owner : Owner) : (boxes.clear owner).Once where
  nodup := once.nodup
  takenPosted := once.takenPosted
  slotPosted := fun other letter found =>
    once.slotPosted other letter (Boxes.clear_slot found).2
  fresh := fun other letter found => once.fresh other letter (Boxes.clear_slot found).2
  apart := fun first second letter other foundFirst foundSecond =>
    once.apart first second letter other (Boxes.clear_slot foundFirst).2
      (Boxes.clear_slot foundSecond).2

theorem Boxes.Once.take (once : boxes.Once) (owner : Owner) : (boxes.take owner).Once := by
  cases found : boxes.slot owner with
  | none =>
      rw [Boxes.take_none found]
      exact once
  | some letter =>
      rw [Boxes.take_some found]
      have cleared := once.clear owner
      have serials : (boxes.taken ++ [letter]).map Letter.serial =
          boxes.taken.map Letter.serial ++ [letter.serial] := by
        rw [List.map_append, List.map_singleton]
      constructor
      · rw [serials]
        apply List.nodup_append.mpr
        refine ⟨once.nodup, List.pairwise_singleton _ _, ?_⟩
        intro serial member other isLast same
        rw [List.mem_singleton.mp isLast] at same
        exact once.fresh owner letter found (same ▸ member)
      · intro other member
        rcases List.mem_append.mp member with earlier | isLast
        · exact once.takenPosted other earlier
        · rw [List.mem_singleton.mp isLast]
          exact once.slotPosted owner letter found
      · exact cleared.slotPosted
      · intro other waiting isWaiting member
        rw [serials] at member
        rcases List.mem_append.mp member with earlier | isLast
        · exact cleared.fresh other waiting isWaiting earlier
        · have slot := Boxes.clear_slot isWaiting
          exact slot.1 (once.apart other owner waiting letter slot.2 found
            (List.mem_singleton.mp isLast))
      · exact cleared.apart

end Steps

end MvsXinu.Mailboxes
