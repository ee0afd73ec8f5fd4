import Mathlib.Algebra.BigOperators.Ring.Finset
import Mathlib.Algebra.Ring.Int.Defs

/-!
# How many members have a property

A counter agrees with the number of members that have a property if it follows the member
that changes.
-/

namespace MvsXinu.Headcount

set_option autoImplicit false

/-- One for a member that is counted. -/
def weight (counted : Prop) [Decidable counted] : Int := if counted then 1 else 0

theorem weight_congr {counted other : Prop} [Decidable counted] [Decidable other]
    (same : counted ↔ other) : weight counted = weight other := by
  simp only [weight, same]

theorem weight_of {counted : Prop} [Decidable counted] (holds : counted) : weight counted = 1 :=
  if_pos holds

theorem weight_not {counted : Prop} [Decidable counted] (fails : ¬ counted) : weight counted = 0 :=
  if_neg fails

variable {Member : Type*}

def headcount (members : Finset Member) (counted : Member → Prop) [DecidablePred counted] : Nat :=
  (members.filter counted).card

variable {members : Finset Member} {counted later : Member → Prop} [DecidablePred counted]
  [DecidablePred later]

theorem headcount_sum :
    (headcount members counted : Int) = ∑ member ∈ members, weight (counted member) := by
  simp only [headcount, weight]
  rw [Finset.natCast_card_filter]

theorem headcount_congr (same : ∀ member ∈ members, later member ↔ counted member) :
    headcount members later = headcount members counted := by
  simp only [headcount]
  rw [Finset.filter_congr same]

theorem headcount_none (nobody : ∀ member ∈ members, ¬ counted member) :
    headcount members counted = 0 := by
  simp only [headcount]
  rw [Finset.card_eq_zero, Finset.filter_eq_empty_iff]
  exact nobody

/-- Only one member may change. -/
theorem headcount_change [DecidableEq Member] {one : Member} (isMember : one ∈ members)
    (others : ∀ member ∈ members, member ≠ one → (later member ↔ counted member)) :
    (headcount members later : Int) =
      headcount members counted + (weight (later one) - weight (counted one)) := by
  have rest : ∑ member ∈ members.erase one, weight (later member) =
      ∑ member ∈ members.erase one, weight (counted member) := by
    apply Finset.sum_congr rfl
    intro member isOther
    exact weight_congr (others member (Finset.mem_of_mem_erase isOther)
      (Finset.ne_of_mem_erase isOther))
  have before := Finset.add_sum_erase members (fun member => weight (counted member)) isMember
  have after := Finset.add_sum_erase members (fun member => weight (later member)) isMember
  rw [headcount_sum, headcount_sum, ← before, ← after, rest]
  omega

end MvsXinu.Headcount
