import Mathlib.Data.List.Perm.Basic
import Mathlib.Order.Lattice

/-!
# Stable orders of a waiting line

The customers of a line stand in the order in which they came; they are served by rank, the
greatest first, and those of one rank in the order of the line. An arrangement of the line is
stable if it falls in rank and keeps the order of the line within each rank.
-/

namespace MvsXinu.StableOrder

set_option autoImplicit false

variable {Item Rank : Type*} [LinearOrder Rank]

/-- The customer to be served next is the first one of the greatest rank. -/
structure Served (rank : Item → Rank) (line : List Item) (item : Item) (left : List Item) :
    Prop where
  place : ∃ front back, line = front ++ item :: back ∧ left = front ++ back ∧
    (∀ other ∈ front, rank other < rank item) ∧ ∀ other ∈ back, rank other ≤ rank item

structure Stable (rank : Item → Rank) (line arranged : List Item) : Prop where
  falls : arranged.Pairwise fun first second => rank second ≤ rank first
  perm : arranged.Perm line
  keeps : ∀ key, arranged.filter (fun item => rank item == key) =
    line.filter (fun item => rank item == key)

variable {rank : Item → Rank} {line arranged front back : List Item} {item : Item}

theorem stable_nil (rank : Item → Rank) : Stable rank [] [] where
  falls := List.Pairwise.nil
  perm := List.Perm.refl []
  keeps := fun _ => rfl

theorem Stable.length (stable : Stable rank line arranged) : arranged.length = line.length :=
  stable.perm.length_eq

/-- A new customer goes in front of those of lower rank and behind all others. -/
theorem Stable.insert (item : Item) (stable : Stable rank line (front ++ back))
    (higher : ∀ other ∈ front, rank item ≤ rank other)
    (lower : ∀ other ∈ back, rank other < rank item) :
    Stable rank (line ++ [item]) (front ++ item :: back) where
  falls := by
    obtain ⟨frontFalls, backFalls, across⟩ := List.pairwise_append.mp stable.falls
    apply List.pairwise_append.mpr
    refine ⟨frontFalls, List.pairwise_cons.mpr ⟨?_, backFalls⟩, ?_⟩
    · intro other member
      exact le_of_lt (lower other member)
    · intro other member later behind
      rcases List.mem_cons.mp behind with rfl | behind
      · exact higher other member
      · exact across other member later behind
  perm := by
    calc (front ++ item :: back).Perm (item :: (front ++ back)) := List.perm_middle
      List.Perm _ (item :: line) := stable.perm.cons item
      List.Perm _ (line ++ [item]) := (List.perm_append_singleton item line).symm
  keeps := by
    intro key
    have before := stable.keeps key
    rw [List.filter_append] at before
    rw [List.filter_append, List.filter_cons, List.filter_append, ← before]
    by_cases own : rank item = key
    · have none : back.filter (fun other => rank other == key) = [] := by
        apply List.filter_eq_nil_iff.mpr
        intro other member same
        have less := lower other member
        rw [beq_iff_eq.mp same, own] at less
        exact lt_irrefl key less
      simp [own, none]
    · simp [own]

/-- The first of the arrangement is the one to be served, and the rest stays stable. -/
theorem Stable.serve (stable : Stable rank line (item :: arranged)) :
    ∃ left, Served rank line item left ∧ Stable rank left arranged := by
  have own := stable.keeps (rank item)
  rw [List.filter_cons_of_pos (by simp)] at own
  obtain ⟨front, back, rfl, others, _, rest⟩ := List.filter_eq_cons_iff.mp own.symm
  obtain ⟨highest, falls⟩ := List.pairwise_cons.mp stable.falls
  have bounded : ∀ other ∈ front ++ item :: back, rank other ≤ rank item := by
    intro other member
    rcases List.mem_cons.mp (stable.perm.mem_iff.mpr member) with rfl | later
    · exact le_refl _
    · exact highest other later
  refine ⟨front ++ back, ⟨front, back, rfl, rfl, ?_, ?_⟩, falls, ?_, ?_⟩
  · intro other member
    have different := others other member
    apply lt_of_le_of_ne (bounded other (by simp [member]))
    simpa using different
  · intro other member
    exact bounded other (by simp [member])
  · exact (stable.perm.trans List.perm_middle).cons_inv
  · intro key
    have whole := stable.keeps key
    rw [List.filter_append, List.filter_cons, List.filter_cons] at whole
    rw [List.filter_append]
    by_cases same : rank item = key
    · subst same
      have nobody : front.filter (fun other => rank other == rank item) = [] :=
        List.filter_eq_nil_iff.mpr others
      rw [nobody, List.nil_append]
      exact rest.symm
    · simpa [same] using whole

end MvsXinu.StableOrder
