import Mathlib.Data.List.Pairwise
import Mathlib.Order.MinMax

/-!
# Joining pieces to an edge

Pieces occupy the places from `start` up to `stop`. A scan moves an edge over the pieces at the
head of a list that start at or before it. It ends at the first piece beyond the edge, or at a
marked place, where the remaining pieces are dropped.
-/

namespace MvsXinu.Gather

set_option autoImplicit false

/-- Where the edge is at the end, what remains of the list, and whether the place is marked. -/
structure Gathered (Place Item : Type*) where
  edge : Place
  rest : List Item
  marked : Bool

variable {Place Item : Type*} [LinearOrder Place] (start stop : Item → Place)
  (mark : Place → Bool)

def gather (edge : Place) : List Item → Gathered Place Item
  | [] => { edge := edge, rest := [], marked := mark edge }
  | item :: rest =>
      if mark edge then { edge := edge, rest := [], marked := true }
      else if edge < start item then { edge := edge, rest := item :: rest, marked := false }
      else gather (max edge (stop item)) rest

variable {start stop mark}

/-- The three ways that a scan of a nonempty list goes. -/
theorem gather_of_mark {edge : Place} (items : List Item) (marked : mark edge = true) :
    gather start stop mark edge items = { edge := edge, rest := [], marked := true } := by
  cases items with
  | nil => rw [gather, marked]
  | cons item rest => rw [gather, if_pos marked]

theorem gather_beyond {edge : Place} {item : Item} {rest : List Item}
    (unmarked : mark edge = false) (beyond : edge < start item) :
    gather start stop mark edge (item :: rest) =
      { edge := edge, rest := item :: rest, marked := false } := by
  rw [gather, unmarked, if_neg Bool.false_ne_true, if_pos beyond]

theorem gather_join {edge : Place} {item : Item} {rest : List Item}
    (unmarked : mark edge = false) (joins : ¬ edge < start item) :
    gather start stop mark edge (item :: rest) =
      gather start stop mark (max edge (stop item)) rest := by
  rw [gather, unmarked, if_neg Bool.false_ne_true, if_neg joins]

/-- What holds where a scan starts, and is kept by each piece it joins, holds where it ends. -/
theorem gather_invariant (Inv : Place → Prop) (items : List Item) (edge : Place)
    (holds : Inv edge)
    (joined : ∀ place, ∀ item ∈ items, Inv place → ¬ place < start item →
      Inv (max place (stop item))) :
    Inv (gather start stop mark edge items).edge := by
  induction items generalizing edge with
  | nil => exact holds
  | cons item rest ih =>
      rw [gather]
      split
      · exact holds
      · split
        · exact holds
        · rename_i joins
          apply ih _ (joined edge item List.mem_cons_self holds joins)
          intro place other member
          exact joined place other (List.mem_cons_of_mem item member)

theorem edge_le_gather (items : List Item) (edge : Place) :
    edge ≤ (gather start stop mark edge items).edge :=
  gather_invariant (fun place => edge ≤ place) items edge le_rfl
    (fun _ _ _ before _ => before.trans (le_max_left _ _))

theorem gather_le {limit : Place} (items : List Item) (edge : Place) (below : edge ≤ limit)
    (stops : ∀ item ∈ items, stop item ≤ limit) :
    (gather start stop mark edge items).edge ≤ limit :=
  gather_invariant (fun place => place ≤ limit) items edge below
    (fun _ item member before _ => max_le before (stops item member))

/-- The edge only moves over places that a piece occupies. -/
theorem gather_occupied (items : List Item) (edge place : Place) (from_ : edge ≤ place)
    (below : place < (gather start stop mark edge items).edge) :
    ∃ item ∈ items, start item ≤ place ∧ place < stop item := by
  have passed : place < (gather start stop mark edge items).edge →
      ∃ item ∈ items, start item ≤ place ∧ place < stop item := by
    apply gather_invariant (fun reached => place < reached →
      ∃ item ∈ items, start item ≤ place ∧ place < stop item)
    · intro before
      exact absurd before (not_lt.mpr from_)
    · intro reached item member known joins before
      rcases lt_max_iff.mp before with old | inside
      · exact known old
      · by_cases earlier : place < reached
        · exact known earlier
        · exact ⟨item, member, (not_lt.mp joins).trans (not_lt.mp earlier), inside⟩
  exact passed below

/-- The edge ends where it started or where a piece stops. -/
theorem gather_reached (items : List Item) (edge : Place) :
    (gather start stop mark edge items).edge = edge ∨
      ∃ item ∈ items, (gather start stop mark edge items).edge = stop item := by
  apply gather_invariant (fun place => place = edge ∨ ∃ item ∈ items, place = stop item)
  · exact Or.inl rfl
  · intro place item member known _
    rcases max_choice place (stop item) with same | stopped
    · rw [same]
      exact known
    · exact Or.inr ⟨item, member, stopped⟩

theorem gather_rest (items : List Item) (edge : Place) (item : Item)
    (member : item ∈ (gather start stop mark edge items).rest) : item ∈ items := by
  induction items generalizing edge with
  | nil => exact member
  | cons head rest ih =>
      rw [gather] at member
      split at member
      · exact absurd member List.not_mem_nil
      · split at member
        · exact member
        · exact List.mem_cons_of_mem head (ih _ member)

theorem gather_marked (items : List Item) (edge : Place) :
    mark (gather start stop mark edge items).edge = (gather start stop mark edge items).marked := by
  induction items generalizing edge with
  | nil => rfl
  | cons item rest ih =>
      rw [gather]
      split
      · assumption
      · rename_i unmarked
        split
        · exact eq_false_of_ne_true unmarked
        · exact ih _

/-- At a mark nothing remains. -/
theorem gather_rest_nil (items : List Item) (edge : Place)
    (marked : (gather start stop mark edge items).marked = true) :
    (gather start stop mark edge items).rest = [] := by
  induction items generalizing edge with
  | nil => rfl
  | cons item rest ih =>
      rw [gather] at marked ⊢
      split
      · rfl
      · rename_i unmarked
        rw [if_neg unmarked] at marked
        split
        · rename_i beyond
          rw [if_pos beyond] at marked
          exact absurd marked Bool.false_ne_true
        · rename_i joins
          rw [if_neg joins] at marked
          exact ih _ marked

/-- A piece is left over, or the edge has passed it, or everything was dropped at a mark. -/
theorem gather_passed (items : List Item) (edge : Place) (item : Item) (member : item ∈ items) :
    item ∈ (gather start stop mark edge items).rest ∨
      stop item ≤ (gather start stop mark edge items).edge ∨
      (gather start stop mark edge items).marked = true := by
  induction items generalizing edge with
  | nil => exact absurd member List.not_mem_nil
  | cons head rest ih =>
      rw [gather]
      split
      · exact Or.inr (Or.inr rfl)
      · split
        · exact Or.inl member
        · rcases List.mem_cons.mp member with rfl | behind
          · right
            left
            exact (le_max_right _ _).trans (edge_le_gather rest _)
          · exact ih _ behind

/-- A scan in the order of the starts leaves no piece that touches the edge. -/
theorem gather_sorted (items : List Item) (edge : Place)
    (sorted : items.Pairwise fun first second => start first ≤ start second) (item : Item)
    (member : item ∈ (gather start stop mark edge items).rest) :
    (gather start stop mark edge items).edge < start item := by
  induction items generalizing edge with
  | nil => exact absurd member List.not_mem_nil
  | cons head rest ih =>
      rcases List.pairwise_cons.mp sorted with ⟨least, later⟩
      rw [gather] at member ⊢
      split at member
      · exact absurd member List.not_mem_nil
      · rename_i unmarked
        rw [if_neg unmarked]
        split at member
        · rename_i beyond
          rw [if_pos beyond]
          rcases List.mem_cons.mp member with same | behind
          · rw [same]
            exact beyond
          · exact beyond.trans_le (least item behind)
        · rename_i joins
          rw [if_neg joins]
          exact ih _ later member

end MvsXinu.Gather
