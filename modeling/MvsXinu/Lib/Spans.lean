import Mathlib.Data.List.Basic
import Mathlib.Algebra.Order.Ring.Int

/-!
# Spans that cover a range

Items occupy the places from `start` up to `stop`. A scan over items in the order of
their starts keeps the place reached so far and stops at the first gap.
-/

namespace MvsXinu.Spans

set_option autoImplicit false

variable {Item : Type*} (start stop : Item → Int)

def Occupies (item : Item) (place : Int) : Prop := start item ≤ place ∧ place < stop item

def Covers (items : List Item) (limit : Int) : Prop :=
  ∀ place, 0 ≤ place → place < limit → ∃ item ∈ items, Occupies start stop item place

/-- No item starts behind the stop of the one before it. -/
def Gapless (reached : Int) : List Item → Prop
  | [] => True
  | item :: rest => start item ≤ reached ∧ Gapless (stop item) rest

/-- Where a scan ends: the stop of the last item. -/
def finish (reached : Int) (items : List Item) : Int :=
  items.foldl (fun _ item => stop item) reached

variable {start stop}

theorem Covers.of_mem {items others : List Item} {limit : Int} (covers : Covers start stop items limit)
    (members : ∀ item ∈ items, item ∈ others) : Covers start stop others limit := by
  intro place low high
  obtain ⟨item, member, occupied⟩ := covers place low high
  exact ⟨item, members item member, occupied⟩

theorem finish_append (reached : Int) (items : List Item) (item : Item) :
    finish stop reached (items ++ [item]) = stop item := by
  rw [finish, List.foldl_append]
  rfl

theorem finish_getLast (reached : Int) (items : List Item) (nonempty : items ≠ []) :
    finish stop reached items = stop (items.getLast nonempty) := by
  conv_lhs => rw [← List.dropLast_append_getLast nonempty]
  exact finish_append reached _ _

theorem stop_le_last (items : List Item)
    (rising : items.Pairwise fun first second => stop first ≤ stop second)
    (last : Item) (final : items.getLast? = some last) (item : Item) (member : item ∈ items) :
    stop item ≤ stop last := by
  obtain ⟨front, rfl⟩ := List.getLast?_eq_some_iff.mp final
  rcases List.mem_append.mp member with earlier | same
  · exact (List.pairwise_append.mp rising).2.2 item earlier last (List.mem_singleton_self last)
  · rw [List.mem_singleton.mp same]

theorem occupied_of_gapless (reached : Int) (items : List Item)
    (gapless : Gapless start stop reached items) (place : Int) (low : reached ≤ place)
    (high : place < finish stop reached items) : ∃ item ∈ items, Occupies start stop item place := by
  induction items generalizing reached with
  | nil =>
      have empty : place < reached := high
      omega
  | cons item rest ih =>
      by_cases inside : place < stop item
      · exact ⟨item, List.mem_cons_self, gapless.1.trans low, inside⟩
      · obtain ⟨later, member, occupied⟩ :=
          ih (stop item) gapless.2 (by omega) high
        exact ⟨later, List.mem_cons_of_mem item member, occupied⟩

theorem covers_of_gapless (items : List Item) (gapless : Gapless start stop 0 items) :
    Covers start stop items (finish stop 0 items) := by
  intro place low high
  exact occupied_of_gapless 0 items gapless place low high

/-- The converse needs the items in the order of their starts and of their stops. -/
theorem gapless_of_occupied (reached limit : Int) (items : List Item)
    (sorted : items.Pairwise fun first second => start first ≤ start second)
    (rising : items.Pairwise fun first second => stop first ≤ stop second)
    (behind : ∀ item ∈ items, reached ≤ stop item)
    (proper : ∀ item ∈ items, start item ≤ stop item)
    (within : ∀ item ∈ items, stop item ≤ limit)
    (occupied : ∀ place, reached ≤ place → place < limit →
      ∃ item ∈ items, Occupies start stop item place) :
    Gapless start stop reached items := by
  induction items generalizing reached with
  | nil => trivial
  | cons item rest ih =>
      obtain ⟨first, sortedRest⟩ := List.pairwise_cons.mp sorted
      obtain ⟨lowest, risingRest⟩ := List.pairwise_cons.mp rising
      have head : start item ≤ reached := by
        by_contra gap
        have properItem := proper item List.mem_cons_self
        have withinItem := within item List.mem_cons_self
        obtain ⟨other, member, low, _⟩ := occupied reached le_rfl (by omega)
        rcases List.mem_cons.mp member with same | later
        · rw [same] at low
          omega
        · have order := first other later
          omega
      refine ⟨head, ih (stop item) sortedRest risingRest lowest ?_ ?_ ?_⟩
      · intro other member
        exact proper other (List.mem_cons_of_mem item member)
      · intro other member
        exact within other (List.mem_cons_of_mem item member)
      · intro place low high
        have reachedPlace := (behind item List.mem_cons_self).trans low
        obtain ⟨other, member, occupies⟩ := occupied place reachedPlace high
        rcases List.mem_cons.mp member with same | later
        · have inside := occupies.2
          rw [same] at inside
          omega
        · exact ⟨other, later, occupies⟩

end MvsXinu.Spans
