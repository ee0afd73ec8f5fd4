import Mathlib.Data.List.Count
import Mathlib.Data.List.Basic
import Mathlib.Data.List.Nodup
import Mathlib.Logic.Function.Basic

/-!
# Items in stocks

Numbered items are issued one after the other and are kept in stocks, each place of a table
having one of its own. `Settled` says that every item that was issued is in the stocks once.
-/

namespace MvsXinu.Stocks

set_option autoImplicit false

variable {Place Item : Type*} [DecidableEq Item]

def Settled (issued : Nat) (stock : List Nat) : Prop :=
  ∀ item, stock.count item = if item < issued then 1 else 0

section Tables

variable {places : List Place} {old : Place} {index : Nat}

/-- One place of the table has another stock. -/
theorem count_flatMap_set (place : Place) (stock : Place → List Item)
    (found : places[index]? = some old) (item : Item) :
    ((places.set index place).flatMap stock).count item + (stock old).count item =
      (places.flatMap stock).count item + (stock place).count item := by
  induction places generalizing index with
  | nil => simp at found
  | cons first rest ih =>
      cases index with
      | zero =>
          have same : first = old := by simpa using found
          rw [same]
          simp only [List.set_cons_zero, List.flatMap_cons, List.count_append]
          omega
      | succ index =>
          have later := ih (by simpa using found)
          simp only [List.set_cons_succ, List.flatMap_cons, List.count_append]
          omega

/-- One place of the table is no more. -/
theorem count_flatMap_eraseIdx (stock : Place → List Item) (found : places[index]? = some old)
    (item : Item) :
    ((places.eraseIdx index).flatMap stock).count item + (stock old).count item =
      (places.flatMap stock).count item := by
  induction places generalizing index with
  | nil => simp at found
  | cons first rest ih =>
      cases index with
      | zero =>
          have same : first = old := by simpa using found
          rw [same]
          simp only [List.eraseIdx_cons_zero, List.flatMap_cons, List.count_append]
          omega
      | succ index =>
          have later := ih (by simpa using found)
          simp only [List.eraseIdx_cons_succ, List.flatMap_cons, List.count_append]
          omega

end Tables

/-- One place of a table that is indexed has another stock. -/
theorem count_flatMap_update {Index : Type*} [DecidableEq Index] {carrier : List Index}
    (distinct : carrier.Nodup) {index : Index} (member : index ∈ carrier) (table : Index → Place)
    (place : Place) (stock : Place → List Item) (item : Item) :
    (carrier.flatMap fun other => stock (Function.update table index place other)).count item +
        (stock (table index)).count item =
      (carrier.flatMap fun other => stock (table other)).count item +
        (stock place).count item := by
  induction carrier with
  | nil => cases member
  | cons first rest ih =>
      obtain ⟨absent, distinct⟩ := List.nodup_cons.mp distinct
      simp only [List.flatMap_cons, List.count_append]
      rcases List.mem_cons.mp member with here | later
      · have others : (rest.flatMap fun other => stock (Function.update table index place other)) =
            rest.flatMap fun other => stock (table other) := by
          apply List.flatMap_congr
          intro other listed
          have apart : other ≠ index := by
            intro same
            rw [same, here] at listed
            exact absent listed
          rw [Function.update_of_ne apart]
        rw [others, here, Function.update_self]
        omega
      · have apart : first ≠ index := by
          intro same
          rw [same] at absent
          exact absent later
        rw [Function.update_of_ne apart]
        have below := ih distinct later
        omega

/-- The next item is issued. -/
theorem Settled.issue {issued : Nat} {stock : List Nat} (settled : Settled issued stock) :
    Settled (issued + 1) (issued :: stock) := by
  intro item
  rw [List.count_cons, settled item]
  by_cases same : issued = item
  · simp [same]
  · simp only [beq_iff_eq, same, if_false, Nat.add_zero]
    split <;> split <;> omega

theorem Settled.of_count {issued : Nat} {stock other : List Nat} (settled : Settled issued stock)
    (same : ∀ item, other.count item = stock.count item) : Settled issued other := by
  intro item
  rw [same item]
  exact settled item

end MvsXinu.Stocks
