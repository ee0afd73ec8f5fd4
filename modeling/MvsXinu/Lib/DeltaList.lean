import Mathlib.Algebra.Ring.Int.Defs
import Mathlib.Data.List.TakeWhile

/-!
# Delta lists

A list of items with a time each, where the key of an item is its time less that of the item
before it; the first key counts from a base. `insert`, `remove` and `advance` say how the keys
change with the list, so that the times of the other items stay. From the base 0 the times are
the sums of the keys.
-/

namespace MvsXinu.DeltaList

set_option autoImplicit false

variable {Item : Type*} {key after due : Item → Int} {base : Int}

def Deltas (key due : Item → Int) : Int → List Item → Prop
  | _, [] => True
  | base, item :: rest => due item = base + key item ∧ Deltas key due (due item) rest

/-- The time of the last item, or the base. -/
def endTime (due : Item → Int) (base : Int) (items : List Item) : Int :=
  items.foldl (fun _ item => due item) base

theorem deltas_append {front back : List Item} :
    Deltas key due base (front ++ back) ↔
      Deltas key due base front ∧ Deltas key due (endTime due base front) back := by
  induction front generalizing base with
  | nil => simp [Deltas, endTime]
  | cons item rest ih =>
      simp only [List.cons_append, Deltas, endTime, List.foldl_cons, and_assoc]
      rw [ih]
      rfl

theorem Deltas.congr {items : List Item} {later : Item → Int}
    (deltas : Deltas key due base items) (sameKey : ∀ item ∈ items, after item = key item)
    (sameDue : ∀ item ∈ items, later item = due item) : Deltas after later base items := by
  induction items generalizing base with
  | nil => trivial
  | cons item rest ih =>
      obtain ⟨first, others⟩ := deltas
      rw [List.forall_mem_cons] at sameKey sameDue
      refine ⟨?_, ?_⟩
      · rw [sameKey.1, sameDue.1]
        exact first
      · rw [sameDue.1]
        exact ih others sameKey.2 sameDue.2

theorem endTime_congr {later : Item → Int} {items : List Item}
    (same : ∀ item ∈ items, later item = due item) :
    endTime later base items = endTime due base items := by
  induction items generalizing base with
  | nil => rfl
  | cons item rest ih =>
      rw [List.forall_mem_cons] at same
      simp only [endTime, List.foldl_cons, same.1]
      exact ih same.2

theorem endTime_mem {items : List Item} (some : items ≠ []) :
    ∃ last ∈ items, endTime due base items = due last := by
  obtain ⟨front, last, shape⟩ := (items.eq_nil_or_concat).resolve_left some
  refine ⟨last, ?_, ?_⟩
  · rw [shape]
    simp
  · rw [shape]
    simp [endTime]

/-- The new item takes its key from the time before it, the next item gives as much up. -/
theorem Deltas.insert {front back : List Item} {item : Item}
    (deltas : Deltas key due base (front ++ back))
    (left : after item = due item - endTime due base front)
    (first : ∀ next ∈ back.head?, after next = key next - after item)
    (sameFront : ∀ other ∈ front, after other = key other)
    (sameBack : ∀ other ∈ back.tail, after other = key other) :
    Deltas after due base (front ++ item :: back) := by
  rw [deltas_append] at deltas ⊢
  obtain ⟨before, behind⟩ := deltas
  refine ⟨before.congr sameFront (fun _ _ => rfl), by omega, ?_⟩
  cases back with
  | nil => trivial
  | cons next rest =>
      obtain ⟨nextDue, others⟩ := behind
      have given := first next rfl
      exact ⟨by omega, others.congr sameBack (fun _ _ => rfl)⟩

/-- What is left of the removed item's key goes to the next item. -/
theorem Deltas.remove {front back : List Item} {item : Item}
    (deltas : Deltas key due base (front ++ item :: back))
    (first : ∀ next ∈ back.head?, after next = key next + key item)
    (sameFront : ∀ other ∈ front, after other = key other)
    (sameBack : ∀ other ∈ back.tail, after other = key other) :
    Deltas after due base (front ++ back) := by
  rw [deltas_append] at deltas ⊢
  obtain ⟨before, itemDue, behind⟩ := deltas
  refine ⟨before.congr sameFront (fun _ _ => rfl), ?_⟩
  cases back with
  | nil => trivial
  | cons next rest =>
      obtain ⟨nextDue, others⟩ := behind
      have given := first next rfl
      exact ⟨by omega, others.congr sameBack (fun _ _ => rfl)⟩

theorem Deltas.advance {items : List Item} (deltas : Deltas key due base items)
    (first : ∀ item ∈ items.head?, after item = key item - 1)
    (same : ∀ item ∈ items.tail, after item = key item) :
    Deltas after due (base + 1) items := by
  cases items with
  | nil => trivial
  | cons item rest =>
      obtain ⟨itemDue, others⟩ := deltas
      have given := first item rfl
      exact ⟨by omega, others.congr same (fun _ _ => rfl)⟩

/-- Where no key is negative the times do not decrease. -/
theorem Deltas.base_le {items : List Item} (deltas : Deltas key due base items)
    (rising : ∀ item ∈ items, 0 ≤ key item) : ∀ item ∈ items, base ≤ due item := by
  induction items generalizing base with
  | nil =>
      intro item member
      cases member
  | cons first rest ih =>
      obtain ⟨firstDue, others⟩ := deltas
      rw [List.forall_mem_cons] at rising
      intro item member
      rcases List.mem_cons.mp member with rfl | inRest
      · have nonneg := rising.1
        omega
      · have later := ih others rising.2 item inRest
        have nonneg := rising.1
        omega

theorem Deltas.le_base {items : List Item} (deltas : Deltas key due base items)
    (falling : ∀ item ∈ items, key item ≤ 0) : ∀ item ∈ items, due item ≤ base := by
  induction items generalizing base with
  | nil =>
      intro item member
      cases member
  | cons first rest ih =>
      obtain ⟨firstDue, others⟩ := deltas
      rw [List.forall_mem_cons] at falling
      intro item member
      rcases List.mem_cons.mp member with rfl | inRest
      · have nonpos := falling.1
        omega
      · have earlier := ih others falling.2 item inRest
        have nonpos := falling.1
        omega

/-- Where no key is negative, taking the items whose keys are used up takes those whose time
has come, and the rest counts from the same base. -/
theorem Deltas.take_due {items : List Item} (deltas : Deltas key due base items)
    (rising : ∀ item ∈ items, 0 ≤ key item) :
    (∀ item ∈ items.takeWhile (fun item => key item ≤ 0), due item ≤ base) ∧
      (∀ item ∈ items.dropWhile (fun item => key item ≤ 0), base < due item) ∧
      Deltas key due base (items.dropWhile (fun item => key item ≤ 0)) := by
  induction items with
  | nil => simp [Deltas]
  | cons first rest ih =>
      have firstDue := deltas.1
      have nonneg := rising first List.mem_cons_self
      by_cases used : key first ≤ 0
      · have others : Deltas key due base rest := by
          have same : due first = base := by omega
          rw [← same]
          exact deltas.2
        obtain ⟨taken, left, kept⟩ := ih others (fun item member =>
          rising item (List.mem_cons_of_mem _ member))
        rw [List.takeWhile_cons_of_pos (by simpa using used),
          List.dropWhile_cons_of_pos (by simpa using used)]
        refine ⟨?_, left, kept⟩
        rw [List.forall_mem_cons]
        exact ⟨by omega, taken⟩
      · rw [List.takeWhile_cons_of_neg (by simpa using used),
          List.dropWhile_cons_of_neg (by simpa using used)]
        refine ⟨by simp, ?_, deltas⟩
        have later := deltas.2.base_le (fun item member =>
          rising item (List.mem_cons_of_mem _ member))
        rw [List.forall_mem_cons]
        refine ⟨by omega, ?_⟩
        intro item member
        have bound := later item member
        omega

theorem used_up_congr {items : List Item} (same : ∀ item ∈ items, after item = key item) :
    items.takeWhile (fun item => after item ≤ 0) = items.takeWhile (fun item => key item ≤ 0) ∧
      items.dropWhile (fun item => after item ≤ 0) =
        items.dropWhile (fun item => key item ≤ 0) := by
  induction items with
  | nil => exact ⟨rfl, rfl⟩
  | cons first rest ih =>
      rw [List.forall_mem_cons] at same
      obtain ⟨taken, dropped⟩ := ih same.2
      simp only [List.takeWhile_cons, List.dropWhile_cons, same.1, taken, dropped, and_self]

/-- A first key below zero is lost with its item, but where no key is above zero the list is
taken whole. -/
theorem Deltas.take_all {items : List Item} (deltas : Deltas key due base items)
    (falling : ∀ item ∈ items, key item ≤ 0) :
    (∀ item ∈ items.takeWhile (fun item => key item ≤ 0), due item ≤ base) ∧
      items.dropWhile (fun item => key item ≤ 0) = [] := by
  have none : items.dropWhile (fun item => key item ≤ 0) = [] := by
    rw [List.dropWhile_eq_nil_iff]
    intro item member
    simpa using falling item member
  refine ⟨?_, none⟩
  intro item member
  exact deltas.le_base falling item (List.takeWhile_subset _ member)

/-- Where none but the first key is negative the list is in the order of the times. -/
theorem Deltas.sorted {items : List Item} (deltas : Deltas key due base items)
    (rising : ∀ item ∈ items.tail, 0 ≤ key item) :
    items.Pairwise fun first second => due first ≤ due second := by
  induction items generalizing base with
  | nil => exact List.Pairwise.nil
  | cons item rest ih =>
      obtain ⟨_, others⟩ := deltas
      rw [List.tail_cons] at rising
      refine List.pairwise_cons.mpr ⟨others.base_le rising, ih others ?_⟩
      exact fun other member => rising other (List.mem_of_mem_tail member)

section PrefixSums

variable [DecidableEq Item]

/-- The keys up to that of the item, and its own. -/
def prefixSum (key : Item → Int) (items : List Item) (item : Item) : Int :=
  ((items.takeWhile (· ≠ item)).map key).sum + key item

theorem prefixSum_mid {front : List Item} {item : Item} (absent : item ∉ front)
    (back : List Item) :
    prefixSum key (front ++ item :: back) item = (front.map key).sum + key item := by
  have passed : ∀ other ∈ front, (decide (other ≠ item)) = true := by
    intro other member
    rw [decide_eq_true_eq]
    rintro rfl
    exact absent member
  rw [prefixSum, List.takeWhile_append_of_pos passed, List.takeWhile_cons_of_neg (by simp),
    List.append_nil]

theorem prefixSum_first (item : Item) (rest : List Item) :
    prefixSum key (item :: rest) item = key item := by
  have alone : prefixSum key ([] ++ item :: rest) item =
      (([] : List Item).map key).sum + key item := prefixSum_mid List.not_mem_nil rest
  rw [List.nil_append, List.map_nil, List.sum_nil, Int.zero_add] at alone
  exact alone

theorem prefixSum_rest {first item : Item} (away : first ≠ item) (rest : List Item) :
    prefixSum key (first :: rest) item = key first + prefixSum key rest item := by
  rw [prefixSum, List.takeWhile_cons_of_pos (by simpa using away), List.map_cons, List.sum_cons,
    Int.add_assoc]
  rfl

/-- The times of a delta list are its prefix sums. -/
theorem Deltas.eq_prefixSum {items : List Item} (deltas : Deltas key due base items)
    (nodup : items.Nodup) : ∀ item ∈ items, due item = base + prefixSum key items item := by
  induction items generalizing base with
  | nil =>
      intro item member
      cases member
  | cons first rest ih =>
      obtain ⟨firstDue, others⟩ := deltas
      obtain ⟨absent, nodup⟩ := List.nodup_cons.mp nodup
      intro item member
      rcases List.mem_cons.mp member with rfl | inRest
      · rw [prefixSum_first]
        exact firstDue
      · have away : first ≠ item := by
          rintro rfl
          exact absent inRest
        rw [ih others nodup item inRest, prefixSum_rest away, firstDue, Int.add_assoc]

theorem deltas_prefixSum (key : Item → Int) {items : List Item} (nodup : items.Nodup)
    (base : Int) : Deltas key (fun item => base + prefixSum key items item) base items := by
  induction items generalizing base with
  | nil => trivial
  | cons first rest ih =>
      obtain ⟨absent, nodup⟩ := List.nodup_cons.mp nodup
      have others := ih nodup (base + key first)
      have firstDue : base + prefixSum key (first :: rest) first = base + key first := by
        rw [prefixSum_first]
      refine ⟨firstDue, ?_⟩
      dsimp only
      rw [firstDue]
      refine others.congr (fun _ _ => rfl) fun item member => ?_
      have away : first ≠ item := by
        rintro rfl
        exact absent member
      rw [prefixSum_rest away, Int.add_assoc]

end PrefixSums

end MvsXinu.DeltaList
