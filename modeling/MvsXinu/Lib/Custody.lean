import Mathlib.Data.List.Perm.Basic
import Mathlib.Data.List.Count
import Mathlib.Data.List.Nodup

/-!
# Custody of pooled items

The items of a pool are free, being filled or in flight. A deed takes one item from
the stock of one stage to the stock of the next, and the log keeps the deeds. As long
as every change is such a move, each item is in one stock, in the stage that its deeds
have brought it to.
-/

namespace MvsXinu.Custody

set_option autoImplicit false

inductive Stage where
  | free
  | filling
  | flying
  deriving DecidableEq, Repr

inductive Act where
  | get
  | fill
  | send
  | release
  deriving DecidableEq, Repr

structure Deed (Item : Type*) where
  act : Act
  item : Item
  deriving DecidableEq, Repr

/-- What may be done in a stage, and the stage it leads to. -/
def Stage.after : Stage → Act → Option Stage
  | .free, .get => some .filling
  | .filling, .fill => some .filling
  | .filling, .send => some .flying
  | .flying, .release => some .free
  | _, _ => none

variable {Item : Type*} [DecidableEq Item]

def lifeStep (item : Item) (stage : Option Stage) (deed : Deed Item) : Option Stage :=
  if deed.item = item then stage.bind fun stage => stage.after deed.act else stage

/-- The stage of an item that was free when the log began; `none` after a deed that was
not to be done to it. -/
def life (item : Item) (log : List (Deed Item)) : Option Stage :=
  log.foldl (lifeStep item) (some .free)

theorem life_snoc_other (item : Item) (log : List (Deed Item)) (deed : Deed Item)
    (other : deed.item ≠ item) : life item (log ++ [deed]) = life item log := by
  rw [life, List.foldl_append, List.foldl_cons, List.foldl_nil, lifeStep, if_neg other, life]

theorem life_snoc_same (log : List (Deed Item)) (deed : Deed Item) (source target : Stage)
    (stage : life deed.item log = some source) (lawful : source.after deed.act = some target) :
    life deed.item (log ++ [deed]) = some target := by
  rw [life, List.foldl_append, List.foldl_cons, List.foldl_nil, lifeStep, if_pos rfl]
  rw [life] at stage
  rw [stage, Option.bind_some, lawful]

structure Holdings (Item : Type*) where
  stock : Stage → List Item
  log : List (Deed Item)

def Holdings.items (holdings : Holdings Item) : List Item :=
  holdings.stock .free ++ holdings.stock .filling ++ holdings.stock .flying

/-- Each of `all` is in one stock, in the stage that the log says. -/
structure Sound (all : List Item) (holdings : Holdings Item) : Prop where
  complete : holdings.items.Perm all
  staged : ∀ stage, ∀ item ∈ holdings.stock stage, life item holdings.log = some stage

/-- One deed, counted in the stocks that it takes the item from and brings it to. -/
structure Moved (before after : Holdings Item) (deed : Deed Item) (source target : Stage) :
    Prop where
  lawful : source.after deed.act = some target
  present : deed.item ∈ before.stock source
  counted : ∀ stage item,
    (after.stock stage).count item + (if stage = source ∧ item = deed.item then 1 else 0) =
      (before.stock stage).count item + (if stage = target ∧ item = deed.item then 1 else 0)
  logged : after.log = before.log ++ [deed]

/-- The stocks are the same, in another order. -/
structure Rearranged (before after : Holdings Item) : Prop where
  counted : ∀ stage, (after.stock stage).Perm (before.stock stage)
  logged : after.log = before.log

theorem count_items (holdings : Holdings Item) (item : Item) :
    holdings.items.count item = (holdings.stock .free).count item +
      (holdings.stock .filling).count item + (holdings.stock .flying).count item := by
  simp only [Holdings.items, List.count_append]

theorem Moved.count_items_eq {before after : Holdings Item} {deed : Deed Item}
    {source target : Stage} (moved : Moved before after deed source target) (item : Item) :
    after.items.count item = before.items.count item := by
  rw [count_items, count_items]
  have free := moved.counted .free item
  have filling := moved.counted .filling item
  have flying := moved.counted .flying item
  by_cases same : item = deed.item
  · simp only [same, and_true] at free filling flying ⊢
    cases source <;> cases target <;> simp at free filling flying <;> omega
  · simp only [same, and_false, if_false] at free filling flying
    omega

theorem Sound.moved {all : List Item} {before after : Holdings Item} {deed : Deed Item}
    {source target : Stage} (distinct : all.Nodup) (sound : Sound all before)
    (moved : Moved before after deed source target) : Sound all after := by
  constructor
  · rw [List.perm_iff_count]
    intro item
    rw [moved.count_items_eq item]
    exact sound.complete.count_eq item
  · intro stage item member
    rw [moved.logged]
    by_cases same : deed.item = item
    · subst same
      have reached := life_snoc_same before.log deed source target
        (sound.staged source deed.item moved.present) moved.lawful
      -- the item is in one stock only, and the target's has it
      have atMost : after.items.count deed.item ≤ 1 := by
        rw [moved.count_items_eq, sound.complete.count_eq]
        exact List.nodup_iff_count_le_one.mp distinct deed.item
      rw [count_items] at atMost
      have here : 0 < (after.stock stage).count deed.item := List.count_pos_iff.mpr member
      have present : 0 < (before.stock source).count deed.item :=
        List.count_pos_iff.mpr moved.present
      have arrived : 0 < (after.stock target).count deed.item := by
        have counted := moved.counted target deed.item
        simp only [and_true, if_true] at counted
        split at counted
        · next same => rw [← same] at present; omega
        · omega
      have stageEq : stage = target := by
        by_contra different
        cases stage <;> cases target <;> first | exact absurd rfl different | omega
      rw [reached, stageEq]
    · rw [life_snoc_other item before.log deed same]
      apply sound.staged stage item
      have counted := moved.counted stage item
      have notDeed : item ≠ deed.item := fun equal => same equal.symm
      simp only [notDeed, and_false, if_false, Nat.add_zero] at counted
      rw [← List.count_pos_iff, ← counted]
      exact List.count_pos_iff.mpr member

theorem Sound.rearranged {all : List Item} {before after : Holdings Item}
    (sound : Sound all before) (rearranged : Rearranged before after) : Sound all after := by
  constructor
  · refine List.Perm.trans ?_ sound.complete
    exact ((rearranged.counted .free).append (rearranged.counted .filling)).append
      (rearranged.counted .flying)
  · intro stage item member
    rw [rearranged.logged]
    exact sound.staged stage item ((rearranged.counted stage).mem_iff.mp member)

/-- No item was ever given, sent or taken back out of turn. -/
theorem Sound.life_ne_none {all : List Item} {holdings : Holdings Item}
    (sound : Sound all holdings) (item : Item) (member : item ∈ all) :
    life item holdings.log ≠ none := by
  have present : item ∈ holdings.items := sound.complete.mem_iff.mpr member
  simp only [Holdings.items, List.mem_append] at present
  rcases present with (free | filling) | flying
  · simp [sound.staged .free item free]
  · simp [sound.staged .filling item filling]
  · simp [sound.staged .flying item flying]

end MvsXinu.Custody
