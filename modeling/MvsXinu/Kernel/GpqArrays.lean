import MvsXinu.Kernel.Gpq
import MvsXinu.Lib.StableOrder
import MvsXinu.Memory.Heap

/-!
# The arrays of a priority queue (`gpq.c`)

`q_key` and `q_elt` are shifted by hand, towards the tail by `enq` and towards the head by
`deq`. A store outside of an array would go into somebody else's memory; it has no result
here. The calls follow each other, so that neither the interrupt mask nor the mutex that the
type of the queue selects has anything to do.
-/

namespace MvsXinu.Gpq

open MvsXinu.Memory (Heap getmem roundmb)
open MvsXinu.StableOrder

set_option autoImplicit false

/-- The words of a block that `getmem` gave out. -/
structure Cells (Word : Type*) where
  size : Nat
  cell : Int → Word

def Cells.put {Word : Type*} (cells : Cells Word) (index : Int) (word : Word) :
    Option (Cells Word) :=
  if 0 ≤ index ∧ index < cells.size then
    some { cells with cell := Function.update cells.cell index word }
  else none

/-- `none` among the elements is `NULL`. -/
structure Qinfo (Elt : Type*) where
  qMax : Int
  qCount : Int
  qSeen : Int
  qKey : Cells Int
  qElt : Cells (Option Elt)

variable {Elt : Type*}

/-- The words of an array for `size` elements: `sizeof` times `size` is an unsigned word. -/
def arrayWords (size : BitVec 32) : Nat := roundmb (4 * size).toNat / 4

/-- A queue that `newq` returns; the arrays hold whatever was in their memory. -/
def createq (heap : Heap) (size : BitVec 32) (keys : Int → Int) (elts : Int → Option Elt) :
    Option (Qinfo Elt × Heap) :=
  (getmem heap (4 * size)).bind fun elt => (getmem elt.2 (4 * size)).map fun key =>
    ({ qMax := size.toInt, qCount := 0, qSeen := -1
       qKey := ⟨arrayWords size, keys⟩, qElt := ⟨arrayWords size, elts⟩ }, key.2)

namespace Qinfo

def setSlot (qp : Qinfo Elt) (slot key : Int) (elt : Option Elt) : Option (Qinfo Elt) :=
  (qp.qKey.put slot key).bind fun keys =>
    (qp.qElt.put slot elt).map fun elts => { qp with qKey := keys, qElt := elts }

/-- The scan of `enq` from the tail; the index at which it stops, `-1` in front of the head. -/
def scanTail (qp : Qinfo Elt) (key : Int) : Nat → Int
  | 0 => -1
  | i + 1 => if qp.qKey.cell i < key then qp.scanTail key i else i

/-- The loop of `enq` over `j`, which is one less than the argument. -/
def shiftUp (i : Int) : Nat → Qinfo Elt → Option (Qinfo Elt)
  | 0, qp => some qp
  | j + 1, qp =>
      if i < j then
        (qp.setSlot (j + 1) (qp.qKey.cell j) (qp.qElt.cell j)).bind (shiftUp i j)
      else some qp

/-- The loop of `deq` over `i`. -/
def shiftDown : Nat → Int → Qinfo Elt → Option (Qinfo Elt)
  | 0, _, qp => some qp
  | turns + 1, i, qp =>
      if i < qp.qCount then
        (qp.setSlot (i - 1) (qp.qKey.cell i) (qp.qElt.cell i)).bind (shiftDown turns (i + 1))
      else some qp

/-- `q_count` and `q_max` are signed. -/
def enq (qp : Qinfo Elt) (elt : Option Elt) (key : Int) : Option (Int × Qinfo Elt) :=
  if qp.qMax ≤ qp.qCount then some (-1, qp)
  else
    let qp := if qp.qCount < 0 then { qp with qCount := 0 } else qp
    let i := qp.scanTail key qp.qCount.toNat
    (shiftUp i qp.qCount.toNat qp).bind fun shifted =>
      (shifted.setSlot (i + 1) key elt).map fun stored =>
        (qp.qMax - (qp.qCount + 1), { stored with qCount := qp.qCount + 1 })

def deq (qp : Qinfo Elt) : Option (Option Elt × Qinfo Elt) :=
  if qp.qCount ≤ 0 then some (none, qp)
  else
    (shiftDown (qp.qCount - 1).toNat 1 qp).map fun shifted =>
      (qp.qElt.cell 0, { shifted with qCount := qp.qCount - 1 })

def seeq (qp : Qinfo Elt) : Option Elt × Qinfo Elt :=
  if qp.qCount = 0 then (none, qp)
  else
    let qp := { qp with qSeen := qp.qSeen + 1 }
    if qp.qCount ≤ qp.qSeen then (none, { qp with qSeen := -1 })
    else (qp.qElt.cell qp.qSeen, qp)

/-! ## The slots -/

def slot (qp : Qinfo Elt) (index : Int) : Int × Option Elt :=
  (qp.qKey.cell index, qp.qElt.cell index)

/-- The slots below `count`. -/
def front (qp : Qinfo Elt) (count : Nat) : List (Int × Option Elt) :=
  (List.range count).map fun index : Nat => qp.slot index

def contents (qp : Qinfo Elt) : List (Int × Option Elt) := qp.front qp.qCount.toNat

/-- What `newq` has set up and the calls keep. -/
structure Sized (size : Nat) (qp : Qinfo Elt) : Prop where
  limit : qp.qMax = size
  some : 0 ≤ qp.qCount
  room : qp.qCount ≤ size
  keys : size ≤ qp.qKey.size
  elts : size ≤ qp.qElt.size

/-- Everything but the slots, which are given. -/
structure Changed (qp : Qinfo Elt) (slots : Int → Int × Option Elt) (after : Qinfo Elt) : Prop where
  limit : after.qMax = qp.qMax
  count : after.qCount = qp.qCount
  seen : after.qSeen = qp.qSeen
  keys : after.qKey.size = qp.qKey.size
  elts : after.qElt.size = qp.qElt.size
  slot : ∀ index, after.slot index = slots index

theorem Changed.trans {qp middle after : Qinfo Elt} {first second : Int → Int × Option Elt}
    (change : Changed qp first middle) (later : Changed middle second after) :
    Changed qp second after where
  limit := later.limit.trans change.limit
  count := later.count.trans change.count
  seen := later.seen.trans change.seen
  keys := later.keys.trans change.keys
  elts := later.elts.trans change.elts
  slot := later.slot

/-- Moved slots with a new count. -/
theorem Changed.resize {size : Nat} {qp after : Qinfo Elt} {slots : Int → Int × Option Elt}
    (change : Changed qp slots after) (sized : Sized size qp) (count : Int) (low : 0 ≤ count)
    (high : count ≤ size) : Sized size { after with qCount := count } where
  limit := change.limit.trans sized.limit
  some := low
  room := high
  keys := by
    have kept := change.keys
    have room := sized.keys
    dsimp only
    omega
  elts := by
    have kept := change.elts
    have room := sized.elts
    dsimp only
    omega

@[simp] theorem front_length (qp : Qinfo Elt) (count : Nat) : (qp.front count).length = count := by
  simp [front]

theorem front_succ (qp : Qinfo Elt) (count : Nat) :
    qp.front (count + 1) = qp.front count ++ [qp.slot count] := by
  simp [front, List.range_succ]

theorem setSlot_spec (qp : Qinfo Elt) (index key : Int) (elt : Option Elt) (low : 0 ≤ index)
    (keys : index < qp.qKey.size) (elts : index < qp.qElt.size) :
    ∃ after, qp.setSlot index key elt = some after ∧
      Changed qp (Function.update qp.slot index (key, elt)) after := by
  rw [setSlot, Cells.put, Cells.put, if_pos ⟨low, keys⟩, if_pos ⟨low, elts⟩]
  refine ⟨_, rfl, rfl, rfl, rfl, rfl, rfl, ?_⟩
  intro other
  by_cases same : other = index
  · rw [same]
    simp [slot]
  · simp [slot, same]

/-- Up to `count`, the slots behind `i` move one place towards the tail. -/
theorem shiftUp_spec (i : Int) (count : Nat) (qp : Qinfo Elt) (low : -1 ≤ i) (high : i < count)
    (keys : count < qp.qKey.size) (elts : count < qp.qElt.size) :
    ∃ after, shiftUp i count qp = some after ∧ Changed qp
      (fun index => if i + 1 < index ∧ index ≤ count then qp.slot (index - 1) else qp.slot index)
      after := by
  induction count generalizing qp with
  | zero =>
      refine ⟨qp, rfl, rfl, rfl, rfl, rfl, rfl, ?_⟩
      intro index
      rw [if_neg (by omega)]
  | succ j ih =>
      rw [shiftUp]
      by_cases more : i < j
      · obtain ⟨moved, stored, change⟩ := qp.setSlot_spec (j + 1) (qp.qKey.cell j) (qp.qElt.cell j)
          (by omega) (by omega) (by omega)
        obtain ⟨after, shifted, rest⟩ := ih moved more (by rw [change.keys]; omega)
          (by rw [change.elts]; omega)
        rw [if_pos more, stored, Option.bind_some]
        refine ⟨after, shifted, { change.trans rest with slot := ?_ }⟩
        intro index
        rw [rest.slot index]
        split_ifs with inner outer outer
        · rw [change.slot, Function.update_of_ne (by omega)]
        · omega
        · have last : index = (j : Int) + 1 := by omega
          rw [last, change.slot, Function.update_self, add_sub_cancel_right, slot]
        · rw [change.slot, Function.update_of_ne (by push_cast at outer; omega)]
      · rw [if_neg more]
        refine ⟨qp, rfl, rfl, rfl, rfl, rfl, rfl, ?_⟩
        intro index
        rw [if_neg (by push_cast; omega)]

/-- From `i` on, the slots below `q_count` move one place towards the head. -/
theorem shiftDown_spec (turns : Nat) (i : Int) (qp : Qinfo Elt) (low : 1 ≤ i)
    (all : i + turns = qp.qCount) (keys : qp.qCount ≤ qp.qKey.size)
    (elts : qp.qCount ≤ qp.qElt.size) :
    ∃ after, shiftDown turns i qp = some after ∧ Changed qp
      (fun index => if i - 1 ≤ index ∧ index < qp.qCount - 1 then qp.slot (index + 1)
        else qp.slot index) after := by
  induction turns generalizing i qp with
  | zero =>
      refine ⟨qp, rfl, rfl, rfl, rfl, rfl, rfl, ?_⟩
      intro index
      rw [if_neg (by push_cast at all; omega)]
  | succ turns ih =>
      push_cast at all
      obtain ⟨moved, stored, change⟩ := qp.setSlot_spec (i - 1) (qp.qKey.cell i) (qp.qElt.cell i)
        (by omega) (by omega) (by omega)
      obtain ⟨after, shifted, rest⟩ := ih (i + 1) moved (by omega)
        (by rw [change.count]; omega) (by rw [change.count, change.keys]; exact keys)
        (by rw [change.count, change.elts]; exact elts)
      rw [shiftDown, if_pos (by omega), stored, Option.bind_some]
      refine ⟨after, shifted, { change.trans rest with slot := ?_ }⟩
      intro index
      rw [rest.slot index, change.count]
      split_ifs with inner outer outer
      · rw [change.slot, Function.update_of_ne (by omega)]
      · omega
      · have first : index = i - 1 := by omega
        rw [first, change.slot, Function.update_self, sub_add_cancel, slot]
      · rw [change.slot, Function.update_of_ne (by omega)]

/-! ## The calls over the slots -/

theorem front_add (qp : Qinfo Elt) (count more : Nat) :
    qp.front (count + more) =
      qp.front count ++ (List.range more).map fun index : Nat => qp.slot (count + index) := by
  simp [front, List.range_add, Function.comp_def]

theorem front_congr {qp other : Qinfo Elt} (count : Nat)
    (same : ∀ index : Nat, index < count → other.slot index = qp.slot index) :
    other.front count = qp.front count := by
  apply List.map_congr_left
  intro index member
  exact same index (List.mem_range.mp member)

def lowerKey (key : Int) (item : Int × Option Elt) : Bool := decide (item.1 < key)

/-- The scan stops at the last slot that the list keeps in front. -/
theorem scanTail_spec (qp : Qinfo Elt) (key : Int) (count : Nat) :
    qp.scanTail key count = (((qp.front count).rdropWhile (lowerKey key)).length : Int) - 1 := by
  induction count with
  | zero => rfl
  | succ count ih =>
      rw [scanTail, front_succ, List.rdropWhile_concat]
      by_cases lower : qp.qKey.cell count < key
      · have goesOn : lowerKey key (qp.slot count) = true := decide_eq_true lower
        rw [if_pos lower, if_pos goesOn, ih]
      · have stops : ¬ lowerKey key (qp.slot count) = true := by
          simp [lowerKey, slot, lower]
        rw [if_neg lower, if_neg stops, List.length_append, front_length, List.length_singleton]
        push_cast
        omega

theorem contents_length {size : Nat} {qp : Qinfo Elt} (sized : Sized size qp) :
    (qp.contents.length : Int) = qp.qCount := by
  have some := sized.some
  rw [contents, front_length]
  omega

/-- The new element has its slot, and those behind it have moved. -/
theorem front_inserted (qp after : Qinfo Elt) (position rest : Nat) (item : Int × Option Elt)
    (own : after.slot position = item)
    (before : ∀ index : Nat, index < position → after.slot index = qp.slot index)
    (behind : ∀ index : Nat, index < rest →
      after.slot (position + 1 + index) = qp.slot (position + index)) :
    after.front (position + rest + 1) = qp.front position ++
      item :: (List.range rest).map fun index : Nat => qp.slot (position + index) := by
  rw [Nat.add_right_comm, front_add, front_succ, own, front_congr position before, List.append_assoc,
    List.singleton_append]
  congr 2
  apply List.map_congr_left
  intro index member
  rw [Nat.cast_add, Nat.cast_one]
  exact behind index (List.mem_range.mp member)

/-- Any division of the slots is one at a place. -/
theorem front_split (qp : Qinfo Elt) (first second : List (Int × Option Elt))
    (parts : first ++ second = qp.front (first.length + second.length)) :
    first = qp.front first.length ∧
      second = (List.range second.length).map fun index : Nat => qp.slot (first.length + index) := by
  rw [front_add] at parts
  exact List.append_inj parts (front_length qp first.length).symm

theorem enq_full {size : Nat} {qp : Qinfo Elt} (sized : Sized size qp) (elt : Option Elt)
    (key : Int) (full : size ≤ qp.contents.length) : qp.enq elt key = some (-1, qp) := by
  have length := contents_length sized
  have limit := sized.limit
  rw [enq, if_pos (by omega)]

theorem enq_room {size : Nat} {qp : Qinfo Elt} (sized : Sized size qp) (elt : Option Elt)
    (key : Int) (room : qp.contents.length < size) :
    ∃ after, qp.enq elt key = some ((size : Int) - (qp.contents.length + 1), after) ∧
      Sized size after ∧ after.qSeen = qp.qSeen ∧
      after.contents = qp.contents.rdropWhile (lowerKey key) ++
        (key, elt) :: qp.contents.rtakeWhile (lowerKey key) := by
  have length := contents_length sized
  have limit := sized.limit
  have some := sized.some
  have keys := sized.keys
  have elts := sized.elts
  obtain ⟨count, isCount⟩ := Int.eq_ofNat_of_zero_le some
  have parts := List.rdropWhile_append_rtakeWhile (l := qp.contents) (p := lowerKey key)
  set kept := qp.contents.rdropWhile (lowerKey key) with isKept
  set passed := qp.contents.rtakeWhile (lowerKey key) with isPassed
  have lengths := congrArg List.length parts
  rw [List.length_append] at lengths
  have scanned : qp.scanTail key qp.qCount.toNat = (kept.length : Int) - 1 :=
    scanTail_spec qp key qp.qCount.toNat
  obtain ⟨shifted, shifts, change⟩ := shiftUp_spec (kept.length - 1 : Int) count qp (by omega)
    (by omega) (by omega) (by omega)
  obtain ⟨stored, stores, store⟩ := shifted.setSlot_spec kept.length key elt (by omega)
    (by rw [change.keys]; omega) (by rw [change.elts]; omega)
  have called : qp.enq elt key = Option.some (qp.qMax - (qp.qCount + 1),
      { stored with qCount := qp.qCount + 1 }) := by
    rw [enq, if_neg (by omega), if_neg (by omega)]
    dsimp only
    rw [scanned, isCount, Int.toNat_natCast, shifts, Option.bind_some, sub_add_cancel, stores,
      Option.map_some]
  refine ⟨{ stored with qCount := qp.qCount + 1 }, ?_, ?_, ?_, ?_⟩
  · rw [called, limit, length]
  · exact (change.trans store).resize sized (qp.qCount + 1) (by omega) (by omega)
  · exact store.seen.trans change.seen
  · have total : (qp.qCount + 1).toNat = kept.length + passed.length + 1 := by omega
    have sum : qp.qCount.toNat = kept.length + passed.length := by omega
    rw [contents, sum] at parts
    obtain ⟨isFront, isBack⟩ := front_split qp kept passed parts
    have inserted := front_inserted qp stored kept.length passed.length (key, elt)
      (by rw [store.slot, Function.update_self])
      (by
        intro index near
        rw [store.slot, Function.update_of_ne (by omega), change.slot, if_neg (by omega)])
      (by
        intro index near
        rw [store.slot, Function.update_of_ne (by omega), change.slot, if_pos (by omega)]
        congr 1
        omega)
    rw [← isBack, ← isFront] at inserted
    rw [contents, total]
    exact inserted

theorem deq_empty {size : Nat} {qp : Qinfo Elt} (sized : Sized size qp) (empty : qp.contents = []) :
    qp.deq = some (none, qp) := by
  have length := contents_length sized
  rw [empty, List.length_nil] at length
  rw [deq, if_pos (by omega)]

theorem deq_head {size : Nat} {qp : Qinfo Elt} (sized : Sized size qp) {item : Int × Option Elt}
    {rest : List (Int × Option Elt)} (shape : qp.contents = item :: rest) :
    ∃ after, qp.deq = some (item.2, after) ∧ Sized size after ∧ after.qSeen = qp.qSeen ∧
      after.contents = rest := by
  have length := contents_length sized
  have room := sized.room
  have keys := sized.keys
  have elts := sized.elts
  rw [shape, List.length_cons] at length
  have total : qp.qCount.toNat = 1 + rest.length := by omega
  have single : qp.front 1 = [qp.slot 0] := rfl
  rw [contents, total, front_add, single, List.singleton_append] at shape
  obtain ⟨isHead, isRest⟩ := List.cons.inj shape
  obtain ⟨shifted, shifts, change⟩ := shiftDown_spec (qp.qCount - 1).toNat 1 qp (by omega)
    (by omega) (by omega) (by omega)
  refine ⟨{ shifted with qCount := qp.qCount - 1 }, ?_, ?_, ?_, ?_⟩
  · rw [deq, if_neg (by omega), shifts, Option.map_some, ← isHead]
    rfl
  · exact change.resize sized (qp.qCount - 1) (by omega) (by omega)
  · exact change.seen
  · have fewer : (qp.qCount - 1).toNat = rest.length := by omega
    rw [contents, fewer]
    apply Eq.trans _ isRest
    apply List.map_congr_left
    intro index member
    have near := List.mem_range.mp member
    have moved := change.slot index
    rw [if_pos (by omega)] at moved
    exact moved.trans (congrArg qp.slot (by push_cast; omega))

/-! ## The queue as a list -/

/-- `enq` and `deq` do to the arrays what the operations on lists do to the contents. -/
theorem enq_refines {size : Nat} {qp : Qinfo Elt} (sized : Sized size qp) (elt : Option Elt)
    (key : Int) :
    match Gpq.enq ⟨size, qp.contents⟩ elt key with
    | none => qp.enq elt key = some (-1, qp)
    | some (left, queue) => ∃ after, qp.enq elt key = some ((left : Int), after) ∧
        Sized size after ∧ after.contents = queue.items := by
  rw [Gpq.enq]
  dsimp only
  split_ifs with full
  · exact enq_full sized elt key full
  · obtain ⟨after, called, resized, _, items⟩ := enq_room sized elt key (by omega)
    refine ⟨after, ?_, resized, items⟩
    rw [called]
    congr 2
    omega

theorem deq_refines {size : Nat} {qp : Qinfo Elt} (sized : Sized size qp) :
    match Gpq.deq ⟨size, qp.contents⟩ with
    | none => qp.deq = some (none, qp)
    | some (elt, queue) => ∃ after, qp.deq = some (elt, after) ∧ Sized size after ∧
        after.contents = queue.items := by
  rw [Gpq.deq]
  cases shape : qp.contents with
  | nil => exact deq_empty sized shape
  | cons item rest =>
      obtain ⟨after, called, resized, _, items⟩ := deq_head sized shape
      exact ⟨after, called, resized, items⟩

end Qinfo

end MvsXinu.Gpq
