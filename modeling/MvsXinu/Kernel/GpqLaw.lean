import MvsXinu.Kernel.GpqArrays

/-!
# What a priority queue is for (`gpq.c`)

The elements that `enq` accepted stand in a line, in the order in which they came. `deq` takes
the first one of the greatest key out of it, and a scan by `seeq` shows the line in the order
in which `deq` would take it. A scan is under way from a `seeq` that returns an element to one
that returns `NULL`.
-/

namespace MvsXinu.Gpq

open MvsXinu.Memory (Heap)
open MvsXinu.StableOrder

set_option autoImplicit false

variable {Elt : Type*}

abbrev Line (Elt : Type*) := List (Int × Elt)

inductive Call (Elt : Type*) where
  | enq (elt : Option Elt) (key : Int)
  | deq
  | seeq

inductive Answer (Elt : Type*) where
  | left (slots : Int)
  | elt (elt : Option Elt)

/-- The line after a call that is answered as it should be. -/
inductive Serves (size : Nat) : Line Elt → Call Elt → Answer Elt → Line Elt → Prop where
  | full (line : Line Elt) (elt : Option Elt) (key : Int) (noRoom : line.length = size) :
      Serves size line (.enq elt key) (.left (-1)) line
  | taken (line : Line Elt) (elt : Elt) (key : Int) (room : line.length < size) :
      Serves size line (.enq (some elt) key) (.left ((size : Int) - (line.length + 1)))
        (line ++ [(key, elt)])
  | empty : Serves size [] .deq (.elt none) []
  | served (line : Line Elt) (item : Int × Elt) (rest : Line Elt)
      (first : Served Prod.fst line item rest) :
      Serves size line .deq (.elt (some item.2)) rest
  | seen (line : Line Elt) (elt : Option Elt) : Serves size line .seeq (.elt elt) line

inductive ServesAll (size : Nat) : Line Elt → List (Call Elt) → List (Answer Elt) → Line Elt →
    Prop where
  | done (line : Line Elt) : ServesAll size line [] [] line
  | more {line next last : Line Elt} {call : Call Elt} {answer : Answer Elt}
      {calls : List (Call Elt)} {answers : List (Answer Elt)}
      (serves : Serves size line call answer next) (rest : ServesAll size next calls answers last) :
      ServesAll size line (call :: calls) (answer :: answers) last

/-! ## Runs of the code -/

def Qinfo.call (qp : Qinfo Elt) : Call Elt → Option (Answer Elt × Qinfo Elt)
  | .enq elt key => (qp.enq elt key).map fun done => (.left done.1, done.2)
  | .deq => qp.deq.map fun done => (.elt done.1, done.2)
  | .seeq => some (.elt qp.seeq.1, qp.seeq.2)

/-- `idle` while no scan is under way. -/
structure Watched (Elt : Type*) where
  qp : Qinfo Elt
  idle : Bool

def idleAfter (idle : Bool) : Call Elt → Answer Elt → Bool
  | .seeq, .elt elt => elt.isNone
  | _, _ => idle

namespace Watched

def step (w : Watched Elt) (call : Call Elt) : Option (Answer Elt × Watched Elt) :=
  (w.qp.call call).map fun done => (done.1, ⟨done.2, idleAfter w.idle call done.1⟩)

def run (w : Watched Elt) : List (Call Elt) → Option (List (Answer Elt) × Watched Elt)
  | [] => some ([], w)
  | call :: calls =>
      (w.step call).bind fun done =>
        (done.2.run calls).map fun rest => (done.1 :: rest.1, rest.2)

/-- No `NULL` is put into the queue, and no `seeq` finds it empty while a scan is under way. -/
def Allowed (w : Watched Elt) : Call Elt → Prop
  | .enq elt _ => elt ≠ none
  | .deq => True
  | .seeq => w.idle = true ∨ w.qp.qCount ≠ 0

def AllowedAll (w : Watched Elt) : List (Call Elt) → Prop
  | [] => True
  | call :: calls => w.Allowed call ∧ ∀ done, w.step call = some done → done.2.AllowedAll calls

end Watched

namespace Qinfo

def seeqs : Nat → Qinfo Elt → List (Option Elt) × Qinfo Elt
  | 0, qp => ([], qp)
  | times + 1, qp =>
      let rest := seeqs times qp.seeq.2
      (qp.seeq.1 :: rest.1, rest.2)

def deqs : Nat → Qinfo Elt → Option (List (Option Elt) × Qinfo Elt)
  | 0, qp => some ([], qp)
  | times + 1, qp =>
      qp.deq.bind fun done => (deqs times done.2).map fun rest => (done.1 :: rest.1, rest.2)

/-- A scan from the head returns each element of the line once, in the order of `deq`, and then
`NULL`, with the queue as it was, so that the next one starts at the head. -/
structure ScanLaw (qp : Qinfo Elt) (line : Line Elt) : Prop where
  scanned : ∃ order emptied, order.Perm (line.map fun item => some item.2) ∧
    qp.deqs line.length = some (order, emptied) ∧
    qp.seeqs (line.length + 1) = (order ++ [none], qp)

end Qinfo

/-! ## The invariant -/

/-- The slots hold the line in the order in which it will be served. -/
structure Arranged (size : Nat) (w : Watched Elt) (line arranged : Line Elt) : Prop where
  sized : w.qp.Sized size
  slots : w.qp.contents = arranged.map fun item => (item.1, some item.2)
  stable : Stable Prod.fst line arranged
  seen : -1 ≤ w.qp.qSeen
  head : w.idle = true → w.qp.qSeen = -1

variable {size : Nat} {w : Watched Elt} {line arranged : Line Elt}

theorem Arranged.length (holds : Arranged size w line arranged) :
    w.qp.contents.length = line.length := by
  rw [holds.slots, List.length_map, holds.stable.length]

theorem Arranged.count (holds : Arranged size w line arranged) :
    w.qp.qCount = line.length := by
  rw [← Qinfo.contents_length holds.sized, holds.length]

theorem rdropWhile_stored (key : Int) (items : Line Elt) :
    (items.map fun item => (item.1, some item.2)).rdropWhile (Qinfo.lowerKey key) =
      (items.rdropWhile fun item => decide (item.1 < key)).map fun item => (item.1, some item.2) := by
  simp only [List.rdropWhile, ← List.map_reverse, List.dropWhile_map, Function.comp_def,
    Qinfo.lowerKey]

theorem rtakeWhile_stored (key : Int) (items : Line Elt) :
    (items.map fun item => (item.1, some item.2)).rtakeWhile (Qinfo.lowerKey key) =
      (items.rtakeWhile fun item => decide (item.1 < key)).map fun item => (item.1, some item.2) := by
  simp only [List.rtakeWhile, ← List.map_reverse, List.takeWhile_map, Function.comp_def,
    Qinfo.lowerKey]

/-- What a call is to do: it is answered as the line has it, and leaves the slots arranged. -/
def Keeps (size : Nat) (w : Watched Elt) (line : Line Elt) (call : Call Elt) : Prop :=
  ∃ answer after next rearranged, w.step call = some (answer, after) ∧
    Serves size line call answer next ∧ Arranged size after next rearranged

theorem enq_keeps (holds : Arranged size w line arranged) (elt : Elt) (key : Int) :
    Keeps size w line (.enq (some elt) key) := by
  have length := holds.length
  have count := holds.count
  have room := holds.sized.room
  by_cases full : line.length = size
  · have refused := Qinfo.enq_full holds.sized (some elt) key (by omega)
    refine ⟨.left (-1), w, line, arranged, ?_, .full line (some elt) key full, holds⟩
    rw [Watched.step, Qinfo.call, refused]
    rfl
  · obtain ⟨after, called, resized, seen, items⟩ :=
      Qinfo.enq_room holds.sized (some elt) key (by omega)
    have parts := List.rdropWhile_append_rtakeWhile
      (p := fun item : Int × Elt => decide (item.1 < key)) (l := arranged)
    rw [holds.slots, rdropWhile_stored, rtakeWhile_stored] at items
    have higher := kept_higher holds.stable.falls key
    have lower : ∀ item ∈ arranged.rtakeWhile (fun item => decide (item.1 < key)),
        item.1 < key := by
      intro item member
      simpa using List.mem_rtakeWhile_imp member
    have stable := holds.stable
    rw [← parts] at stable
    refine ⟨.left ((size : Int) - (line.length + 1)), ⟨after, w.idle⟩, line ++ [(key, elt)], _, ?_,
      .taken line elt key (by omega), resized, ?_, stable.insert (key, elt) higher lower,
      ?_, ?_⟩
    · rw [Watched.step, Qinfo.call, called, length]
      rfl
    · rw [items]
      simp
    · rw [seen]
      exact holds.seen
    · intro idle
      rw [seen]
      exact holds.head idle

theorem deq_keeps (holds : Arranged size w line arranged) : Keeps size w line .deq := by
  cases arranged with
  | nil =>
      have nobody : line = [] := List.eq_nil_of_length_eq_zero holds.stable.length.symm
      subst nobody
      have called := Qinfo.deq_empty holds.sized holds.slots
      refine ⟨.elt none, w, [], [], ?_, .empty, holds⟩
      rw [Watched.step, Qinfo.call, called]
      rfl
  | cons item rest =>
      obtain ⟨after, called, resized, seen, items⟩ := Qinfo.deq_head holds.sized holds.slots
      obtain ⟨left, first, stable⟩ := holds.stable.serve
      refine ⟨.elt (some item.2), ⟨after, w.idle⟩, left, rest, ?_, .served line item left first,
        resized, items, stable, ?_, ?_⟩
      · rw [Watched.step, Qinfo.call, called]
        rfl
      · rw [seen]
        exact holds.seen
      · intro idle
        rw [seen]
        exact holds.head idle

/-- A slot below `q_count`. -/
theorem Arranged.slot (holds : Arranged size w line arranged) (index : Nat)
    (inside : index < arranged.length) : w.qp.qElt.cell index = some arranged[index].2 := by
  have length := Qinfo.contents_length holds.sized
  have slots := holds.slots
  rw [slots, List.length_map] at length
  have total : w.qp.qCount.toNat = arranged.length := by omega
  have same : w.qp.contents[index]? =
      (arranged.map fun item => (item.1, some item.2))[index]? := by rw [slots]
  rw [Qinfo.contents, Qinfo.front, total, List.getElem?_map, List.getElem?_map,
    List.getElem?_range inside, List.getElem?_eq_getElem inside] at same
  exact congrArg Prod.snd (Option.some.inj same)

/-- With the place of the scan moved to `seen`. -/
def Qinfo.seenTo (qp : Qinfo Elt) (seen : Int) : Qinfo Elt := { qp with qSeen := seen }

theorem Arranged.moved (holds : Arranged size w line arranged) (seen : Int) (idle : Bool)
    (low : -1 ≤ seen) (head : idle = true → seen = -1) :
    Arranged size ⟨w.qp.seenTo seen, idle⟩ line arranged where
  sized := ⟨holds.sized.limit, holds.sized.some, holds.sized.room, holds.sized.keys,
    holds.sized.elts⟩
  slots := holds.slots
  stable := holds.stable
  seen := low
  head := head

/-- The two ways in which a `seeq` of a queue with elements ends. -/
theorem seeq_next (holds : Arranged size w line arranged) (index : Nat)
    (inside : index < arranged.length) (seen : w.qp.qSeen = (index : Int) - 1) :
    w.qp.seeq = (some arranged[index].2, w.qp.seenTo index) := by
  have count := holds.count
  have length := holds.stable.length
  have next : w.qp.qSeen + 1 = index := by omega
  rw [Qinfo.seeq, if_neg (by omega)]
  dsimp only
  rw [next, if_neg (by omega), holds.slot index inside]
  rfl

theorem seeq_end (qp : Qinfo Elt) (some : qp.qCount ≠ 0) (seen : qp.qCount ≤ qp.qSeen + 1) :
    qp.seeq = (none, qp.seenTo (-1)) := by
  rw [Qinfo.seeq, if_neg some]
  dsimp only
  rw [if_pos seen]
  rfl

theorem seeq_keeps (holds : Arranged size w line arranged) (allowed : w.Allowed .seeq) :
    Keeps size w line .seeq := by
  have count := holds.count
  have length := holds.stable.length
  have low := holds.seen
  by_cases empty : w.qp.qCount = 0
  · have idle : w.idle = true := allowed.resolve_right (not_not.mpr empty)
    have shown : w.qp.seeq = (none, w.qp) := by rw [Qinfo.seeq, if_pos empty]
    refine ⟨.elt none, ⟨w.qp, true⟩, line, arranged, ?_, .seen line none,
      holds.moved w.qp.qSeen true low fun _ => holds.head idle⟩
    rw [Watched.step, Qinfo.call, shown]
    rfl
  · by_cases more : w.qp.qSeen + 1 < w.qp.qCount
    · obtain ⟨index, isIndex⟩ := Int.eq_ofNat_of_zero_le (by omega : 0 ≤ w.qp.qSeen + 1)
      have inside : index < arranged.length := by omega
      have shown := seeq_next holds index inside (by omega)
      refine ⟨.elt (some arranged[index].2), ⟨w.qp.seenTo index, false⟩, line, arranged, ?_,
        .seen line _, holds.moved index false (by omega) (by simp)⟩
      rw [Watched.step, Qinfo.call, shown]
      rfl
    · have shown := seeq_end w.qp empty (by omega)
      refine ⟨.elt none, ⟨w.qp.seenTo (-1), true⟩, line, arranged, ?_, .seen line none,
        holds.moved (-1) true (by omega) (by simp)⟩
      rw [Watched.step, Qinfo.call, shown]
      rfl

theorem call_keeps (holds : Arranged size w line arranged) (call : Call Elt)
    (allowed : w.Allowed call) : Keeps size w line call := by
  cases call with
  | enq elt key =>
      cases elt with
      | none => exact absurd rfl allowed
      | some elt => exact enq_keeps holds elt key
  | deq => exact deq_keeps holds
  | seeq => exact seeq_keeps holds allowed

theorem run_keeps (calls : List (Call Elt)) (holds : Arranged size w line arranged)
    (allowed : w.AllowedAll calls) :
    ∃ answers after last rearranged, w.run calls = some (answers, after) ∧
      ServesAll size line calls answers last ∧ Arranged size after last rearranged := by
  induction calls generalizing w line arranged with
  | nil => exact ⟨[], w, line, arranged, rfl, .done line, holds⟩
  | cons call calls ih =>
      obtain ⟨answer, after, next, rearranged, stepped, serves, kept⟩ :=
        call_keeps holds call allowed.1
      obtain ⟨answers, later, last, final, ran, rest, held⟩ := ih kept (allowed.2 _ stepped)
      refine ⟨answer :: answers, later, last, final, ?_, .more serves rest, held⟩
      rw [Watched.run, stepped, Option.bind_some, ran]
      rfl

/-! ## Scans -/

theorem seeqs_from (more : Nat) (index : Nat) (holds : Arranged size w line arranged)
    (some : w.qp.qCount ≠ 0) (seen : w.qp.qSeen = (index : Int) - 1)
    (left : index + more = arranged.length) :
    w.qp.seeqs (more + 1) =
      ((arranged.drop index).map (fun item => Option.some item.2) ++ [none], w.qp.seenTo (-1)) := by
  have count := holds.count
  have length := holds.stable.length
  induction more generalizing index w with
  | zero =>
      have shown := seeq_end w.qp some (by omega)
      rw [Qinfo.seeqs, shown, List.drop_eq_nil_of_le (by omega)]
      rfl
  | succ more ih =>
      have inside : index < arranged.length := by omega
      have shown := seeq_next holds index inside seen
      have moved := holds.moved index false (by omega) (by simp)
      have rest := ih (index + 1) moved some (by push_cast; exact (add_sub_cancel_right _ _).symm)
        (by omega) count
      rw [Qinfo.seeqs, shown]
      dsimp only
      rw [rest, List.drop_eq_getElem_cons inside]
      rfl

theorem deqs_all (items : Line Elt) {qp : Qinfo Elt} (sized : qp.Sized size)
    (slots : qp.contents = items.map fun item => (item.1, some item.2)) :
    ∃ emptied, qp.deqs items.length = some (items.map fun item => some item.2, emptied) := by
  induction items generalizing qp with
  | nil => exact ⟨qp, rfl⟩
  | cons item rest ih =>
      obtain ⟨after, called, resized, _, items⟩ := Qinfo.deq_head sized slots
      obtain ⟨emptied, others⟩ := ih resized items
      refine ⟨emptied, ?_⟩
      rw [List.length_cons, Qinfo.deqs, called, Option.bind_some, others]
      rfl

theorem Arranged.scans (holds : Arranged size w line arranged) (idle : w.idle = true) :
    w.qp.ScanLaw line := by
  have count := holds.count
  have length := holds.stable.length
  have head := holds.head idle
  have unmoved : w.qp.seenTo (-1) = w.qp := by
    rw [Qinfo.seenTo, ← head]
  obtain ⟨emptied, drained⟩ := deqs_all arranged holds.sized holds.slots
  rw [length] at drained
  refine ⟨arranged.map fun item => some item.2, emptied, holds.stable.perm.map _, drained, ?_⟩
  by_cases empty : w.qp.qCount = 0
  · have nobody : line.length = 0 := by omega
    have none : arranged = [] := List.eq_nil_of_length_eq_zero (by omega)
    have shown : w.qp.seeq = (Option.none, w.qp) := by rw [Qinfo.seeq, if_pos empty]
    rw [nobody, none, Qinfo.seeqs, shown]
    rfl
  · have scanned := seeqs_from line.length 0 holds empty head (by omega)
    rw [unmoved] at scanned
    exact scanned

/-! ## Queues of `newq` -/

/-- Below `2^30 - 1` elements the size of the arrays in octets is a word. -/
theorem arrayWords_room (size : BitVec 32) (small : size.toNat ≤ 2 ^ 30 - 2) :
    size.toNat ≤ arrayWords size := by
  have octets : (4 * size).toNat = 4 * size.toNat := by
    rw [BitVec.toNat_mul]
    have four : (4 : BitVec 32).toNat = 4 := rfl
    rw [four]
    omega
  rw [arrayWords, octets, Memory.roundmb, Memory.word]
  omega

theorem createq_arranged {heap after : Heap} {size : BitVec 32} {keys : Int → Int}
    {elts : Int → Option Elt} {qp : Qinfo Elt}
    (made : createq heap size keys elts = some (qp, after)) (small : size.toNat ≤ 2 ^ 30 - 2) :
    Arranged size.toNat ⟨qp, true⟩ [] [] := by
  have room := arrayWords_room size small
  have signed : size.toInt = size.toNat := by
    rw [BitVec.toInt_eq_toNat_cond, if_pos (by omega)]
  rw [createq] at made
  obtain ⟨elt, _, made⟩ := Option.bind_eq_some_iff.mp made
  obtain ⟨key, _, made⟩ := Option.map_eq_some_iff.mp made
  rw [← (Prod.mk.inj made).1]
  exact ⟨⟨signed, le_refl 0, by dsimp only; omega, room, room⟩, rfl, stable_nil _, le_refl _,
    fun _ => rfl⟩

/-- A queue for four elements from a heap at `0x1000`. -/
def fourQueue : Qinfo Nat where
  qMax := 4
  qCount := 0
  qSeen := -1
  qKey := ⟨4, fun _ => 0⟩
  qElt := ⟨4, fun _ => none⟩

def afterQueue : Heap := ⟨[⟨0x1020, Memory.heapLen - 32⟩], 0x1000 + Memory.heapLen - 1⟩

theorem fourQueue_made :
    createq (Memory.meminit 0x1000) 4 (fun _ => 0) (fun _ => none) = some (fourQueue, afterQueue) :=
  rfl

/-- `seeq` finds the queue empty in the middle of a scan and leaves `q_seen` where it is. -/
def abandonedScan : List (Call Nat) :=
  [.enq (some 1) 0, .seeq, .deq, .seeq, .enq (some 2) 0, .enq (some 3) 0]

end MvsXinu.Gpq
