import MvsXinu.Memory.Constructors

/-!
# When a constructor is atomic

The searches through the tables find an entry exactly if there is a free one, and two arrays can
be had exactly if the free blocks have room for two. What a constructor does with a failure of
its later steps decides the law.
-/

namespace MvsXinu.Kernel

open MvsXinu.Rounds

set_option autoImplicit false

/-! ## Searches through the kernel's tables -/

theorem newsem_eq_scan (tries : Nat) (k : Xinu) :
    newsem tries k =
      match scan nsem (fun sem => (k.semaph sem).sstate = .free) tries k.nextsem with
      | (some sem, place) =>
          (sem, Xinu.setSem { k with nextsem := place } sem { k.semaph sem with sstate := .used })
      | (none, place) => (syserr, { k with nextsem := place }) := by
  induction tries generalizing k with
  | zero => rfl
  | succ tries ih =>
      have place : (if k.nextsem - 1 < 0 then nsem - 1 else k.nextsem - 1) = next nsem k.nextsem := by
        unfold next
        split_ifs <;> omega
      rw [newsem, scan, place]
      dsimp only
      split_ifs with free
      · rfl
      · rw [ih]

theorem newpid_eq_scan (tries : Nat) (k : Xinu) :
    newpid tries k =
      match scan nproc (fun pid => (k.proctab pid).pstate = .free) tries k.nextproc with
      | (some pid, place) => (pid, { k with nextproc := place })
      | (none, place) => (syserr, { k with nextproc := place }) := by
  induction tries generalizing k with
  | zero => rfl
  | succ tries ih =>
      have place : (if k.nextproc ≤ 0 then nproc - 1 else k.nextproc - 1) = next nproc k.nextproc :=
        rfl
      rw [newpid, scan, place]
      split_ifs with free
      · rfl
      · rw [ih]

/-- A semaphore is created exactly if there is a free one. -/
theorem screate_entry (k : Xinu) (count : BitVec 32) (inside : Inside nsem k.nextsem) :
    ∃ place, Inside nsem place ∧
      ((screate k count = (syserr, { k with nextsem := place }) ∧
          ∀ sem, Inside nsem sem → (k.semaph sem).sstate ≠ .free) ∨
        ∃ sem, Inside nsem sem ∧ (k.semaph sem).sstate = .free ∧
          screate k count = (sem, Xinu.setSem { k with nextsem := place } sem ⟨.used, count⟩)) := by
  obtain ⟨place, placed, ⟨fails, none⟩ | ⟨sem, isSem, free, finds⟩⟩ :=
    round_cases nsem (fun sem => (k.semaph sem).sstate = .free) inside
  · refine ⟨place, placed, Or.inl ⟨?_, none⟩⟩
    rw [screate, newsem_eq_scan, fails]
    rfl
  · refine ⟨place, placed, Or.inr ⟨sem, isSem, free, ?_⟩⟩
    have valid : ¬ sem = syserr := by
      unfold Inside at isSem
      unfold syserr
      omega
    rw [screate, newsem_eq_scan, finds]
    dsimp only
    rw [if_neg valid]
    simp [Xinu.setCount, Xinu.setSem]

/-- An entry is created exactly if there is a free one. -/
theorem create_entry (k : Xinu) (priority : BitVec 32) (high : ¬ priority.slt 1)
    (inside : Inside nproc k.nextproc) :
    ∃ place, Inside nproc place ∧
      ((create k true priority = (syserr, { k with nextproc := place }) ∧
          ∀ pid, Inside nproc pid → (k.proctab pid).pstate ≠ .free) ∨
        ∃ pid, Inside nproc pid ∧ (k.proctab pid).pstate = .free ∧
          create k true priority =
            (pid, Xinu.setEntry { k with nextproc := place } pid ⟨.susp, priority, 0, 0, 0⟩)) := by
  have attempts : ¬ (priority.slt 1 ∨ true = false) := by simpa using high
  obtain ⟨place, placed, ⟨fails, none⟩ | ⟨pid, isPid, free, finds⟩⟩ :=
    round_cases nproc (fun pid => (k.proctab pid).pstate = .free) inside
  · refine ⟨place, placed, Or.inl ⟨?_, none⟩⟩
    rw [create, if_neg attempts, newpid_eq_scan, fails]
    rfl
  · refine ⟨place, placed, Or.inr ⟨pid, isPid, free, ?_⟩⟩
    have valid : ¬ pid = syserr := by
      unfold Inside at isPid
      unfold syserr
      omega
    rw [create, if_neg attempts, newpid_eq_scan, finds]
    dsimp only
    rw [if_neg valid]

end MvsXinu.Kernel

namespace MvsXinu.Memory

open MvsXinu.Kernel (Xinu screate nsem nproc isbadsem screate_entry create_entry)
open MvsXinu.Ports (nports)
open MvsXinu.Rounds
open MvsXinu.Tiling (Separate)

set_option autoImplicit false

/-! ## Two arrays -/

theorem allot_cases (heap : Heap) (nbytes : BitVec 32) (filled : Filled heap) :
    allot heap nbytes = (none, heap) ∨ ∃ block memlist,
      allot heap nbytes = (some block, { heap with memlist := memlist }) ∧
        Takes heap { heap with memlist := memlist } block (block + roundmb nbytes.toNat) := by
  rw [allot, getmem]
  by_cases nothing : nbytes = 0 ∨ heap.memlist = []
  · rw [if_pos nothing]
    exact Or.inl rfl
  · rw [if_neg nothing]
    cases found : carve (roundmb nbytes.toNat) heap.memlist with
    | none => exact Or.inl rfl
    | some taken =>
        obtain ⟨block, memlist⟩ := taken
        exact Or.inr ⟨block, memlist, rfl, carve_takes filled found⟩

/-- Storage is given out exactly if there is room, which is then less by one block. -/
theorem allot_room (heap : Heap) (nbytes : BitVec 32) (positive : 0 < roundmb nbytes.toNat) :
    (allot heap nbytes = (none, heap) ∧ room (roundmb nbytes.toNat) heap.memlist = 0) ∨
      ∃ block after, allot heap nbytes = (some block, after) ∧
        room (roundmb nbytes.toNat) heap.memlist = room (roundmb nbytes.toNat) after.memlist + 1 := by
  have some : nbytes ≠ 0 := by
    intro zero
    have nothing : roundmb (0 : BitVec 32).toNat = 0 := rfl
    rw [zero, nothing] at positive
    omega
  rw [allot, getmem]
  by_cases nothing : nbytes = 0 ∨ heap.memlist = []
  · rw [if_pos nothing, nothing.resolve_left some]
    exact Or.inl ⟨rfl, rfl⟩
  · rw [if_neg nothing]
    rcases room_carve (roundmb nbytes.toNat) positive heap.memlist with
      ⟨fails, empty⟩ | ⟨block, after, found, less⟩
    · rw [fails]
      exact Or.inl ⟨rfl, empty⟩
    · rw [found]
      exact Or.inr ⟨block, { heap with memlist := after }, rfl, less⟩

/-- What `newq` does for its arrays. -/
def arrays (heap : Heap) (size : BitVec 32) : (Option Nat × Option Nat) × Heap :=
  let elt := allot heap (4 * size)
  let key := allot elt.2 (4 * size)
  ((elt.1, key.1), key.2)

theorem four_sizes (size : BitVec 32) (small : size.toNat ≤ 2 ^ 30 - 2) :
    (4 * size).toNat = 4 * size.toNat := by
  rw [BitVec.toNat_mul]
  have four : (4 : BitVec 32).toNat = 4 := rfl
  rw [four]
  omega

theorem arrays_room (heap : Heap) (size : BitVec 32) (small : size.toNat ≤ 2 ^ 30 - 2) :
    ((arrays heap size).1.2 = none ∨ (arrays heap size).1.1 = none) ↔
      room (roundmb (4 * size.toNat)) heap.memlist < 2 := by
  have octets := four_sizes size small
  by_cases empty : size = 0
  · subst empty
    have nothing : room (roundmb (4 * (0 : BitVec 32).toNat)) heap.memlist = 0 := by
      have zero : roundmb (4 * (0 : BitVec 32).toNat) = 0 := rfl
      rw [zero, room]
      simp
    have refused : allot heap (4 * 0) = (none, heap) := by
      have zero : (4 * 0 : BitVec 32) = 0 := rfl
      rw [allot, getmem, if_pos (Or.inl zero)]
    rw [nothing, arrays, refused]
    simp
  · have some : 0 < size.toNat := by
      apply Nat.pos_of_ne_zero
      intro zero
      exact empty (BitVec.eq_of_toNat_eq zero)
    have positive : 0 < roundmb (4 * size).toNat := by
      rw [octets]
      unfold roundmb word
      omega
    rw [arrays, ← octets]
    dsimp only
    rcases allot_room heap (4 * size) positive with ⟨fails, none⟩ | ⟨elt, after, gives, less⟩
    · rw [fails, none]
      dsimp only
      simp
    · rw [gives]
      dsimp only
      rcases allot_room after (4 * size) positive with ⟨fails, none⟩ | ⟨key, last, gives, lesser⟩
      · rw [fails]
        dsimp only
        simp only [true_or, true_iff]
        omega
      · rw [gives]
        dsimp only
        simp only [reduceCtorEq, or_self, false_iff]
        omega

/-- The parts of `Valid` that are about storage. -/
def Stored (before after : Heap) (blocks : List Mblock) : Prop :=
  (∀ block ∈ blocks, ∀ address, block.place ≤ address → address < block.place + block.size →
    IsFree before.memlist address ∧ ¬ IsFree after.memlist address) ∧ blocks.Pairwise Separate

/-- Both arrays are given out, and what they are. -/
theorem arrays_taken {heap : Heap} (filled : Filled heap) (size : BitVec 32)
    (both : ¬ ((arrays heap size).1.2 = none ∨ (arrays heap size).1.1 = none)) :
    ∃ elt key middle after, arrays heap size = ((some elt, some key), after) ∧
      Takes heap middle elt (elt + roundmb (4 * size).toNat) ∧
      Takes middle after key (key + roundmb (4 * size).toNat) ∧ after.maxaddr = heap.maxaddr := by
  rw [arrays] at both ⊢
  dsimp only at both ⊢
  rcases allot_cases heap (4 * size) filled with fails | ⟨elt, middle, gives, takes⟩
  · rw [fails] at both
    simp at both
  · rw [gives] at both ⊢
    dsimp only at both ⊢
    rcases allot_cases { heap with memlist := middle } (4 * size) takes.filled with
      fails | ⟨key, after, others, taken⟩
    · rw [fails] at both
      simp at both
    · rw [others]
      exact ⟨elt, key, _, _, rfl, takes, taken, rfl⟩

theorem arrays_stored {before middle after : Heap} {elt key : Nat} (size : BitVec 32)
    (small : size.toNat ≤ 2 ^ 30 - 2)
    (first : Takes before middle elt (elt + roundmb (4 * size).toNat))
    (second : Takes middle after key (key + roundmb (4 * size).toNat)) :
    Stored before after [⟨elt, 4 * size.toNat⟩, ⟨key, 4 * size.toNat⟩] := by
  have octets := four_sizes size small
  have fits : 4 * size.toNat ≤ roundmb (4 * size).toNat := by
    rw [octets]
    unfold roundmb word
    omega
  constructor
  · intro block member address low high
    rcases List.mem_cons.mp member with rfl | later
    · dsimp only at low high
      refine ⟨first.owned address low (by omega), ?_⟩
      rw [second.free]
      rintro ⟨free, _⟩
      exact first.gone address low (by omega) free
    · rw [List.mem_singleton.mp later] at low high
      dsimp only at low high
      have free := second.owned address low (by omega)
      exact ⟨((first.free address).mp free).1, second.gone address low (by omega)⟩
  · apply List.pairwise_pair.mpr
    unfold Separate
    dsimp only
    by_contra touching
    have free := second.owned (max elt key) (by omega) (by omega)
    exact first.gone (max elt key) (by omega) (by omega) free

/-- Where `sizeof` times `size` or its rounding is more than a word, the array is too short. -/
theorem arrays_not_stored {before middle after : Heap} {elt key : Nat} (size : BitVec 32)
    (filled : Filled before) (large : 2 ^ 30 - 2 < size.toNat)
    (first : Takes before middle elt (elt + roundmb (4 * size).toNat))
    (second : Takes middle after key (key + roundmb (4 * size).toNat)) :
    ¬ Stored before after [⟨elt, 4 * size.toNat⟩, ⟨key, 4 * size.toNat⟩] := by
  rintro ⟨stored, _⟩
  have own := stored ⟨elt, 4 * size.toNat⟩ List.mem_cons_self
  dsimp only at own
  have below : ∀ address, IsFree before.memlist address → address < word - 1 := by
    rintro address ⟨block, member, _, high⟩
    have inside := filled.inside block member
    have short := filled.short
    omega
  have start := own elt (le_refl _) (by omega)
  by_cases wraps : 2 ^ 30 ≤ size.toNat
  · have place := below elt start.1
    have last := own (word - 1) (by omega) (by unfold word; omega)
    exact absurd (below _ last.1) (by omega)
  · -- nothing is taken at all
    have nothing : roundmb (4 * size).toNat = 0 := by
      rw [BitVec.toNat_mul]
      have four : (4 : BitVec 32).toNat = 4 := rfl
      rw [four]
      unfold roundmb word
      omega
    rw [nothing] at first second
    apply start.2
    rw [second.free, first.free]
    exact ⟨⟨start.1, by omega⟩, by omega⟩

/-! ## `newq` -/

/-- The loop ends at the first slot that is not valid, or behind the last one. -/
theorem invalidSlot_found (queue : Int → Qslot) (tries : Nat) (i : Int) :
    (invalidSlot queue tries i = i + tries ∧
        ∀ j, i ≤ j → j < i + tries → (queue j).qValid = true) ∨
      (i ≤ invalidSlot queue tries i ∧ invalidSlot queue tries i < i + tries ∧
        (queue (invalidSlot queue tries i)).qValid = false) := by
  induction tries generalizing i with
  | zero =>
      left
      constructor
      · simp [invalidSlot]
      · intro j least most
        push_cast at most
        omega
  | succ tries ih =>
      rw [invalidSlot]
      by_cases here : (queue i).qValid = false
      · rw [if_pos here]
        right
        push_cast
        exact ⟨le_refl _, by omega, here⟩
      · rw [if_neg here]
        rcases ih (i + 1) with ⟨last, all⟩ | ⟨least, most, invalid⟩
        · left
          push_cast
          refine ⟨by omega, ?_⟩
          intro j least most
          by_cases same : j = i
          · rw [same]
            simpa using here
          · exact all j (by omega) (by omega)
        · right
          push_cast
          exact ⟨by omega, by omega, invalid⟩

/-- The slots as `newq` finds them. -/
def slots (s : Machine) : Machine := if s.qinit then s else initq s

section Newq

variable {s : Machine} (regular : Regular s)

include regular

theorem slots_valid (i : Int) : ((slots s).queue i).qValid = (s.queue i).qValid := by
  rw [slots]
  split_ifs with ready
  · rfl
  · rw [initq, regular.unused (by simpa using ready)]

omit regular in
theorem slots_rest :
    (slots s).heap = s.heap ∧ (slots s).kernel = s.kernel ∧ (slots s).ports = s.ports := by
  rw [slots]
  split_ifs <;> exact ⟨rfl, rfl, rfl⟩

theorem slots_untouched : Untouched s (slots s) := by
  obtain ⟨heap, kernel, ports⟩ := @slots_rest s
  refine ⟨by rw [heap], ?_, fun i _ => slots_valid regular i, ?_, ?_⟩
  · intro sem _
    rw [Machine.UsedSem, Machine.UsedSem, kernel]
  · intro pid _
    rw [Machine.Live, Machine.Live, kernel]
  · intro p _
    rw [Machine.Occupied, Machine.Occupied, Machine.portState, Machine.portState, ports]

/-- The semaphore of a queue is one exactly if none is asked for or there is a free one. -/
theorem mutex_valid (mtype : BitVec 32) :
    (∀ sem ∈ if mtype = qfNowait then [] else [(screate s.kernel 1).1],
        ¬ isbadsem sem ∧ ¬ s.UsedSem sem ∧
          ((if mtype = qfNowait then s.kernel else (screate s.kernel 1).2).semaph sem).sstate =
            .used) ↔
      (mtype = qfNowait ∨ ∃ sem, s.SemFree sem) := by
  by_cases nowait : mtype = qfNowait
  · simp [nowait]
  · simp only [nowait, if_false, List.mem_singleton, forall_eq, false_or]
    obtain ⟨place, _, ⟨fails, none⟩ | ⟨sem, isSem, free, finds⟩⟩ :=
      screate_entry s.kernel 1 regular.nextsem
    · rw [fails]
      constructor
      · rintro ⟨good, _⟩
        have bad : isbadsem Kernel.syserr := by decide
        exact absurd bad good
      · rintro ⟨sem, isSem, free⟩
        exact absurd free (none sem isSem)
    · rw [finds]
      constructor
      · intro _
        exact ⟨sem, isSem, free⟩
      · intro _
        refine ⟨?_, ?_, by simp [Kernel.Xinu.setSem]⟩
        · unfold Inside at isSem
          unfold isbadsem
          omega
        · rw [Machine.UsedSem, free]
          decide

/-- What `newq` has done when it returns slot `i`. -/
structure FilledSlot (s : Machine) (i : Int) (size mtype : BitVec 32) (elt key : Nat) (after : Heap)
    (outcome : Int × Machine) : Prop where
  answer : outcome.1 = i
  storage : outcome.2.heap = after
  blocks : (outcome.2.queue i).record.blocks = [⟨elt, 4 * size.toNat⟩, ⟨key, 4 * size.toNat⟩]
  sems : (outcome.2.queue i).record.sems =
    if mtype = qfNowait then [] else [(screate s.kernel 1).1]
  used : ∀ sem, outcome.2.UsedSem sem ↔
    ((if mtype = qfNowait then s.kernel else (screate s.kernel 1).2).semaph sem).sstate = .used

omit regular in
theorem fillSlot_filled (i : Int) (size mtype : BitVec 32) {elt key : Nat} {after : Heap}
    (taken : arrays s.heap size = ((some elt, some key), after)) :
    FilledSlot s i size mtype elt key after (fillSlot (slots s) i size mtype) := by
  obtain ⟨heap, kernel, _⟩ := @slots_rest s
  have gotElt : (allot s.heap (4 * size)).1 = some elt :=
    congrArg (fun result => result.1.1) taken
  have gotKey : (allot (allot s.heap (4 * size)).2 (4 * size)).1 = some key :=
    congrArg (fun result => result.1.2) taken
  have last : (allot (allot s.heap (4 * size)).2 (4 * size)).2 = after :=
    congrArg (fun result => result.2) taken
  constructor
  · have both : ¬ ((allot (allot s.heap (4 * size)).2 (4 * size)).1 = none ∨
        (allot s.heap (4 * size)).1 = none) := by
      rw [gotElt, gotKey]
      simp
    rw [fillSlot, heap]
    exact if_neg both
  · rw [fillSlot, heap]
    exact last
  · simp only [fillSlot, heap, Function.update_self, Qslot.record, gotElt, gotKey]
    rfl
  · simp only [fillSlot, kernel, Function.update_self, Qslot.record]
    split_ifs <;> rfl
  · intro sem
    simp only [Machine.UsedSem, fillSlot, kernel]
    split_ifs <;> rfl

/-- The entry is a valid one exactly if its arrays and its semaphore are. -/
theorem FilledSlot.valid_iff {i : Int} {size mtype : BitVec 32} {elt key : Nat}
    {middle after : Heap} {outcome : Int × Machine}
    (filled : FilledSlot s i size mtype elt key after outcome)
    (first : Takes s.heap middle elt (elt + roundmb (4 * size).toNat))
    (second : Takes middle after key (key + roundmb (4 * size).toNat)) :
    Valid s outcome.2 (outcome.2.queue i).record ↔
      size.toNat ≤ 2 ^ 30 - 2 ∧ (mtype = qfNowait ∨ ∃ sem, s.SemFree sem) := by
  have mutex := mutex_valid regular mtype
  constructor
  · intro valid
    have stored : Stored s.heap after [⟨elt, 4 * size.toNat⟩, ⟨key, 4 * size.toNat⟩] := by
      have parts : Stored s.heap _ _ := ⟨valid.blocks, valid.separate⟩
      rwa [filled.storage, filled.blocks] at parts
    constructor
    · by_contra large
      exact arrays_not_stored size regular.filled (by omega) first second stored
    · apply mutex.mp
      intro sem member
      rw [← filled.sems] at member
      have kept := valid.sems sem member
      rwa [filled.used] at kept
  · rintro ⟨small, some⟩
    have stored := arrays_stored size small first second
    refine ⟨?_, ?_, ?_, ?_⟩
    · intro sem member
      rw [filled.sems] at member
      rw [filled.used]
      exact mutex.mpr some sem member
    · rw [filled.sems]
      split_ifs
      · exact List.nodup_nil
      · exact List.nodup_singleton _
    · rw [filled.blocks, filled.storage]
      exact stored.1
    · rw [filled.blocks]
      exact stored.2

omit regular in
/-- Without its arrays the slot stays valid. -/
theorem fillSlot_fails {i : Int} (inside : Inside maxnq i)
    (invalid : (s.queue i).qValid = false) (size mtype : BitVec 32) (record : Record)
    (failed : (arrays s.heap size).1.2 = none ∨ (arrays s.heap size).1.1 = none) :
    ¬ Atomic s (fillSlot (slots s) i size mtype) record := by
  intro law
  have answer : (fillSlot (slots s) i size mtype).1 = syserr := by
    rw [fillSlot, (@slots_rest s).1]
    exact if_pos failed
  have marked : ((fillSlot (slots s) i size mtype).2.queue i).qValid = true := by
    simp [fillSlot]
  have same := (law.fails answer).queues i inside
  rw [marked, invalid] at same
  cases same

theorem fillSlot_atomic_iff {i : Int} (inside : Inside maxnq i)
    (invalid : (s.queue i).qValid = false) (size mtype : BitVec 32) :
    Atomic s (fillSlot (slots s) i size mtype)
        ((fillSlot (slots s) i size mtype).2.queue (fillSlot (slots s) i size mtype).1).record ↔
      (size.toNat ≤ 2 ^ 30 - 2 ∧ 2 ≤ room (roundmb (4 * size.toNat)) s.heap.memlist ∧
        (mtype = qfNowait ∨ ∃ sem, s.SemFree sem)) := by
  by_cases failed : (arrays s.heap size).1.2 = none ∨ (arrays s.heap size).1.1 = none
  · constructor
    · intro law
      exact absurd law (fillSlot_fails inside invalid size mtype _ failed)
    · rintro ⟨small, enough, _⟩
      have few := (arrays_room s.heap size small).mp failed
      omega
  · obtain ⟨elt, key, middle, after, taken, first, second, _⟩ :=
      arrays_taken regular.filled size failed
    have filled := fillSlot_filled i size mtype taken
    have valid := filled.valid_iff regular first second
    have succeeds : (fillSlot (slots s) i size mtype).1 ≠ syserr := by
      rw [filled.answer]
      unfold Inside at inside
      unfold syserr
      omega
    constructor
    · intro law
      have holds := law.succeeds succeeds
      rw [filled.answer] at holds
      obtain ⟨small, some⟩ := valid.mp holds
      have enough := (arrays_room s.heap size small).not.mp failed
      exact ⟨small, by omega, some⟩
    · rintro ⟨small, _, some⟩
      refine ⟨fun fails => absurd fails succeeds, fun _ => ?_⟩
      rw [filled.answer]
      exact valid.mpr ⟨small, some⟩

theorem newq_atomic_iff (size mtype : BitVec 32) :
    NewqAtomic s size mtype ↔ NewqServed s size mtype := by
  have valid := slots_valid regular
  have shape : newq s size mtype =
      if invalidSlot (slots s).queue maxnq.toNat 0 = maxnq then (syserr, slots s)
      else fillSlot (slots s) (invalidSlot (slots s).queue maxnq.toNat 0) size mtype := rfl
  rw [NewqAtomic, NewqServed, shape]
  have hundred : (0 : Int) + (maxnq.toNat : Int) = maxnq := rfl
  have found := invalidSlot_found (slots s).queue maxnq.toNat 0
  rw [hundred] at found
  generalize invalidSlot (slots s).queue maxnq.toNat 0 = i at found ⊢
  rcases found with ⟨full, all⟩ | ⟨least, most, invalid⟩
  · -- no slot is left
    have everySlot : ∀ j, Inside maxnq j → (s.queue j).qValid = true := by
      intro j inside
      rw [← valid]
      exact all j inside.1 inside.2
    rw [if_pos full]
    constructor
    · intro _
      exact Or.inl everySlot
    · intro _
      exact ⟨fun _ => slots_untouched regular, fun succeeds => absurd rfl succeeds⟩
  · have slot : ¬ i = maxnq := by omega
    rw [valid] at invalid
    have someSlot : ¬ ∀ j, Inside maxnq j → (s.queue j).qValid = true := by
      intro all
      have taken := all i ⟨least, most⟩
      rw [invalid] at taken
      cases taken
    rw [if_neg slot]
    simp only [someSlot, false_or]
    exact fillSlot_atomic_iff regular ⟨least, most⟩ invalid size mtype

end Newq

/-! ## `create` -/

theorem untouched_self (s : Machine) : Untouched s s :=
  ⟨rfl, fun _ _ => Iff.rfl, fun _ _ => rfl, fun _ _ => Iff.rfl, fun _ _ => Iff.rfl⟩

/-- The entry of a new process has no stack in it. -/
theorem processRecord_valid (s after : Machine) (pid : Int) (base : after.pbase pid = 0)
    (length : after.pstklen pid = 0) : Valid s after (after.processRecord pid) := by
  have none : (0 : BitVec 32).toNat = 0 := rfl
  rw [System.processRecord, base, length, none]
  refine ⟨by simp, List.nodup_nil, ?_, List.pairwise_singleton _ _⟩
  intro block member address low high
  rw [List.mem_singleton.mp member] at low high
  dsimp only at low high
  omega

theorem create_atomic_iff {s : Machine} (regular : Regular s) (ssize priority : BitVec 32) :
    CreateAtomic s ssize priority ↔ CreateServed s ssize priority := by
  obtain ⟨least, even⟩ := stackLen_room ssize
  have nonzero : stackLen ssize ≠ 0 := by
    intro zero
    rw [zero] at least
    simp at least
  rw [CreateAtomic, CreateServed, Machine.create, create]
  by_cases low : priority.slt 1
  · rw [if_pos low]
    simp only [low, true_or, iff_true]
    exact ⟨fun _ => untouched_self s, fun succeeds => absurd rfl succeeds⟩
  · rw [if_neg low, getstk, if_neg nonzero, even]
    have unfit := carveTop_none_iff (stackLen ssize).toNat s.heap.memlist
    cases found : carveTop (stackLen ssize).toNat s.heap.memlist with
    | none =>
        rw [found] at unfit
        have small := unfit.mp rfl
        simp only [low, Bool.false_eq_true, false_or]
        constructor
        · intro _
          exact Or.inl small
        · intro _
          exact ⟨fun _ => untouched_self s, fun succeeds => absurd rfl succeeds⟩
    | some taken =>
        obtain ⟨saddr, memlist⟩ := taken
        rw [found] at unfit
        have fits := unfit.not.mp (by simp)
        obtain ⟨takes, enough⟩ := carveTop_takes regular.filled found (by omega)
        simp only [low, Bool.false_eq_true, fits, false_or]
        obtain ⟨place, _, ⟨fails, full⟩ | ⟨pid, isPid, free, finds⟩⟩ :=
          create_entry s.kernel priority low regular.nextproc
        · -- the stack is not given back
          rw [fails]
          constructor
          · intro law
            have same : memlist = s.heap.memlist := (law.fails rfl).memory
            have address := takes.owned (saddr + 4 - (stackLen ssize).toNat) (le_refl _) (by omega)
            rw [← same] at address
            exact absurd address (takes.gone _ (le_refl _) (by omega))
          · rintro ⟨pid, isPid, free⟩
            have taken := full pid isPid
            rw [Machine.Live, not_not] at free
            exact absurd free taken
        · have valid : ¬ pid = Kernel.syserr := by
            unfold Inside at isPid
            unfold Kernel.syserr
            omega
          rw [finds]
          dsimp only
          rw [if_neg valid]
          constructor
          · intro _
            refine ⟨pid, isPid, ?_⟩
            rw [Machine.Live, not_not]
            exact free
          · intro _
            refine ⟨fun fails => absurd fails valid, fun _ => ?_⟩
            apply processRecord_valid
            · exact Function.update_self _ _ _
            · exact Function.update_self _ _ _

/-! ## `pcreate` -/

theorem portLoop_eq_scan (count : BitVec 32) (tries : Nat) (s : Machine) :
    portLoop count tries s =
      match scan nports (fun p => s.portState p = some .free) tries s.ptnextp with
      | (some p, place) => (p, fillPort { s with ptnextp := place } p count)
      | (none, place) => (syserr, { s with ptnextp := place }) := by
  induction tries generalizing s with
  | zero => rfl
  | succ tries ih =>
      have place : (if s.ptnextp ≤ 0 then nports - 1 else s.ptnextp - 1) = next nports s.ptnextp :=
        rfl
      rw [portLoop, scan, place]
      split_ifs with free
      · rfl
      · rw [ih]
        rfl

/-- The two semaphores of a port are ones exactly if there are two free ones. -/
theorem fillPort_valid (before s : Machine) (kernel : s.kernel = before.kernel)
    (inside : Inside nsem s.kernel.nextsem) (p : Int) (count : BitVec 32) :
    Valid before (fillPort s p count) (portRecord ((fillPort s p count).ports p)) ↔
      ∃ first second, first ≠ second ∧ before.SemFree first ∧ before.SemFree second := by
  have record : portRecord ((fillPort s p count).ports p) =
      ⟨[(screate s.kernel count).1, (screate (screate s.kernel count).2 0).1], []⟩ := by
    simp [fillPort, portRecord]
  have used : ∀ sem, (fillPort s p count).UsedSem sem ↔
      ((screate (screate s.kernel count).2 0).2.semaph sem).sstate = .used := fun _ => Iff.rfl
  have bad : isbadsem Kernel.syserr := by decide
  rw [record]
  obtain ⟨place, placed, ⟨fails, none⟩ | ⟨ssem, isSsem, freeSsem, finds⟩⟩ :=
    screate_entry s.kernel count inside
  · rw [fails]
    constructor
    · intro valid
      exact absurd bad (valid.sems _ List.mem_cons_self).1
    · rintro ⟨first, _, _, ⟨isFirst, free⟩, _⟩
      rw [← kernel] at free
      exact absurd free (none first isFirst)
  · obtain ⟨last, _, ⟨fails, none⟩ | ⟨rsem, isRsem, freeRsem, others⟩⟩ :=
      screate_entry (screate s.kernel count).2 0 (by rw [finds]; exact placed)
    · rw [fails]
      constructor
      · intro valid
        exact absurd bad (valid.sems Kernel.syserr (by simp)).1
      · rintro ⟨first, second, different, ⟨isFirst, freeFirst⟩, ⟨isSecond, freeSecond⟩⟩
        rw [finds] at none
        rw [← kernel] at freeFirst freeSecond
        by_cases same : first = ssem
        · have other : second ≠ ssem := by
            rw [← same]
            exact different.symm
          refine absurd ?_ (none second isSecond)
          simpa [Kernel.Xinu.setSem, Function.update_of_ne other] using freeSecond
        · refine absurd ?_ (none first isFirst)
          simpa [Kernel.Xinu.setSem, Function.update_of_ne same] using freeFirst
    · have different : rsem ≠ ssem := by
        intro same
        rw [finds, same] at freeRsem
        simp [Kernel.Xinu.setSem] at freeRsem
      have wasFree : (s.kernel.semaph rsem).sstate = .free := by
        rw [finds] at freeRsem
        simpa [Kernel.Xinu.setSem, Function.update_of_ne different] using freeRsem
      have good : ∀ sem, Inside nsem sem → ¬ isbadsem sem := by
        intro sem isSem
        unfold Inside at isSem
        unfold isbadsem
        omega
      constructor
      · intro _
        exact ⟨ssem, rsem, different.symm, ⟨isSsem, by rw [← kernel]; exact freeSsem⟩,
          ⟨isRsem, by rw [← kernel]; exact wasFree⟩⟩
      · intro _
        refine ⟨?_, ?_, by simp, List.Pairwise.nil⟩
        · intro sem member
          rw [used, others, finds]
          rw [others, finds] at member
          dsimp only at member
          rw [Machine.UsedSem, ← kernel]
          rcases List.mem_cons.mp member with rfl | second
          · refine ⟨good sem isSsem, by rw [freeSsem]; decide, ?_⟩
            simp [Kernel.Xinu.setSem, Function.update_of_ne different.symm]
          · rw [List.mem_singleton.mp second]
            exact ⟨good rsem isRsem, by rw [wasFree]; decide, by simp [Kernel.Xinu.setSem]⟩
        · rw [others, finds]
          simpa using different.symm

/-- The loop takes a port exactly if there is a free one. -/
theorem portLoop_found (before s : Machine) (kernel : s.kernel = before.kernel)
    (nextsem : Inside nsem s.kernel.nextsem) (ptnextp : Inside nports s.ptnextp)
    (count : BitVec 32) :
    (∃ place, portLoop count nports.toNat s = (syserr, { s with ptnextp := place }) ∧
        ∀ p, Inside nports p → s.portState p ≠ some .free) ∨
      ((portLoop count nports.toNat s).1 ≠ syserr ∧
        (∃ p, Inside nports p ∧ s.portState p = some .free) ∧
          (Valid before (portLoop count nports.toNat s).2
              (portRecord ((portLoop count nports.toNat s).2.ports
                (portLoop count nports.toNat s).1)) ↔
            ∃ first second, first ≠ second ∧ before.SemFree first ∧ before.SemFree second)) := by
  obtain ⟨place, _, ⟨fails, none⟩ | ⟨p, isPort, free, finds⟩⟩ :=
    round_cases nports (fun p => s.portState p = some .free) ptnextp
  · left
    refine ⟨place, ?_, none⟩
    rw [portLoop_eq_scan, fails]
  · right
    rw [portLoop_eq_scan, finds]
    refine ⟨?_, ⟨p, isPort, free⟩, ?_⟩
    · unfold Inside at isPort
      unfold syserr
      dsimp only
      omega
    · exact fillPort_valid before { s with ptnextp := place } kernel nextsem p count

section Pcreate

variable {s : Machine} (regular : Regular s) (count : BitVec 32)

include regular

theorem pcreate_initialized (ready : s.Initialized) :
    PcreateAtomic s count ↔ PcreateServed s := by
  have called : pcreate s count = some (portLoop count nports.toNat s) := by
    rw [pcreate, mark]
    by_cases marked : s.ptmarked
    · rw [if_pos marked]
      rfl
    · have full := ready.resolve_left marked
      rw [if_neg marked, if_pos full]
      rfl
  rw [PcreateAtomic, PcreateServed, called]
  simp only [Option.some.injEq, forall_eq', ready, not_true_eq_false, false_and, true_and, false_or]
  rcases portLoop_found s s rfl regular.nextsem regular.ptnextp count with
    ⟨place, fails, none⟩ | ⟨succeeds, ⟨p, isPort, free⟩, valid⟩
  · constructor
    · intro _
      exact Or.inl none
    · intro _
      rw [fails]
      refine ⟨fun _ => ?_, fun succeeds => absurd rfl succeeds⟩
      exact ⟨rfl, fun _ _ => Iff.rfl, fun _ _ => rfl, fun _ _ => Iff.rfl, fun _ _ => Iff.rfl⟩
  · constructor
    · intro law
      exact Or.inr (valid.mp (law.succeeds succeeds))
    · rintro (none | some)
      · exact absurd free (none p isPort)
      · exact ⟨fun fails => absurd fails succeeds, fun _ => valid.mpr some⟩

theorem pcreate_first (first : ¬ s.Initialized) : PcreateAtomic s count ↔ PcreateServed s := by
  have unmarked : ¬ s.ptmarked = true := fun marked => first (Or.inl marked)
  have few : ¬ maxmark ≤ s.nmarks := fun full => first (Or.inr full)
  have called : pcreate s count =
      (pinit { s with ptmarked := true, nmarks := s.nmarks + 1 }).map
        (portLoop count nports.toNat) := by
    rw [pcreate, mark, if_neg unmarked, if_neg few]
    rfl
  have octets : roundmb nodeOctets.toNat = nodeOctets.toNat := rfl
  rw [PcreateAtomic, PcreateServed, called, pinit, getmem]
  simp only [first, not_false_eq_true, true_and, false_and, false_or]
  by_cases empty : nodeOctets = 0 ∨ s.heap.memlist = []
  · have nothing : s.heap.memlist = [] := empty.resolve_left (by decide)
    rw [if_pos empty, nothing]
    simp [room]
  · rw [if_neg empty, octets]
    rcases room_carve nodeOctets.toNat (by decide) s.heap.memlist with
      ⟨fails, none⟩ | ⟨block, after, found, enough⟩
    · rw [fails, none]
      simp
    · rw [found]
      have some : ¬ room nodeOctets.toNat s.heap.memlist = 0 := by omega
      simp only [Option.map_some, Option.some.injEq, forall_eq', some, false_or]
      have last : Inside nports (nports - 1) := ⟨by decide, by decide⟩
      rcases portLoop_found s (freePorts { s with ptmarked := true, nmarks := s.nmarks + 1 } block
          { s.heap with memlist := after }) rfl regular.nextsem last count with
        ⟨_, _, none⟩ | ⟨succeeds, _, valid⟩
      · exact absurd rfl (none (nports - 1) last)
      · constructor
        · intro law
          exact valid.mp (law.succeeds succeeds)
        · intro two
          exact ⟨fun fails => absurd fails succeeds, fun _ => valid.mpr two⟩

theorem pcreate_atomic_iff : PcreateAtomic s count ↔ PcreateServed s := by
  by_cases ready : s.Initialized
  · exact pcreate_initialized regular count ready
  · exact pcreate_first regular count ready

end Pcreate

/-! ## What every call keeps -/

theorem screate_places (k : Xinu) (count : BitVec 32) (nextsem : Inside nsem k.nextsem) :
    Inside nsem (screate k count).2.nextsem ∧ (screate k count).2.nextproc = k.nextproc := by
  obtain ⟨place, placed, ⟨fails, _⟩ | ⟨sem, _, _, finds⟩⟩ := screate_entry k count nextsem
  · rw [fails]
    exact ⟨placed, rfl⟩
  · rw [finds]
    exact ⟨placed, rfl⟩

theorem allot_filled {heap : Heap} (filled : Filled heap) (nbytes : BitVec 32) :
    Filled (allot heap nbytes).2 := by
  rcases allot_cases heap nbytes filled with fails | ⟨block, memlist, gives, takes⟩
  · rw [fails]
    exact filled
  · rw [gives]
    exact takes.filled

section Keeping

variable {s : Machine} (regular : Regular s)

include regular

theorem fillSlot_regular (i : Int) (size mtype : BitVec 32) (ready : s.qinit = true) :
    Regular (fillSlot s i size mtype).2 := by
  have mutex : Inside nsem (if mtype = qfNowait then ((s.queue i).qMutex, s.kernel)
        else screate s.kernel 1).2.nextsem ∧
      (if mtype = qfNowait then ((s.queue i).qMutex, s.kernel)
        else screate s.kernel 1).2.nextproc = s.kernel.nextproc := by
    split_ifs
    · exact ⟨regular.nextsem, rfl⟩
    · exact screate_places s.kernel 1 regular.nextsem
  refine ⟨?_, mutex.1, ?_, regular.ptnextp, ?_⟩
  · exact allot_filled (allot_filled regular.filled _) _
  · rw [fillSlot]
    dsimp only
    rw [mutex.2]
    exact regular.nextproc
  · intro fresh
    rw [fillSlot] at fresh
    dsimp only at fresh
    rw [ready] at fresh
    cases fresh

theorem newq_regular (size mtype : BitVec 32) : Regular (newq s size mtype).2 := by
  have searched : Regular (slots s) ∧ (slots s).qinit = true := by
    rw [slots]
    split_ifs with ready
    · exact ⟨regular, ready⟩
    · refine ⟨⟨regular.filled, regular.nextsem, regular.nextproc, regular.ptnextp, ?_⟩, rfl⟩
      intro fresh
      cases fresh
  have shape : newq s size mtype =
      if invalidSlot (slots s).queue maxnq.toNat 0 = maxnq then (syserr, slots s)
      else fillSlot (slots s) (invalidSlot (slots s).queue maxnq.toNat 0) size mtype := rfl
  rw [shape]
  split_ifs
  · exact searched.1
  · exact fillSlot_regular searched.1 _ size mtype searched.2

theorem create_regular (ssize priority : BitVec 32) : Regular (s.create ssize priority).2 := by
  obtain ⟨least, even⟩ := stackLen_room ssize
  have nonzero : stackLen ssize ≠ 0 := by
    intro zero
    rw [zero] at least
    simp at least
  rw [Machine.create, create]
  by_cases low : priority.slt 1
  · rw [if_pos low]
    exact regular
  · rw [if_neg low, getstk, if_neg nonzero, even]
    cases found : carveTop (stackLen ssize).toNat s.heap.memlist with
    | none => exact regular
    | some taken =>
        obtain ⟨saddr, memlist⟩ := taken
        obtain ⟨takes, _⟩ := carveTop_takes regular.filled found (by omega)
        obtain ⟨place, placed, ⟨fails, _⟩ | ⟨pid, _, _, finds⟩⟩ :=
          create_entry s.kernel priority low regular.nextproc
        · rw [fails]
          exact ⟨takes.filled, regular.nextsem, placed, regular.ptnextp, regular.unused⟩
        · rw [finds]
          dsimp only
          split_ifs
          · exact ⟨takes.filled, regular.nextsem, placed, regular.ptnextp, regular.unused⟩
          · exact ⟨takes.filled, regular.nextsem, placed, regular.ptnextp, regular.unused⟩

theorem portLoop_regular (count : BitVec 32) : Regular (portLoop count nports.toNat s).2 := by
  obtain ⟨place, placed, ⟨fails, _⟩ | ⟨p, _, _, finds⟩⟩ :=
    round_cases nports (fun p => s.portState p = some .free) regular.ptnextp
  · rw [portLoop_eq_scan, fails]
    exact ⟨regular.filled, regular.nextsem, regular.nextproc, placed, regular.unused⟩
  · rw [portLoop_eq_scan, finds]
    obtain ⟨first, sameFirst⟩ := screate_places s.kernel count regular.nextsem
    obtain ⟨second, sameSecond⟩ := screate_places (screate s.kernel count).2 0 first
    have nextproc : (screate (screate s.kernel count).2 0).2.nextproc = s.kernel.nextproc := by
      rw [sameSecond, sameFirst]
    refine ⟨regular.filled, second, ?_, placed, regular.unused⟩
    change Inside nproc (screate (screate s.kernel count).2 0).2.nextproc
    rw [nextproc]
    exact regular.nextproc

theorem pcreate_regular (count : BitVec 32) (outcome : Int × Machine)
    (returns : pcreate s count = some outcome) : Regular outcome.2 := by
  have marked : Regular (mark s).2 := by
    rw [mark]
    split_ifs
    · exact regular
    · exact regular
    · exact ⟨regular.filled, regular.nextsem, regular.nextproc, regular.ptnextp, regular.unused⟩
  rw [pcreate] at returns
  obtain ⟨searched, isReady, rfl⟩ := Option.map_eq_some_iff.mp returns
  apply portLoop_regular
  split_ifs at isReady
  · obtain ⟨found, gets, rfl⟩ := Option.map_eq_some_iff.mp isReady
    have filled := allot_filled marked.filled nodeOctets
    rw [allot, gets] at filled
    have last : Inside nports (nports - 1) := ⟨by decide, by decide⟩
    exact ⟨filled, marked.nextsem, marked.nextproc, last, marked.unused⟩
  · rw [← Option.some.inj isReady]
    exact marked

end Keeping

inductive Construct where
  | newq (size mtype : BitVec 32)
  | create (ssize priority : BitVec 32)
  | pcreate (count : BitVec 32)

/-- The state after a call; a panic leaves nothing to go on with. -/
def constructs (s : Machine) : Construct → Machine
  | .newq size mtype => (newq s size mtype).2
  | .create ssize priority => (s.create ssize priority).2
  | .pcreate count => (pcreate s count).elim s Prod.snd

theorem constructs_regular {s : Machine} (regular : Regular s) (call : Construct) :
    Regular (constructs s call) := by
  cases call with
  | newq size mtype => exact newq_regular regular size mtype
  | create ssize priority => exact create_regular regular ssize priority
  | pcreate count =>
      rw [constructs]
      cases returns : pcreate s count with
      | none => exact regular
      | some outcome => exact pcreate_regular regular count outcome returns

/-- A call in a state that earlier calls have led to finds it regular. -/
theorem constructed_regular {start s : Machine} (regular : Regular start)
    (reached : Runs.Reach constructs (fun _ _ => True) start s) : Regular s :=
  reached.invariant regular fun _ call before _ => constructs_regular before call

/-- Each constructor is atomic exactly if it is served whatever it asks for behind its slot. -/
theorem constructors_atomic_iff (s : Machine) (regular : Regular s) :
    (∀ size mtype, NewqAtomic s size mtype ↔ NewqServed s size mtype) ∧
      (∀ ssize priority, CreateAtomic s ssize priority ↔ CreateServed s ssize priority) ∧
        ∀ count, PcreateAtomic s count ↔ PcreateServed s := by
  refine ⟨?_, ?_, ?_⟩
  · intro size mtype
    exact newq_atomic_iff regular size mtype
  · intro ssize priority
    exact create_atomic_iff regular ssize priority
  · intro count
    exact pcreate_atomic_iff regular count

/-- The tables as they are loaded, with a fresh heap. -/
def loaded : Machine where
  toSystem := booting Kernel.booted (meminit 0x1000)
  qinit := false
  queue := fun _ => ⟨false, 0, 0, 0, 0, 0, none, none⟩
  ports := fun _ => none
  ptnextp := 0
  ptfree := 0
  ptmarked := false
  nmarks := 0

theorem loaded_regular : Regular loaded where
  filled := meminit_sound.filled
  nextsem := ⟨by decide, by decide⟩
  nextproc := ⟨by decide, by decide⟩
  ptnextp := ⟨by decide, by decide⟩
  unused := fun _ _ => rfl

theorem first_constructs_atomic :
    NewqAtomic loaded 4 0 ∧ CreateAtomic loaded 4096 20 ∧ PcreateAtomic loaded 5 := by
  obtain ⟨queues, processes, ports⟩ := constructors_atomic_iff loaded loaded_regular
  have first : loaded.SemFree 199 := ⟨⟨by decide, by decide⟩, rfl⟩
  have second : loaded.SemFree 198 := ⟨⟨by decide, by decide⟩, rfl⟩
  refine ⟨?_, ?_, ?_⟩
  · rw [queues]
    exact Or.inr ⟨by decide, by decide, Or.inr ⟨199, first⟩⟩
  · rw [processes]
    exact Or.inr (Or.inr ⟨49, ⟨by decide, by decide⟩, fun live => live rfl⟩)
  · rw [ports]
    exact Or.inr (Or.inr ⟨199, 198, by decide, first, second⟩)

/-- A queue for 2^20 elements does not fit in the heap, and its slot stays taken. -/
theorem failed_newq_takes_slot :
    (newq loaded 0x100000 1).1 = syserr ∧ ¬ NewqAtomic loaded 0x100000 1 := by
  have fails : (newq loaded 0x100000 1).1 = syserr := by decide
  refine ⟨fails, ?_⟩
  intro law
  have same := (law.fails fails).queues 0 ⟨by decide, by decide⟩
  exact absurd same (by decide)

end MvsXinu.Memory
