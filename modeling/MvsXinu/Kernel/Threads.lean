import Mathlib.Data.Int.Interval
import MvsXinu.Kernel.Process
import MvsXinu.Lib.Ranks

/-!
# The lists in the queue table

The table is threaded by `lists` if for each head the entries from the head through the
processes of its list to the tail are doubly linked, and no process is on two lists.
-/

namespace MvsXinu.Kernel

open MvsXinu.Links MvsXinu.Ranks

set_option autoImplicit false

def nexts (q : Qtab) (index : Int) : Int := (q index).qnext
def prevs (q : Qtab) (index : Int) : Int := (q index).qprev

def Head (head : Int) : Prop := rdyhead ≤ head ∧ head ≤ clockq ∧ head % 2 = 0

instance (head : Int) : Decidable (Head head) := inferInstanceAs (Decidable (_ ∧ _ ∧ _))

def nodes (head : Int) (pids : List Int) : List Int := head :: (pids ++ [head + 1])

structure Threaded (q : Qtab) (lists : Int → List Int) : Prop where
  strung : ∀ head, Head head → Strung (nexts q) (prevs q) (nodes head (lists head))
  nodup : ∀ head, Head head → (lists head).Nodup
  procs : ∀ head, Head head → ∀ pid ∈ lists head, 0 ≤ pid ∧ pid < nproc
  apart : ∀ first second, Head first → Head second →
    ∀ pid, pid ∈ lists first → pid ∈ lists second → first = second
  tails : ∀ head, Head head → (q (head + 1)).qkey = maxint

theorem nodes_split (head : Int) (front back : List Int) :
    nodes head (front ++ back) = (head :: front).dropLast ++
      front.getLastD head :: back.headD (head + 1) :: (back ++ [head + 1]).tail := by
  have low : head :: front = (head :: front).dropLast ++ [front.getLastD head] := by
    rw [← List.getLast_eq_getLastD (List.cons_ne_nil _ _), List.dropLast_append_getLast]
  have high : back ++ [head + 1] = back.headD (head + 1) :: (back ++ [head + 1]).tail := by
    cases back <;> rfl
  calc nodes head (front ++ back) = (head :: front) ++ (back ++ [head + 1]) := by
        simp [nodes, List.append_assoc]
    _ = _ := by
        rw [low, high, List.append_assoc]
        simp

/-! ## Where the nodes of the lists are -/

section Apart

variable {q : Qtab} {lists : Int → List Int}

theorem Threaded.nodes_nodup (threaded : Threaded q lists) {head : Int} (isHead : Head head) :
    (nodes head (lists head)).Nodup := by
  have procs := threaded.procs head isHead
  unfold Head rdyhead at isHead
  unfold nproc at procs
  simp only [nodes, List.nodup_cons, List.mem_append, List.mem_singleton, not_or]
  refine ⟨⟨?_, by omega⟩, ?_⟩
  · intro member
    have := procs head member
    omega
  · apply List.nodup_append.mpr
    refine ⟨threaded.nodup head (by unfold Head rdyhead; omega), List.nodup_singleton _, ?_⟩
    intro pid member other isTail
    have := procs pid member
    simp only [List.mem_singleton] at isTail
    omega

/-- No entry of the table is a node of two lists. -/
theorem Threaded.nodes_apart (threaded : Threaded q lists) {first second index : Int}
    (isFirst : Head first) (isSecond : Head second)
    (inFirst : index ∈ nodes first (lists first)) (inSecond : index ∈ nodes second (lists second)) :
    first = second := by
  have procsFirst := threaded.procs first isFirst index
  have procsSecond := threaded.procs second isSecond index
  have shared := threaded.apart first second isFirst isSecond index
  simp only [nodes, List.mem_cons, List.mem_append, List.not_mem_nil, or_false]
    at inFirst inSecond
  unfold nproc at procsFirst procsSecond
  unfold Head rdyhead at isFirst isSecond
  rcases inFirst with same | member | same
  · rcases inSecond with other | member | other
    · omega
    · have := procsSecond member
      omega
    · omega
  · rcases inSecond with other | memberSecond | other
    · have := procsFirst member
      omega
    · exact shared member memberSecond
    · have := procsFirst member
      omega
  · rcases inSecond with other | member | other
    · omega
    · have := procsSecond member
      omega
    · omega

/-- One list is replaced: its processes were on it or on none. -/
theorem Threaded.replace {after : Qtab} (threaded : Threaded q lists) {head : Int}
    {pids : List Int}
    (strungHead : Strung (nexts after) (prevs after) (nodes head pids))
    (strungOther : ∀ other, Head other → other ≠ head →
      Strung (nexts after) (prevs after) (nodes other (lists other)))
    (nodup : pids.Nodup) (procs : ∀ pid ∈ pids, 0 ≤ pid ∧ pid < nproc)
    (alone : ∀ pid ∈ pids, ∀ other, Head other → pid ∈ lists other → other = head)
    (keys : ∀ other, Head other → (after (other + 1)).qkey = (q (other + 1)).qkey) :
    Threaded after (Function.update lists head pids) := by
  constructor
  · intro other isOther
    by_cases same : other = head
    · rw [same, Function.update_self]
      exact strungHead
    · rw [Function.update_of_ne same]
      exact strungOther other isOther same
  · intro other isOther
    by_cases same : other = head
    · rw [same, Function.update_self]
      exact nodup
    · rw [Function.update_of_ne same]
      exact threaded.nodup other isOther
  · intro other isOther pid member
    by_cases same : other = head
    · rw [same, Function.update_self] at member
      exact procs pid member
    · rw [Function.update_of_ne same] at member
      exact threaded.procs other isOther pid member
  · intro first second isFirst isSecond pid inFirst inSecond
    by_cases sameFirst : first = head
    · by_cases sameSecond : second = head
      · rw [sameFirst, sameSecond]
      · rw [sameFirst, Function.update_self] at inFirst
        rw [Function.update_of_ne sameSecond] at inSecond
        rw [sameFirst, alone pid inFirst second isSecond inSecond]
    · rw [Function.update_of_ne sameFirst] at inFirst
      by_cases sameSecond : second = head
      · rw [sameSecond, Function.update_self] at inSecond
        rw [sameSecond, alone pid inSecond first isFirst inFirst]
      · rw [Function.update_of_ne sameSecond] at inSecond
        exact threaded.apart first second isFirst isSecond pid inFirst inSecond
  · intro other isOther
    rw [keys other isOther]
    exact threaded.tails other isOther

end Apart

/-! ## Taking a process out -/

/-- `item` has been taken out from between its neighbours. -/
structure Unlinked (q after : Qtab) (item : Int) : Prop where
  lowNext : nexts after (prevs q item) = nexts q item
  highPrev : prevs after (nexts q item) = prevs q item
  otherNexts : ∀ other, other ≠ prevs q item → nexts after other = nexts q other
  otherPrevs : ∀ other, other ≠ nexts q item → prevs after other = prevs q other

theorem Threaded.around {q : Qtab} {lists : Int → List Int} (threaded : Threaded q lists)
    {head item : Int} (isHead : Head head) {front back : List Int}
    (found : lists head = front ++ item :: back) :
    prevs q item = front.getLastD head ∧ nexts q item = back.headD (head + 1) := by
  have strung := threaded.strung head isHead
  rw [found, nodes_split head front (item :: back)] at strung
  constructor
  · exact (Strung.neighbours strung).2
  · have strungItem := threaded.strung head isHead
    have regroup : front ++ item :: back = (front ++ [item]) ++ back := by simp
    rw [found, regroup, nodes_split head (front ++ [item]) back] at strungItem
    have next := (Strung.neighbours strungItem).1
    simpa using next

theorem Threaded.prevs_ne {q : Qtab} {lists : Int → List Int} (threaded : Threaded q lists)
    {head item : Int} (isHead : Head head) {front back : List Int}
    (found : lists head = front ++ item :: back) : prevs q item ≠ item := by
  intro same
  have nodup := threaded.nodes_nodup isHead
  rw [found, nodes_split head front (item :: back), ← (threaded.around isHead found).1, same]
    at nodup
  simp [List.nodup_append] at nodup

theorem Threaded.unlink {q after : Qtab} {lists : Int → List Int} (threaded : Threaded q lists)
    {head item : Int} (isHead : Head head) {front back : List Int}
    (found : lists head = front ++ item :: back) (unlinked : Unlinked q after item)
    (keys : ∀ head, Head head → (after (head + 1)).qkey = (q (head + 1)).qkey) :
    Threaded after (Function.update lists head (front ++ back)) := by
  obtain ⟨low, high⟩ := threaded.around isHead found
  have shape : nodes head (lists head) = (head :: front).dropLast ++
      front.getLastD head :: item :: back.headD (head + 1) :: (back ++ [head + 1]).tail := by
    rw [found, nodes_split head front (item :: back)]
    cases back <;> rfl
  have lowIn : prevs q item ∈ nodes head (lists head) := by
    rw [shape, low]
    simp
  have highIn : nexts q item ∈ nodes head (lists head) := by
    rw [shape, high]
    simp
  have kept : ∀ pid ∈ front ++ back, pid ∈ lists head := by
    intro pid member
    rw [found]
    rcases List.mem_append.mp member with inFront | inBack
    · exact List.mem_append_left _ inFront
    · exact List.mem_append_right _ (List.mem_cons_of_mem _ inBack)
  apply threaded.replace
  · rw [nodes_split]
    have strung := threaded.strung head isHead
    have nodup := threaded.nodes_nodup isHead
    rw [shape] at strung nodup
    apply Strung.unlink strung nodup
    · rw [← low, unlinked.lowNext, high]
    · rw [← high, unlinked.highPrev, low]
    · intro index away
      exact unlinked.otherNexts index (by rw [low]; exact away)
    · intro index away
      exact unlinked.otherPrevs index (by rw [high]; exact away)
  · intro other isOther different
    apply Strung.congr (threaded.strung other isOther)
    · intro index member
      apply unlinked.otherNexts
      intro equal
      rw [equal] at member
      exact different (threaded.nodes_apart isOther isHead
        ((List.dropLast_sublist _).subset member) lowIn)
    · intro index member
      apply unlinked.otherPrevs
      intro equal
      rw [equal] at member
      exact different (threaded.nodes_apart isOther isHead (List.mem_of_mem_tail member) highIn)
  · have nodup := threaded.nodup head isHead
    rw [found] at nodup
    exact nodup.sublist (List.Sublist.append_left (List.sublist_cons_self item back) front)
  · intro pid member
    exact threaded.procs head isHead pid (kept pid member)
  · intro pid member other isOther inOther
    exact threaded.apart other head isOther isHead pid inOther (kept pid member)
  · exact keys

/-! ## Putting a process in -/

/-- `item` has been put in between `low` and `high`. -/
structure LinkedIn (q after : Qtab) (item low high : Int) : Prop where
  lowNext : nexts after low = item
  itemPrev : prevs after item = low
  itemNext : nexts after item = high
  highPrev : prevs after high = item
  otherNexts : ∀ other, other ≠ low → other ≠ item → nexts after other = nexts q other
  otherPrevs : ∀ other, other ≠ high → other ≠ item → prevs after other = prevs q other

def OnNoList (lists : Int → List Int) (pid : Int) : Prop := ∀ head, Head head → pid ∉ lists head

theorem not_node {head pid : Int} {pids : List Int} (isHead : Head head) (isProc : pid < nproc)
    (absent : pid ∉ pids) : pid ∉ nodes head pids := by
  unfold Head rdyhead at isHead
  unfold nproc at isProc
  simp only [nodes, List.mem_cons, List.mem_append, List.not_mem_nil, or_false, not_or]
  exact ⟨by omega, absent, by omega⟩

theorem Threaded.link {q after : Qtab} {lists : Int → List Int} (threaded : Threaded q lists)
    {head item : Int} (isHead : Head head) {front back : List Int}
    (found : lists head = front ++ back) (isProc : 0 ≤ item ∧ item < nproc)
    (onNone : OnNoList lists item)
    (linkedIn : LinkedIn q after item (front.getLastD head) (back.headD (head + 1)))
    (keys : ∀ head, Head head → (after (head + 1)).qkey = (q (head + 1)).qkey) :
    Threaded after (Function.update lists head (front ++ item :: back)) := by
  have shape : nodes head (lists head) = (head :: front).dropLast ++
      front.getLastD head :: back.headD (head + 1) :: (back ++ [head + 1]).tail := by
    rw [found, nodes_split head front back]
  have lowIn : front.getLastD head ∈ nodes head (lists head) := by
    rw [shape]
    simp
  have highIn : back.headD (head + 1) ∈ nodes head (lists head) := by
    rw [shape]
    simp
  have fresh : ∀ other, Head other → item ∉ nodes other (lists other) := by
    intro other isOther
    exact not_node isOther isProc.2 (onNone other isOther)
  apply threaded.replace
  · have grown : nodes head (front ++ item :: back) = (head :: front).dropLast ++
        front.getLastD head :: item :: back.headD (head + 1) :: (back ++ [head + 1]).tail := by
      rw [nodes_split head front (item :: back)]
      cases back <;> rfl
    rw [grown]
    have strung := threaded.strung head isHead
    have nodup := threaded.nodes_nodup isHead
    have absent := fresh head isHead
    rw [shape] at strung nodup absent
    exact Strung.link strung nodup absent linkedIn.lowNext linkedIn.itemPrev linkedIn.itemNext
      linkedIn.highPrev linkedIn.otherNexts linkedIn.otherPrevs
  · intro other isOther different
    apply Strung.congr (threaded.strung other isOther)
    · intro index member
      have within := (List.dropLast_sublist _).subset member
      apply linkedIn.otherNexts
      · intro equal
        rw [equal] at within
        exact different (threaded.nodes_apart isOther isHead within lowIn)
      · intro equal
        rw [equal] at within
        exact fresh other isOther within
    · intro index member
      have within := List.mem_of_mem_tail member
      apply linkedIn.otherPrevs
      · intro equal
        rw [equal] at within
        exact different (threaded.nodes_apart isOther isHead within highIn)
      · intro equal
        rw [equal] at within
        exact fresh other isOther within
  · have nodup := threaded.nodup head isHead
    have absent := onNone head isHead
    rw [found] at nodup absent
    exact List.nodup_middle.mpr (List.nodup_cons.mpr ⟨absent, nodup⟩)
  · intro pid member
    rcases List.mem_cons.mp (List.perm_middle.mem_iff.mp member) with same | old
    · rw [same]
      exact isProc
    · rw [← found] at old
      exact threaded.procs head isHead pid old
  · intro pid member other isOther inOther
    rcases List.mem_cons.mp (List.perm_middle.mem_iff.mp member) with same | old
    · rw [same] at inOther
      exact absurd inOther (onNone other isOther)
    · rw [← found] at old
      exact threaded.apart other head isOther isHead pid inOther old
  · exact keys

/-! ## The operations -/

theorem dequeue_qkey (q : Qtab) (item other : Int) :
    (dequeue q item other).qkey = (q other).qkey := by
  simp [dequeue]

theorem dequeue_unlinked {q : Qtab} {item : Int} (proper : prevs q item ≠ item) :
    Unlinked q (dequeue q item) item := by
  unfold prevs at proper
  constructor
  · simp [nexts, prevs, dequeue]
  · simp [nexts, prevs, dequeue, Ne.symm proper]
  · intro other away
    unfold prevs at away
    simp [nexts, dequeue, away]
  · intro other away
    unfold nexts at away
    simp [prevs, dequeue, Ne.symm proper, away]

theorem enqueue_qkey (q : Qtab) (item tail other : Int) :
    (enqueue q item tail other).qkey = (q other).qkey := by
  simp [enqueue]

theorem enqueue_linkedIn {q : Qtab} {item tail : Int} (away : tail ≠ item)
    (proper : prevs q tail ≠ item) : LinkedIn q (enqueue q item tail) item (prevs q tail) tail := by
  unfold prevs at proper
  constructor
  · simp [nexts, prevs, enqueue, away]
  · simp [prevs, enqueue, away, Ne.symm away]
  · simp [nexts, enqueue, away, Ne.symm proper]
  · simp [prevs, enqueue]
  · intro other awayLow awayItem
    unfold prevs at awayLow
    simp [nexts, enqueue, away, awayLow, awayItem]
  · intro other awayHigh awayItem
    simp [prevs, enqueue, awayHigh, awayItem]

theorem insert_qkey (q : Qtab) (proc head other : Int) (key : BitVec 32) :
    (insert q proc head key other).qkey = if other = proc then key else (q other).qkey := by
  simp [insert]

theorem insert_linkedIn {q : Qtab} {proc head high : Int} {key : BitVec 32}
    (stops : insertScan q key nqent (q head).qnext = high) (away : high ≠ proc)
    (proper : prevs q high ≠ proc) :
    LinkedIn q (insert q proc head key) proc (prevs q high) high := by
  unfold prevs at proper
  constructor
  · simp [nexts, prevs, insert, stops]
  · simp [prevs, insert, stops, Ne.symm away]
  · simp [nexts, insert, stops, Ne.symm proper]
  · simp [prevs, insert, stops]
  · intro other awayLow awayItem
    unfold prevs at awayLow
    simp [nexts, insert, stops, awayLow, awayItem]
  · intro other awayHigh awayItem
    simp [prevs, insert, stops, awayHigh, awayItem]

theorem insertd_linkedIn {q : Qtab} {pid head low high : Int} {key left : BitVec 32}
    (stops : insertdScan q nqent head (q head).qnext key = (low, high, left))
    (awayLow : low ≠ pid) (awayHigh : high ≠ pid) :
    LinkedIn q (insertd q pid head key) pid low high := by
  unfold insertd
  rw [stops]
  dsimp only
  constructor
  · split <;> simp [nexts]
  · split <;> simp [prevs, Ne.symm awayHigh]
  · split <;> simp [nexts, Ne.symm awayLow]
  · split <;> simp [prevs]
  · intro other notLow notItem
    split <;> simp [nexts, notLow, notItem]
  · intro other notHigh notItem
    split <;> simp [prevs, notHigh, notItem]

theorem insertd_qkey {q : Qtab} {pid head low high other : Int} {key left : BitVec 32}
    (stops : insertdScan q nqent head (q head).qnext key = (low, high, left))
    (away : other ≠ pid) (notNext : other ≠ high ∨ nproc ≤ other) :
    (insertd q pid head key other).qkey = (q other).qkey := by
  unfold insertd
  rw [stops]
  dsimp only
  split
  · rename_i near
    have awayHigh : other ≠ high := by
      rcases notNext with awayHigh | large
      · exact awayHigh
      · omega
    simp [away, awayHigh]
  · simp [away]

theorem unsleepq_unlinked {q : Qtab} {item : Int} (proper : prevs q item ≠ item) :
    Unlinked q (unsleepq q item) item := by
  unfold unsleepq
  dsimp only
  split
  · have kept : prevs (setKey q (q item).qnext ((q (q item).qnext).qkey + (q item).qkey)) item ≠
        item := by
      simpa [prevs] using proper
    have unlinked := dequeue_unlinked kept
    constructor
    · simpa [nexts, prevs] using unlinked.lowNext
    · simpa [nexts, prevs] using unlinked.highPrev
    · intro other away
      simpa [nexts] using unlinked.otherNexts other (by simpa [prevs] using away)
    · intro other away
      simpa [prevs] using unlinked.otherPrevs other (by simpa [nexts] using away)
  · exact dequeue_unlinked proper

theorem unsleepq_qkey {q : Qtab} {item other : Int} (notNext : other ≠ nexts q item ∨ nproc ≤ other) :
    (unsleepq q item other).qkey = (q other).qkey := by
  unfold unsleepq
  split
  · rename_i near
    have away : other ≠ (q item).qnext := by
      rcases notNext with away | large
      · exact away
      · omega
    rw [dequeue_qkey]
    simp [away]
  · exact dequeue_qkey q item other

/-! ## The scans end on the list -/

theorem not_maxint_slt (key : BitVec 32) : maxint.slt key = false := by
  have bound := key.toInt_lt
  have value : maxint.toInt = 2147483647 := by decide
  rw [BitVec.slt_eq_decide, value, decide_eq_false_iff_not]
  omega

theorem Strung.next_head {next prev : Int → Int} {first tail : Int} {rest : List Int}
    (strung : Strung next prev (first :: (rest ++ [tail]))) : next first = rest.headD tail := by
  cases rest with
  | nil => exact (List.isChain_cons_cons.mp strung).1.1
  | cons second others => exact (List.isChain_cons_cons.mp strung).1.1

theorem Strung.rest {next prev : Int → Int} {first : Int} {others : List Int}
    (strung : Strung next prev (first :: others)) : Strung next prev others :=
  List.IsChain.of_cons strung

def keyOf (q : Qtab) (pid : Int) : Int := (q pid).qkey.toInt

theorem slt_iff_lower (q : Qtab) (key : BitVec 32) (pid : Int) :
    (q pid).qkey.slt key = lower (keyOf q) key.toInt pid := by
  rw [BitVec.slt_eq_decide]
  rfl

/-- The scan stops at the first key that is not less. -/
theorem insertScan_stops {q : Qtab} (key : BitVec 32) {tail : Int}
    (full : (q tail).qkey = maxint) (rest : List Int) :
    ∀ fuel, Strung (nexts q) (prevs q) (rest ++ [tail]) → rest.length < fuel →
      insertScan q key fuel (rest.headD tail) =
        (rest.dropWhile (lower (keyOf q) key.toInt)).headD tail := by
  induction rest with
  | nil =>
      intro fuel strung enough
      cases fuel with
      | zero => omega
      | succ fuel => simp [insertScan, full, not_maxint_slt]
  | cons pid others ih =>
      intro fuel strung enough
      cases fuel with
      | zero => omega
      | succ fuel =>
          have compared := slt_iff_lower q key pid
          by_cases goesOn : lower (keyOf q) key.toInt pid = true
          · have next : (q pid).qnext = others.headD tail := Strung.next_head strung
            have shorter : others.length < fuel := by
              simp only [List.length_cons] at enough
              omega
            have stops := ih fuel (Strung.rest strung) shorter
            rw [List.dropWhile_cons_of_pos goesOn, ← stops, ← next]
            simp [insertScan, compared, goesOn]
          · rw [List.dropWhile_cons_of_neg goesOn]
            simp [insertScan, compared, goesOn]

theorem insertdScan_stops {q : Qtab} {tail : Int} (full : (q tail).qkey = maxint)
    (rest : List Int) :
    ∀ fuel prev key, Strung (nexts q) (prevs q) (rest ++ [tail]) → rest.length < fuel →
      ∃ front back left, rest = front ++ back ∧
        insertdScan q fuel prev (rest.headD tail) key =
          (front.getLastD prev, back.headD tail, left) := by
  induction rest with
  | nil =>
      intro fuel prev key strung enough
      cases fuel with
      | zero => omega
      | succ fuel =>
          refine ⟨[], [], key, rfl, ?_⟩
          simp [insertdScan, full, not_maxint_slt]
  | cons pid others ih =>
      intro fuel prev key strung enough
      cases fuel with
      | zero => omega
      | succ fuel =>
          by_cases goesOn : (q pid).qkey.slt key = true
          · have next : (q pid).qnext = others.headD tail := Strung.next_head strung
            have shorter : others.length < fuel := by
              simp only [List.length_cons] at enough
              omega
            obtain ⟨front, back, left, split, stops⟩ :=
              ih fuel pid (key - (q pid).qkey) (Strung.rest strung) shorter
            refine ⟨pid :: front, back, left, by rw [split, List.cons_append], ?_⟩
            rw [List.getLastD_cons, ← stops, ← next]
            simp [insertdScan, goesOn]
          · refine ⟨[], pid :: others, key, rfl, ?_⟩
            simp [insertdScan, goesOn]

section Operations

variable {q : Qtab} {lists : Int → List Int} {head : Int}

theorem Threaded.length_le (threaded : Threaded q lists) (isHead : Head head) :
    (lists head).length ≤ 50 := by
  have within : (lists head).toFinset ⊆ Finset.Ico (0 : Int) 50 := by
    intro pid member
    have := threaded.procs head isHead pid (List.mem_toFinset.mp member)
    unfold nproc at this
    exact Finset.mem_Ico.mpr this
  have card := Finset.card_le_card within
  rw [List.toFinset_card_of_nodup (threaded.nodup head isHead), Int.card_Ico] at card
  simpa using card

theorem Threaded.tail_prev (threaded : Threaded q lists) (isHead : Head head) :
    prevs q (head + 1) = (lists head).getLastD head := by
  have strung := threaded.strung head isHead
  have shape := nodes_split head (lists head) []
  rw [List.append_nil] at shape
  rw [shape] at strung
  exact (Strung.neighbours strung).2

theorem Threaded.head_next (threaded : Threaded q lists) (isHead : Head head) :
    nexts q head = (lists head).headD (head + 1) :=
  Strung.next_head (threaded.strung head isHead)

theorem Threaded.dequeue (threaded : Threaded q lists) (isHead : Head head) {pid : Int}
    {front back : List Int} (found : lists head = front ++ pid :: back) :
    Threaded (Kernel.dequeue q pid) (Function.update lists head (front ++ back)) := by
  apply threaded.unlink isHead found
  · apply dequeue_unlinked
    exact threaded.prevs_ne isHead found
  · intro other isOther
    exact dequeue_qkey q pid (other + 1)

theorem Threaded.unsleepq (threaded : Threaded q lists) (isHead : Head head) {pid : Int}
    {front back : List Int} (found : lists head = front ++ pid :: back) :
    Threaded (Kernel.unsleepq q pid) (Function.update lists head (front ++ back)) := by
  apply threaded.unlink isHead found
  · apply unsleepq_unlinked
    exact threaded.prevs_ne isHead found
  · intro other isOther
    apply unsleepq_qkey
    right
    unfold Head rdyhead at isOther
    unfold nproc
    omega

theorem Threaded.between (threaded : Threaded q lists) (isHead : Head head)
    {front back : List Int} (found : lists head = front ++ back) :
    prevs q (back.headD (head + 1)) = front.getLastD head := by
  have strung := threaded.strung head isHead
  rw [found, nodes_split head front back] at strung
  exact (Strung.neighbours strung).2

/-- A process on no list is none of the nodes that a new one goes between. -/
theorem ends_away (isHead : Head head)
    {front back : List Int} (found : lists head = front ++ back) {pid : Int}
    (isProc : pid < nproc) (onNone : OnNoList lists pid) :
    front.getLastD head ≠ pid ∧ back.headD (head + 1) ≠ pid := by
  have absent := not_node isHead isProc (onNone head isHead)
  rw [found, nodes_split head front back] at absent
  simp only [List.mem_append, List.mem_cons, not_or] at absent
  exact ⟨Ne.symm absent.2.1, Ne.symm absent.2.2.1⟩

theorem Threaded.enqueue (threaded : Threaded q lists) (isHead : Head head) {pid : Int}
    (isProc : 0 ≤ pid ∧ pid < nproc) (onNone : OnNoList lists pid) :
    Threaded (Kernel.enqueue q pid (head + 1))
      (Function.update lists head (lists head ++ [pid])) := by
  have found : lists head = lists head ++ [] := (List.append_nil _).symm
  obtain ⟨awayLow, awayHigh⟩ := ends_away isHead found isProc.2 onNone
  have last := threaded.tail_prev isHead
  apply threaded.link isHead found isProc onNone
  · rw [← last] at awayLow ⊢
    exact enqueue_linkedIn awayHigh awayLow
  · intro other isOther
    exact enqueue_qkey q pid (head + 1) (other + 1)

theorem Threaded.insert (threaded : Threaded q lists) (isHead : Head head) {pid : Int}
    (isProc : 0 ≤ pid ∧ pid < nproc) (onNone : OnNoList lists pid) (key : BitVec 32) :
    Threaded (Kernel.insert q pid head key)
      (Function.update lists head (place (keyOf q) key.toInt pid (lists head))) := by
  have short := threaded.length_le isHead
  have stops := insertScan_stops key
    (threaded.tails head isHead) (lists head) nqent
    (Strung.rest (threaded.strung head isHead)) (by unfold nqent; omega)
  rw [← threaded.head_next isHead] at stops
  have found := split_lower (keyOf q) key.toInt (lists head)
  have away := ends_away isHead found isProc.2 onNone
  have low := threaded.between isHead found
  rw [place]
  apply threaded.link isHead found isProc onNone
  · rw [← low] at away ⊢
    exact insert_linkedIn stops away.2 away.1
  · intro other isOther
    rw [insert_qkey, if_neg]
    unfold Head rdyhead at isOther
    unfold nproc at isProc
    omega

/-- `insertd` where its scan has stopped. -/
theorem Threaded.insertd_at (threaded : Threaded q lists) (isHead : Head head) {pid : Int}
    (isProc : 0 ≤ pid ∧ pid < nproc) (onNone : OnNoList lists pid) {key left : BitVec 32}
    {front back : List Int} (found : lists head = front ++ back)
    (stops : insertdScan q nqent head (q head).qnext key =
      (front.getLastD head, back.headD (head + 1), left)) :
    Threaded (Kernel.insertd q pid head key)
        (Function.update lists head (front ++ pid :: back)) ∧
      ∀ other, other ≠ pid → other ∉ back.head? →
        (Kernel.insertd q pid head key other).qkey = (q other).qkey := by
  obtain ⟨awayLow, awayHigh⟩ := ends_away isHead found isProc.2 onNone
  refine ⟨threaded.link isHead found isProc onNone ?_ ?_, ?_⟩
  · exact insertd_linkedIn stops awayLow awayHigh
  · intro other isOther
    unfold Head rdyhead at isOther
    unfold nproc at isProc
    exact insertd_qkey stops (by omega) (Or.inr (by unfold nproc; omega))
  · intro other away absent
    apply insertd_qkey stops away
    cases back with
    | nil =>
        unfold Head rdyhead at isHead
        by_cases same : other = head + 1
        · right
          unfold nproc
          omega
        · exact Or.inl same
    | cons next others =>
        left
        intro same
        exact absent (congrArg some same.symm)

theorem Threaded.insertd (threaded : Threaded q lists) (isHead : Head head) {pid : Int}
    (isProc : 0 ≤ pid ∧ pid < nproc) (onNone : OnNoList lists pid) (key : BitVec 32) :
    ∃ front back, lists head = front ++ back ∧
      Threaded (Kernel.insertd q pid head key)
        (Function.update lists head (front ++ pid :: back)) ∧
      ∀ other, other ≠ pid → other ∉ lists head →
        (Kernel.insertd q pid head key other).qkey = (q other).qkey := by
  have short := threaded.length_le isHead
  obtain ⟨front, back, left, found, stops⟩ := insertdScan_stops
    (threaded.tails head isHead) (lists head) nqent head key
    (Strung.rest (threaded.strung head isHead)) (by unfold nqent; omega)
  rw [← threaded.head_next isHead] at stops
  obtain ⟨linked, keys⟩ := threaded.insertd_at isHead isProc onNone found stops
  refine ⟨front, back, found, linked, ?_⟩
  intro other away absent
  apply keys other away
  intro first
  rw [found] at absent
  exact absent (List.mem_append_right _ (List.mem_of_head? first))

theorem Threaded.getfirst_nil (threaded : Threaded q lists) (isHead : Head head)
    (none : lists head = []) : getfirst q head = (empty, q) := by
  have next := threaded.head_next isHead
  rw [none] at next
  unfold Head rdyhead at isHead
  unfold nexts at next
  simp only [List.headD_nil] at next
  simp only [getfirst, next, nproc]
  rw [if_neg (by omega)]

theorem Threaded.getfirst_cons (threaded : Threaded q lists) (isHead : Head head) {pid : Int}
    {others : List Int} (some : lists head = pid :: others) :
    getfirst q head = (pid, Kernel.dequeue q pid) := by
  have next := threaded.head_next isHead
  rw [some] at next
  unfold nexts at next
  have isProc := threaded.procs head isHead pid (by rw [some]; exact List.mem_cons_self)
  simp only [List.headD_cons] at next
  simp only [getfirst, next]
  rw [if_pos isProc.2]

theorem Threaded.getlast_concat (threaded : Threaded q lists) (isHead : Head head) {pid : Int}
    {others : List Int} (some : lists head = others ++ [pid]) :
    getlast q (head + 1) = (pid, Kernel.dequeue q pid) := by
  have prev := threaded.tail_prev isHead
  rw [some, List.getLastD_concat] at prev
  unfold prevs at prev
  have isProc := threaded.procs head isHead pid (by rw [some]; simp)
  simp only [getlast, prev]
  rw [if_pos isProc.2]

theorem Threaded.isempty_iff (threaded : Threaded q lists) (isHead : Head head) :
    isempty q head ↔ lists head = [] := by
  have next := threaded.head_next isHead
  have procs := threaded.procs head isHead
  unfold nexts at next
  unfold Head rdyhead at isHead
  unfold isempty
  cases shape : lists head with
  | nil =>
      rw [shape, List.headD_nil] at next
      rw [next]
      unfold nproc
      exact ⟨fun _ => rfl, fun _ => by omega⟩
  | cons pid others =>
      rw [shape, List.headD_cons] at next
      have isProc := procs pid (by rw [shape]; exact List.mem_cons_self)
      rw [next]
      exact ⟨fun large => absurd isProc.2 (by omega), fun impossible => absurd impossible (List.cons_ne_nil _ _)⟩

end Operations

end MvsXinu.Kernel
