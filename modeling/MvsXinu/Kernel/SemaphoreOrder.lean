import MvsXinu.Kernel.Consistency

/-!
# Counts and queues of the semaphores

A count below zero is the number of processes that wait, and these stand in the order of
their calls of `wait`. The calls are stamped to say so. A count that is created negative
(`screate` takes an unsigned one) or raised past the largest integer breaks the law.
-/

namespace MvsXinu.Kernel

open MvsXinu.Runs

set_option autoImplicit false

/-- The processes from `index` on to the tail of a list. -/
def walk (q : Qtab) : Nat → Int → List Int
  | 0, _ => []
  | fuel + 1, index => if index < nproc then index :: walk q fuel (q index).qnext else []

/-- The processes on a list, as the queue table has them. -/
def queued (q : Qtab) (head : Int) : List Int := walk q nqent (q head).qnext

theorem walk_strung {q : Qtab} {tail : Int} (isTail : nproc ≤ tail) (pids : List Int) :
    ∀ fuel, Links.Strung (nexts q) (prevs q) (pids ++ [tail]) → (∀ pid ∈ pids, pid < nproc) →
      pids.length < fuel → walk q fuel (pids.headD tail) = pids := by
  induction pids with
  | nil =>
      intro fuel _ _ enough
      cases fuel with
      | zero => omega
      | succ fuel =>
          have ends : ¬ tail < nproc := by omega
          simp [walk, ends]
  | cons pid others ih =>
      intro fuel strung procs enough
      cases fuel with
      | zero => omega
      | succ fuel =>
          have next : (q pid).qnext = others.headD tail := Strung.next_head strung
          have isProc : pid < nproc := procs pid List.mem_cons_self
          have rest := ih fuel (Strung.rest strung)
            (fun other member => procs other (List.mem_cons_of_mem _ member))
            (by simp only [List.length_cons] at enough; omega)
          rw [List.headD_cons, walk, if_pos isProc, next, rest]

theorem Threaded.queued_eq {q : Qtab} {lists : Int → List Int} (threaded : Threaded q lists)
    {head : Int} (isHead : Head head) : queued q head = lists head := by
  have short := threaded.length_le isHead
  have next := threaded.head_next isHead
  unfold nexts at next
  unfold queued
  rw [next]
  apply walk_strung
  · unfold Head rdyhead at isHead
    unfold nproc
    omega
  · exact Strung.rest (threaded.strung head isHead)
  · intro pid member
    exact (threaded.procs head isHead pid member).2
  · unfold nqent
    omega

/-! ## Counts -/

/-- The queue is as long as the count is below zero; a free semaphore has none. -/
def Balanced (entry : Sentry) (pids : List Int) : Prop :=
  match entry.sstate with
  | .free => pids = []
  | .used => (pids.length : Int) = max 0 (-entry.semcnt.toInt)

def Sems.Balanced (sems : Sems) : Prop :=
  ∀ sem, ¬ isbadsem sem → Kernel.Balanced (sems.semaph sem) (sems.waiting sem)

/-- A process is on no queue twice, and they are in the order of the stamps. -/
structure Sems.Ordered (sems : Sems) (since : Int → Nat) (calls : Nat) : Prop where
  sorted : ∀ sem, (sems.waiting sem).Pairwise fun first second => since first < since second
  past : ∀ sem, ∀ pid ∈ sems.waiting sem, since pid < calls

theorem toInt_succ {count : BitVec 32} (below : count ≠ maxint) :
    (count + 1).toInt = count.toInt + 1 := by
  have notMax : count.toInt ≠ 2147483647 := by
    intro same
    exact below (BitVec.eq_of_toInt_eq (by rw [same]; decide))
  have high := count.toInt_lt
  have low := count.le_toInt
  have one : (1 : BitVec 32).toInt = 1 := by decide
  rw [BitVec.toInt_add, one]
  apply Int.bmod_eq_of_le <;> omega

theorem toInt_pred {count : BitVec 32} (above : -2147483648 < count.toInt) :
    (count - 1).toInt = count.toInt - 1 := by
  have high := count.toInt_lt
  have one : (1 : BitVec 32).toInt = 1 := by decide
  rw [BitVec.toInt_sub, one]
  apply Int.bmod_eq_of_le <;> omega

theorem slt_zero_iff (count : BitVec 32) : count.slt 0 = true ↔ count.toInt < 0 := by
  rw [BitVec.slt_eq_decide, decide_eq_true_iff]
  simp

section Steps

variable {sems : Sems} {sem : Int} {since : Int → Nat} {calls : Nat}

/-- One semaphore has changed. -/
theorem Sems.Balanced.change {entry : Sentry} {pids : List Int} (balanced : sems.Balanced)
    (fits : Kernel.Balanced entry pids) :
    Sems.Balanced ⟨Function.update sems.semaph sem entry, Function.update sems.waiting sem pids⟩ := by
  intro other good
  by_cases same : other = sem
  · rw [same]
    simpa using fits
  · simpa [Function.update_of_ne same] using balanced other good

theorem Sems.Ordered.change {pids : List Int} {semaph : Int → Sentry}
    (ordered : sems.Ordered since calls) (part : pids.Sublist (sems.waiting sem)) :
    Sems.Ordered ⟨semaph, Function.update sems.waiting sem pids⟩ since calls := by
  constructor
  · intro other
    by_cases same : other = sem
    · rw [same]
      simpa using (ordered.sorted sem).sublist part
    · simpa [Function.update_of_ne same] using ordered.sorted other
  · intro other pid member
    by_cases same : other = sem
    · rw [same] at member
      exact ordered.past sem pid (part.subset (by simpa using member))
    · exact ordered.past other pid (by simpa [Function.update_of_ne same] using member)

theorem Sems.waiting_self (sems : Sems) (sem : Int) :
    Function.update sems.waiting sem (sems.waiting sem) = sems.waiting :=
  Function.update_eq_self sem sems.waiting

/-- A call of `wait` that blocks. -/
theorem Balanced.blocked {entry : Sentry} {pids : List Int} (fits : Kernel.Balanced entry pids)
    (used : entry.sstate = .used) (short : pids.length ≤ 50)
    (negative : (entry.semcnt - 1).slt 0 = true) (pid : Int) :
    Kernel.Balanced { entry with semcnt := entry.semcnt - 1 } (pids ++ [pid]) := by
  unfold Kernel.Balanced at fits ⊢
  simp only [used, List.length_append, List.length_singleton] at fits ⊢
  have above : -2147483648 < entry.semcnt.toInt := by omega
  rw [slt_zero_iff, toInt_pred above] at negative
  rw [toInt_pred above]
  omega

/-- A call of `wait` that does not block. -/
theorem Balanced.passed {entry : Sentry} {pids : List Int} (fits : Kernel.Balanced entry pids)
    (used : entry.sstate = .used) (short : pids.length ≤ 50)
    (notNegative : ¬ (entry.semcnt - 1).slt 0 = true) :
    Kernel.Balanced { entry with semcnt := entry.semcnt - 1 } pids ∧
      (entry.semcnt - 1).toInt = entry.semcnt.toInt - 1 ∧ 0 < entry.semcnt.toInt := by
  unfold Kernel.Balanced at fits ⊢
  simp only [used] at fits ⊢
  have above : -2147483648 < entry.semcnt.toInt := by omega
  rw [slt_zero_iff, toInt_pred above] at notNegative
  rw [toInt_pred above]
  omega

/-- A signal that releases the first process. -/
theorem Balanced.released {entry : Sentry} {pids : List Int} (fits : Kernel.Balanced entry pids)
    (used : entry.sstate = .used) (negative : entry.semcnt.slt 0 = true) :
    Kernel.Balanced { entry with semcnt := entry.semcnt + 1 } pids.tail := by
  rw [slt_zero_iff] at negative
  have below : entry.semcnt ≠ maxint := by
    intro same
    rw [same] at negative
    exact absurd negative (by decide)
  unfold Kernel.Balanced at fits ⊢
  simp only [used, List.length_tail] at fits ⊢
  rw [toInt_succ below]
  omega

/-- A signal that nobody waits for. -/
theorem Balanced.raised {entry : Sentry} {pids : List Int} (fits : Kernel.Balanced entry pids)
    (used : entry.sstate = .used) (notNegative : ¬ entry.semcnt.slt 0 = true)
    (below : entry.semcnt ≠ maxint) :
    Kernel.Balanced { entry with semcnt := entry.semcnt + 1 } pids := by
  rw [slt_zero_iff] at notNegative
  unfold Kernel.Balanced at fits ⊢
  simp only [used] at fits ⊢
  rw [toInt_succ below]
  omega

theorem wait_balanced {pid : Int} (balanced : sems.Balanced) (good : ¬ isbadsem sem)
    (used : (sems.semaph sem).sstate = .used) (short : (sems.waiting sem).length ≤ 50) :
    (sems.wait sem pid).Balanced := by
  have fits := balanced sem good
  unfold Sems.wait
  dsimp only
  split
  · rename_i negative
    exact balanced.change (fits.blocked used short negative pid)
  · rename_i notNegative
    unfold Sems.setCount
    rw [← sems.waiting_self sem]
    exact balanced.change (fits.passed used short notNegative).1

theorem signal_balanced (balanced : sems.Balanced) (good : ¬ isbadsem sem)
    (used : (sems.semaph sem).sstate = .used) (below : (sems.semaph sem).semcnt ≠ maxint) :
    (sems.signal sem).Balanced := by
  have fits := balanced sem good
  unfold Sems.signal
  dsimp only
  split
  · rename_i negative
    exact balanced.change (fits.released used negative)
  · rename_i notNegative
    unfold Sems.setCount
    rw [← sems.waiting_self sem]
    exact balanced.change (fits.raised used notNegative below)

theorem signal_ordered (ordered : sems.Ordered since calls) :
    (sems.signal sem).Ordered since calls := by
  unfold Sems.signal
  dsimp only
  split
  · exact ordered.change (List.tail_sublist _)
  · exact ⟨ordered.sorted, ordered.past⟩

theorem signal_entry (sems : Sems) (sem : Int) :
    (sems.signal sem).semaph sem =
      { sems.semaph sem with semcnt := (sems.semaph sem).semcnt + 1 } := by
  unfold Sems.signal
  dsimp only
  split <;> simp [Sems.setCount, Sems.setWaiting]

theorem signals_balanced (good : ¬ isbadsem sem) (count : Nat) :
    ∀ sems : Sems, sems.Balanced → (sems.semaph sem).sstate = .used →
      (sems.semaph sem).semcnt.toInt + count < 2147483648 →
      (Sems.signals sem count sems).Balanced := by
  induction count with
  | zero =>
      intro sems balanced _ _
      exact balanced
  | succ count ih =>
      intro sems balanced used room
      have below : (sems.semaph sem).semcnt ≠ maxint := by
        intro same
        have value : maxint.toInt = 2147483647 := by decide
        rw [same, value] at room
        omega
      apply ih
      · exact signal_balanced balanced good used below
      · rw [signal_entry]
        exact used
      · rw [signal_entry]
        dsimp only
        rw [toInt_succ below]
        push_cast at room
        omega

theorem signals_ordered (count : Nat) : ∀ sems : Sems, sems.Ordered since calls →
    (Sems.signals sem count sems).Ordered since calls := by
  induction count with
  | zero =>
      intro sems ordered
      exact ordered
  | succ count ih =>
      intro sems ordered
      exact ih _ (signal_ordered ordered)

/-- A process that waits nowhere takes the next number. -/
theorem Sems.Ordered.stamp {pid : Int} (ordered : sems.Ordered since calls)
    (absent : ∀ other, pid ∉ sems.waiting other) :
    sems.Ordered (Function.update since pid calls) (calls + 1) := by
  have away : ∀ other, ∀ waiter ∈ sems.waiting other, waiter ≠ pid := by
    intro other waiter member same
    rw [same] at member
    exact absent other member
  constructor
  · intro other
    apply (ordered.sorted other).imp_of_mem
    intro first second inFirst inSecond earlier
    rw [Function.update_of_ne (away other first inFirst),
      Function.update_of_ne (away other second inSecond)]
    exact earlier
  · intro other waiter member
    rw [Function.update_of_ne (away other waiter member)]
    have := ordered.past other waiter member
    omega

theorem wait_ordered {pid : Int} (ordered : sems.Ordered since calls)
    (absent : ∀ other, pid ∉ sems.waiting other) :
    (sems.wait sem pid).Ordered (Function.update since pid calls) (calls + 1) := by
  have kept := ordered.stamp absent
  unfold Sems.wait
  dsimp only
  split
  · constructor
    · intro other
      by_cases same : other = sem
      · rw [same]
        simp only [Sems.setWaiting, Sems.setCount, Function.update_self]
        apply List.pairwise_append.mpr
        refine ⟨kept.sorted sem, List.pairwise_singleton _ _, ?_⟩
        intro waiter member last isLast
        have away : waiter ≠ pid := fun same => absent sem (same ▸ member)
        rw [List.mem_singleton.mp isLast, Function.update_self, Function.update_of_ne away]
        exact ordered.past sem waiter member
      · simpa [Sems.setWaiting, Sems.setCount, Function.update_of_ne same] using kept.sorted other
    · intro other waiter member
      by_cases same : other = sem
      · rw [same] at member
        simp only [Sems.setWaiting, Sems.setCount, Function.update_self, List.mem_append,
          List.mem_singleton] at member
        rcases member with old | isPid
        · exact kept.past sem waiter old
        · rw [isPid, Function.update_self]
          omega
      · apply kept.past other waiter
        simpa [Sems.setWaiting, Sems.setCount, Function.update_of_ne same] using member
  · exact ⟨kept.sorted, kept.past⟩

theorem drop_balanced {pid : Int} (balanced : sems.Balanced) (good : ¬ isbadsem sem)
    (waits : pid ∈ sems.waiting sem) : (sems.drop sem pid).Balanced := by
  have fits := balanced sem good
  have some := List.length_pos_of_mem waits
  unfold Kernel.Balanced at fits
  apply balanced.change
  unfold Kernel.Balanced
  dsimp only
  cases state : (sems.semaph sem).sstate with
  | free =>
      rw [state] at fits
      dsimp only at fits
      rw [fits] at waits
      exact absurd waits List.not_mem_nil
  | used =>
      rw [state] at fits
      dsimp only at fits ⊢
      have below : (sems.semaph sem).semcnt ≠ maxint := by
        intro same
        have value : maxint.toInt = 2147483647 := by decide
        rw [same, value] at fits
        omega
      rw [toInt_succ below, List.length_erase_of_mem waits]
      omega

end Steps

/-! ## A readied process stays ready until it runs -/

def Runnable (k : Xinu) (pid : Int) : Prop :=
  (k.proctab pid).pstate = .ready ∨ (k.proctab pid).pstate = .curr

theorem setState_runnable {k : Xinu} {pid : Int} (runnable : Runnable k pid) (other : Int)
    {state : Pstate} (runs : state = .ready ∨ state = .curr) :
    Runnable (k.setState other state) pid := by
  unfold Runnable Xinu.setState Xinu.setEntry at *
  by_cases same : pid = other
  · simpa [same] using runs
  · simpa [Function.update_of_ne same] using runnable

theorem readyNo_runnable {k : Xinu} {pid : Int} (runnable : Runnable k pid) (other : Int) :
    Runnable (readyNo k other) pid := by
  unfold readyNo
  split
  · exact runnable
  · exact setState_runnable runnable other (Or.inl rfl)

theorem readyFirst_runnable {k : Xinu} {pid : Int} (runnable : Runnable k pid) (head : Int) :
    Runnable (readyFirst k head) pid :=
  readyNo_runnable (k := { k with q := (getfirst k.q head).2 }) runnable _

theorem iohook_runnable {pid : Int} (done : List Int) :
    ∀ k, Runnable k pid → Runnable (iohook k done) pid := by
  induction done with
  | nil =>
      intro k runnable
      exact runnable
  | cons iopid others ih =>
      intro k runnable
      unfold iohook
      split
      · exact ih k runnable
      · exact ih _ (readyNo_runnable runnable iopid)

theorem wakeupLoop_runnable {pid : Int} (fuel : Nat) :
    ∀ k, Runnable k pid → Runnable (wakeupLoop fuel k) pid := by
  induction fuel with
  | zero =>
      intro k runnable
      exact runnable
  | succ fuel ih =>
      intro k runnable
      unfold wakeupLoop
      split
      · exact ih _ (readyFirst_runnable runnable clockq)
      · exact runnable

theorem resched_runnable {k : Xinu} {pid : Int} (runnable : Runnable k pid) (scene : Scene) :
    Runnable (resched k scene) pid := by
  have woken : Runnable (wakeup (iohook k scene.done)) pid := by
    have loop := wakeupLoop_runnable nqent _ (iohook_runnable scene.done k runnable)
    unfold wakeup
    dsimp only
    split
    · exact loop
    · exact loop
  unfold resched
  dsimp only
  split
  · exact woken
  · have waiting : Runnable (preempted (wakeup (iohook k scene.done))) pid := by
      unfold preempted
      split
      · exact setState_runnable woken _ (Or.inl rfl)
      · exact woken
    exact setState_runnable (k := { preempted (wakeup (iohook k scene.done)) with
      q := _, currpid := _ }) waiting _ (Or.inr rfl)

/-! ## Runs -/

/-- The kernel with the calls of `wait` numbered: `since` is the number of a process's last. -/
structure Watched where
  kernel : Xinu
  since : Int → Nat
  calls : Nat

def watch (w : Watched) (event : Call × Scene) : Watched :=
  match event.1 with
  | .wait _ =>
      { kernel := turn w.kernel event
        since := Function.update w.since w.kernel.currpid w.calls
        calls := w.calls + 1 }
  | _ => { w with kernel := turn w.kernel event }

def Watched.queue (w : Watched) (sem : Int) : List Int := queued w.kernel.q (sqhead sem)

/-- What becomes of the queues: one is this, the others are as they were. -/
def QueueBecomes (k later : Xinu) (sem : Int) (pids : List Int) : Prop :=
  queued later.q (sqhead sem) = pids ∧
    ∀ other, ¬ isbadsem other → other ≠ sem →
      queued later.q (sqhead other) = queued k.q (sqhead other) ∧
      later.semaph other = k.semaph other

/-- The law of a semaphore that is in use. -/
structure SemaphoreLaw (w : Watched) (sem : Int) : Prop where
  positive : 0 ≤ (w.kernel.semaph sem).semcnt.toInt → w.queue sem = []
  negative : (w.kernel.semaph sem).semcnt.toInt < 0 →
    ((w.queue sem).length : Int) = -(w.kernel.semaph sem).semcnt.toInt
  waiting : ∀ pid ∈ w.queue sem, 0 ≤ pid ∧ pid < nproc ∧
    (w.kernel.proctab pid).pstate = .wait ∧ (w.kernel.proctab pid).psem = sem
  order : (w.queue sem).Pairwise fun first second => w.since first < w.since second
  signal : (w.kernel.semaph sem).semcnt.toInt < 0 → ∀ scene, ∃ pid rest,
    w.queue sem = pid :: rest ∧ (∀ other ∈ rest, w.since pid < w.since other) ∧
    Runnable (xsignal w.kernel scene sem).2 pid ∧
    QueueBecomes w.kernel (xsignal w.kernel scene sem).2 sem rest
  kill : ∀ pid ∈ w.queue sem, ∀ scene,
    ((killpid w.kernel scene pid).2.semaph sem).semcnt.toInt =
      (w.kernel.semaph sem).semcnt.toInt + 1 ∧
    QueueBecomes w.kernel (killpid w.kernel scene pid).2 sem ((w.queue sem).erase pid)

/-- The counts stay within the integers: none is created negative or raised past the largest. -/
def Countable (k : Xinu) : Call → Prop
  | .screate count => count.slt 0 = false
  | .xsignal sem => unusable k sem ∨ (k.semaph sem).semcnt ≠ maxint
  | .signaln sem count => unusable k sem ∨ count.sle 0 = true ∨
      (k.semaph sem).semcnt.toInt + count.toNat < 2147483648
  | _ => True

def Lawful (w : Watched) (event : Call × Scene) : Prop :=
  Orderly w.kernel event ∧ Countable w.kernel event.1

def started : Watched := { kernel := booted, since := fun _ => 0, calls := 0 }

def Watched.Sound (w : Watched) (lists : Int → List Int) : Prop :=
  Settled w.kernel lists ∧ (semsOf w.kernel lists).Balanced ∧
    (semsOf w.kernel lists).Ordered w.since w.calls

section Law

variable {w : Watched} {lists : Int → List Int} {sem : Int}

theorem Settled.queued_eq {k : Xinu} (settled : Settled k lists) (good : ¬ isbadsem sem) :
    queued k.q (sqhead sem) = waitingOn lists sem := by
  rw [settled.on.threaded.queued_eq (sqhead_head good), waitingOn_good good]

theorem Settled.mem_waiting {k : Xinu} (settled : Settled k lists) (good : ¬ isbadsem sem)
    (pid : Int) : pid ∈ waitingOn lists sem ↔
      IsProc pid ∧ (k.proctab pid).pstate = .wait ∧ (k.proctab pid).psem = sem := by
  rw [waitingOn_good good, settled.on.member (sqhead sem) pid (sqhead_head good),
    home_eq_sqhead good]

theorem Settled.waiting_short {k : Xinu} (settled : Settled k lists) (good : ¬ isbadsem sem) :
    (waitingOn lists sem).length ≤ 50 := by
  rw [waitingOn_good good]
  exact settled.on.threaded.length_le (sqhead_head good)

/-- The running process waits on nothing. -/
theorem Settled.current_absent {k : Xinu} (settled : Settled k lists) (sem : Int) :
    k.currpid ∉ waitingOn lists sem := by
  have running := settled.running
  unfold Xinu.Running at running
  unfold waitingOn
  split
  · exact List.not_mem_nil
  · rename_i good
    exact settled.on.onNoList (by simp [home, running]) (sqhead sem) (sqhead_head good)

theorem Becomes.queueBecomes {k later : Xinu} {sems : Sems} {pids : List Int}
    (settled : Settled k lists) (becomes : Becomes later sems) (good : ¬ isbadsem sem)
    (queue : sems.waiting = Function.update (waitingOn lists) sem pids)
    (table : ∀ other, other ≠ sem → sems.semaph other = k.semaph other) :
    QueueBecomes k later sem pids := by
  obtain ⟨after, settledAfter, semaph, waiting⟩ := becomes
  refine ⟨?_, ?_⟩
  · rw [settledAfter.queued_eq good, waiting, queue, Function.update_self]
  · intro other goodOther away
    rw [settledAfter.queued_eq goodOther, settled.queued_eq goodOther, waiting, queue,
      Function.update_of_ne away, semaph]
    exact ⟨rfl, table other away⟩

theorem Watched.Sound.law (sound : w.Sound lists) (good : ¬ isbadsem sem)
    (used : (w.kernel.semaph sem).sstate = .used) : SemaphoreLaw w sem := by
  obtain ⟨settled, balanced, ordered⟩ := sound
  have queue : w.queue sem = waitingOn lists sem := settled.queued_eq good
  have usable : ¬ unusable w.kernel sem := by
    rintro (bad | free)
    · exact good bad
    · rw [used] at free
      cases free
  have count : ((waitingOn lists sem).length : Int) =
      max 0 (-(w.kernel.semaph sem).semcnt.toInt) := by
    have fits : Kernel.Balanced (w.kernel.semaph sem) (waitingOn lists sem) := balanced sem good
    unfold Kernel.Balanced at fits
    rwa [used] at fits
  have sorted : (waitingOn lists sem).Pairwise fun first second => w.since first < w.since second :=
    ordered.sorted sem
  constructor
  · intro positive
    rw [queue]
    apply List.eq_nil_of_length_eq_zero
    omega
  · intro negative
    rw [queue]
    omega
  · intro pid member
    rw [queue, settled.mem_waiting good] at member
    exact ⟨member.1.1, member.1.2, member.2⟩
  · rw [queue]
    exact sorted
  · intro negative scene
    obtain ⟨pid, rest, found⟩ : ∃ pid rest, waitingOn lists sem = pid :: rest := by
      apply List.exists_cons_of_length_pos
      omega
    have below : (w.kernel.semaph sem).semcnt.slt 0 = true := (slt_zero_iff _).mpr negative
    have first : lists (sqhead sem) = pid :: rest := (waitingOn_good good).symm.trans found
    have taken := settled.on.threaded.getfirst_cons (sqhead_head good) first
    have goodPid := Board.good_of_mem settled.on (sqhead_head good) (sqhead_ne good).1
      (show pid ∈ lists (sqhead sem) by rw [first]; exact List.mem_cons_self)
    refine ⟨pid, rest, queue.trans found, ?_, ?_, ?_⟩
    · intro other member
      rw [found] at sorted
      exact (List.pairwise_cons.mp sorted).1 other member
    · rw [xsignal_eq w.kernel scene usable, taken, if_pos ⟨below, goodPid⟩]
      apply resched_runnable
      unfold signalOnce
      rw [if_pos below]
      unfold readyFirst readyNo
      have takenCounted : getfirst (w.kernel.setCount sem
          ((w.kernel.semaph sem).semcnt + 1)).q (sqhead sem) = _ := taken
      rw [takenCounted, if_neg goodPid]
      left
      simp [Xinu.setState, Xinu.setEntry]
    · have becomes := xsignal_becomes settled scene sem
      rw [if_neg usable] at becomes
      have spec : (semsOf w.kernel lists).signal sem = _ := if_pos below
      rw [spec] at becomes
      apply Becomes.queueBecomes settled becomes good
      · simp [Sems.setWaiting, Sems.setCount, semsOf, found]
      · intro other away
        simp [Sems.setWaiting, Sems.setCount, semsOf, Function.update_of_ne away]
  · intro pid member scene
    rw [queue] at member ⊢
    have some := List.length_pos_of_mem member
    obtain ⟨isProc, waits, psem⟩ := (settled.mem_waiting good pid).mp member
    have onList : pid ∈ lists (sqhead sem) :=
      (settled.on.member _ pid (sqhead_head good)).mpr ⟨isProc, (home_eq_sqhead good).mpr ⟨waits, psem⟩⟩
    have goodPid := Board.good_of_mem settled.on (sqhead_head good) (sqhead_ne good).1 onList
    have becomes := killpid_becomes settled scene pid
    rw [if_pos ⟨goodPid, waits⟩, psem] at becomes
    have below : (w.kernel.semaph sem).semcnt ≠ maxint := by
      intro same
      have value : maxint.toInt = 2147483647 := by decide
      rw [same, value] at count
      omega
    refine ⟨?_, ?_⟩
    · obtain ⟨after, _, semaph, _⟩ := becomes
      rw [semaph, ← toInt_succ below]
      simp [Sems.drop, Sems.setWaiting, Sems.setCount, semsOf]
    · apply Becomes.queueBecomes settled becomes good
      · simp [Sems.drop, Sems.setWaiting, Sems.setCount, semsOf]
      · intro other away
        simp [Sems.drop, Sems.setWaiting, Sems.setCount, semsOf, Function.update_of_ne away]

end Law

/-! ## Every call keeps counts and order -/

theorem used_of_usable {k : Xinu} {sem : Int} (usable : ¬ unusable k sem) :
    ¬ isbadsem sem ∧ (k.semaph sem).sstate = .used := by
  unfold unusable at usable
  push Not at usable
  refine ⟨usable.1, ?_⟩
  cases state : (k.semaph sem).sstate with
  | free => exact absurd state usable.2
  | used => rfl

theorem after_balanced {k : Xinu} {lists : Int → List Int} (settled : Settled k lists)
    (balanced : (semsOf k lists).Balanced) {call : Call} (countable : Countable k call) :
    ((semsOf k lists).after k call).Balanced := by
  cases call with
  | wait sem =>
      dsimp only [Sems.after]
      split
      · exact balanced
      · rename_i usable
        obtain ⟨good, used⟩ := used_of_usable usable
        exact wait_balanced balanced good used (settled.waiting_short good)
  | xsignal sem =>
      dsimp only [Sems.after]
      split
      · exact balanced
      · rename_i usable
        obtain ⟨good, used⟩ := used_of_usable usable
        exact signal_balanced balanced good used (countable.resolve_left usable)
  | signaln sem count =>
      dsimp only [Sems.after]
      split
      · exact balanced
      · rename_i valid
        push Not at valid
        obtain ⟨good, used⟩ := used_of_usable valid.1
        have room := (countable.resolve_left valid.1).resolve_left valid.2
        exact signals_balanced good count.toNat _ balanced used room
  | sreset sem count =>
      dsimp only [Sems.after]
      split
      · exact balanced
      · rename_i valid
        push Not at valid
        obtain ⟨good, used⟩ := used_of_usable valid.1
        have notNegative : ¬ count.toInt < 0 := fun below => valid.2 ((slt_zero_iff count).mpr below)
        apply balanced.change
        unfold Kernel.Balanced
        simp only [show ((semsOf k lists).semaph sem).sstate = .used from used, List.length_nil]
        omega
  | sdelete sem =>
      dsimp only [Sems.after]
      split
      · exact balanced
      · exact balanced.change rfl
  | screate count =>
      obtain ⟨found, _⟩ := screate_becomes settled count
      dsimp only [Sems.after]
      split
      · exact balanced
      · rename_i valid
        obtain ⟨good, free⟩ := found valid
        have nobody : waitingOn lists (screate k count).1 = [] := by
          have fits : Kernel.Balanced (k.semaph (screate k count).1) _ := balanced _ good
          unfold Kernel.Balanced at fits
          rwa [free] at fits
        have notNegative : ¬ count.toInt < 0 := by
          intro below
          have negative := (slt_zero_iff count).mpr below
          rw [show count.slt 0 = false from countable] at negative
          cases negative
        unfold Sems.create
        rw [← (semsOf k lists).waiting_self (screate k count).1]
        apply balanced.change
        unfold Kernel.Balanced
        simp only [semsOf, nobody, List.length_nil]
        omega
  | killpid pid =>
      dsimp only [Sems.after]
      split
      · rename_i waits
        have isProc := (isProc_of_good waits.1).1
        have good := settled.on.sems pid isProc waits.2
        exact drop_balanced balanced good ((settled.mem_waiting good pid).mpr ⟨isProc, waits.2, rfl⟩)
      · exact balanced
  | _ => exact balanced

theorem after_ordered {k : Xinu} {lists : Int → List Int} {since : Int → Nat} {calls : Nat}
    (ordered : (semsOf k lists).Ordered since calls) {call : Call}
    (noWait : ∀ sem, call ≠ .wait sem) :
    ((semsOf k lists).after k call).Ordered since calls := by
  cases call with
  | wait sem => exact absurd rfl (noWait sem)
  | xsignal sem =>
      dsimp only [Sems.after]
      split
      · exact ordered
      · exact signal_ordered ordered
  | signaln sem count =>
      dsimp only [Sems.after]
      split
      · exact ordered
      · exact signals_ordered count.toNat _ ordered
  | sreset sem count =>
      dsimp only [Sems.after]
      split
      · exact ordered
      · exact ordered.change (List.nil_sublist _)
  | sdelete sem =>
      dsimp only [Sems.after]
      split
      · exact ordered
      · exact ordered.change (List.nil_sublist _)
  | screate count =>
      dsimp only [Sems.after]
      split
      · exact ordered
      · exact ⟨ordered.sorted, ordered.past⟩
  | killpid pid =>
      dsimp only [Sems.after]
      split
      · exact ordered.change List.erase_sublist
      · exact ordered
  | _ => exact ordered

theorem watch_sound {w : Watched} {lists : Int → List Int} (sound : w.Sound lists)
    {event : Call × Scene} (lawful : Lawful w event) : ∃ after, (watch w event).Sound after := by
  obtain ⟨settled, balanced, ordered⟩ := sound
  obtain ⟨after, settledAfter, same⟩ := (step_becomes settled lawful.1).sems_eq
  have balancedAfter := after_balanced settled balanced lawful.2
  by_cases waits : ∃ sem, event.1 = .wait sem
  · obtain ⟨sem, isWait⟩ := waits
    have stepped : watch w event =
        { kernel := turn w.kernel event
          since := Function.update w.since w.kernel.currpid w.calls
          calls := w.calls + 1 } := by
      unfold watch
      rw [isWait]
    rw [stepped]
    refine ⟨after, settledAfter, same ▸ balancedAfter, ?_⟩
    have spec : semsOf (turn w.kernel event) after = (semsOf w.kernel lists).after w.kernel event.1 :=
      same
    rw [spec, isWait]
    dsimp only [Sems.after]
    split
    · exact ordered.stamp settled.current_absent
    · exact wait_ordered ordered settled.current_absent
  · have noWait : ∀ sem, event.1 ≠ .wait sem := fun sem isWait => waits ⟨sem, isWait⟩
    have stepped : watch w event = { w with kernel := turn w.kernel event } := by
      unfold watch
      split
      · rename_i sem isWait
        exact absurd isWait (noWait sem)
      · rfl
    rw [stepped]
    exact ⟨after, settledAfter, same ▸ balancedAfter, same ▸ after_ordered ordered noWait⟩

theorem started_sound : started.Sound (fun _ => []) := by
  have nobody : waitingOn (fun _ => []) = fun _ => [] := by
    funext sem
    unfold waitingOn
    split <;> rfl
  refine ⟨booted_settled, ?_, ?_, ?_⟩
  · intro sem _
    exact congrFun nobody sem
  · intro sem
    simp [semsOf, nobody]
  · intro sem pid member
    simp [semsOf, nobody] at member

theorem semaphore_law_along_run {w : Watched} (reached : Reach watch Lawful started w) (sem : Int)
    (good : ¬ isbadsem sem) (used : (w.kernel.semaph sem).sstate = .used) :
    SemaphoreLaw w sem := by
  have sound : ∃ lists, w.Sound lists := by
    clear used
    induction reached with
    | start => exact ⟨_, started_sound⟩
    | step event _ lawful ih =>
        obtain ⟨lists, sound⟩ := ih
        exact watch_sound sound lawful
  obtain ⟨lists, sound⟩ := sound
  exact sound.law good used

instance (k : Xinu) (call : Call) : Decidable (Countable k call) := by
  apply Call.casesOn (motive := fun call => Decidable (Countable k call)) call <;>
    intros <;> dsimp only [Countable] <;> infer_instance

instance (w : Watched) (event : Call × Scene) : Decidable (Lawful w event) :=
  inferInstanceAs (Decidable (_ ∧ _))

/-- Processes 49 and 48 wait, in this order, on the first semaphore that is created. -/
def twoWaits : List (Call × Scene) :=
  [(.screate 0, calm), (.create true 20, calm), (.create true 10, calm), (.resume 49, calm),
    (.wait 199, calm), (.resume 48, calm), (.wait 199, calm)]

theorem two_waits_lawful :
    Permitted watch Lawful started twoWaits ∧ (twoWaits.foldl watch started).queue 199 = [49, 48] ∧
      SemaphoreLaw (twoWaits.foldl watch started) 199 := by
  have quick : started =
      { kernel := { booted with q := freshq 202 }, since := (fun _ => 0), calls := 0 } := by
    unfold started
    rw [← booted_eq]
  have permitted : Permitted watch Lawful started twoWaits := by
    rw [quick]
    simp only [twoWaits, Permitted]
    decide +kernel
  have queue : (twoWaits.foldl watch started).queue 199 = [49, 48] := by
    rw [quick]
    decide +kernel
  have used : ((twoWaits.foldl watch started).kernel.semaph 199).sstate = .used := by
    rw [quick]
    decide +kernel
  exact ⟨permitted, queue, semaphore_law_along_run
    (reach_of_permitted twoWaits Reach.start permitted) 199 (by decide) used⟩

/-- `screate` takes any unsigned count, and one from `2^31` on is a negative number. -/
theorem large_count_is_negative :
    ¬ ∀ w, Reach watch (fun _ _ => True) started w → ∀ sem, ¬ isbadsem sem →
      (w.kernel.semaph sem).sstate = .used → SemaphoreLaw w sem := by
  intro always
  have reached : Reach watch (fun _ _ => True) started
      (watch started (.screate 0x80000000, calm)) := Reach.step _ Reach.start trivial
  have used : ((watch started (.screate 0x80000000, calm)).kernel.semaph 199).sstate = .used := by
    decide +kernel
  have law := always _ reached 199 (by decide) used
  have negative : ((watch started (.screate 0x80000000, calm)).kernel.semaph 199).semcnt.toInt =
      -2147483648 := by
    decide +kernel
  have nobody : ((watch started (.screate 0x80000000, calm)).queue 199).length = 0 := by
    decide +kernel
  have length := law.negative (by rw [negative]; decide)
  rw [nobody, negative] at length
  exact absurd length (by decide)

end MvsXinu.Kernel
