import MvsXinu.Kernel.Semaphores
import MvsXinu.Lib.Runs

/-!
# Process table and queue table agree along every run

Two things break the agreement: `ctci_write` readies the process in `pidsleep` without a
look at its state, and the null process, which `ready` refuses, blocks. Runs without them
keep every list well formed and every process on the list of its state.
-/

namespace MvsXinu.Kernel

open MvsXinu.Links MvsXinu.Runs

set_option autoImplicit false

/-- Each list is doubly linked from head to tail without repetition, no process is on two,
and a process is on a list exactly if its state says so. -/
def QueuesConsistent (k : Xinu) : Prop :=
  ∃ lists : Int → List Int,
    (∀ head, Head head →
      Strung (nexts k.q) (prevs k.q) (head :: (lists head ++ [head + 1])) ∧
      (lists head).Nodup ∧ ∀ pid ∈ lists head, 0 ≤ pid ∧ pid < nproc) ∧
    (∀ first second pid, Head first → Head second → pid ∈ lists first → pid ∈ lists second →
      first = second) ∧
    ∀ pid, 0 ≤ pid → pid < nproc →
      (pid ∈ lists rdyhead ↔ (k.proctab pid).pstate = .ready) ∧
      ((k.proctab pid).pstate = .ready → (k.q pid).qkey = (k.proctab pid).pprio) ∧
      (∀ sem, ¬ isbadsem sem → (pid ∈ lists (sqhead sem) ↔
        (k.proctab pid).pstate = .wait ∧ (k.proctab pid).psem = sem)) ∧
      ((k.proctab pid).pstate = .wait → ¬ isbadsem (k.proctab pid).psem) ∧
      (pid ∈ lists clockq ↔ (k.proctab pid).pstate = .sleep ∨ (k.proctab pid).pstate = .trecv)

theorem home_eq_rdyhead {entry : Pentry} (good : entry.pstate = .wait → ¬ isbadsem entry.psem) :
    home entry = some rdyhead ↔ entry.pstate = .ready := by
  cases state : entry.pstate with
  | ready => simp [home, state]
  | wait =>
      have away := (sqhead_ne (good state)).1
      simp [home, state, away]
  | sleep => simp [home, state, show clockq ≠ rdyhead by decide]
  | trecv => simp [home, state, show clockq ≠ rdyhead by decide]
  | _ => simp [home, state]

theorem home_eq_clockq {entry : Pentry} (good : entry.pstate = .wait → ¬ isbadsem entry.psem) :
    home entry = some clockq ↔ entry.pstate = .sleep ∨ entry.pstate = .trecv := by
  cases state : entry.pstate with
  | ready => simp [home, state, show rdyhead ≠ clockq by decide]
  | wait =>
      have away := (sqhead_ne (good state)).2
      simp [home, state, away]
  | _ => simp [home, state]

theorem home_eq_sqhead {entry : Pentry} {sem : Int} (isSem : ¬ isbadsem sem) :
    home entry = some (sqhead sem) ↔ entry.pstate = .wait ∧ entry.psem = sem := by
  obtain ⟨awayReady, awayClock⟩ := sqhead_ne isSem
  cases state : entry.pstate with
  | ready => simp [home, state, Ne.symm awayReady]
  | wait =>
      simp only [home, state, Option.some.injEq, true_and]
      exact ⟨sqhead_inj, congrArg sqhead⟩
  | sleep => simp [home, state, Ne.symm awayClock]
  | trecv => simp [home, state, Ne.symm awayClock]
  | _ => simp [home, state]

theorem Settled.queuesConsistent {k : Xinu} {lists : Int → List Int} (settled : Settled k lists) :
    QueuesConsistent k := by
  have on := settled.on
  refine ⟨lists, ?_, ?_, ?_⟩
  · intro head isHead
    exact ⟨on.threaded.strung head isHead, on.threaded.nodup head isHead,
      on.threaded.procs head isHead⟩
  · intro first second pid isFirst isSecond inFirst inSecond
    exact on.threaded.apart first second isFirst isSecond pid inFirst inSecond
  · intro pid low high
    have isProc : IsProc pid := ⟨low, high⟩
    have good := on.sems pid isProc
    refine ⟨?_, on.keys pid isProc, ?_, good, ?_⟩
    · rw [on.member rdyhead pid rdyhead_head, home_eq_rdyhead good]
      simp [isProc]
    · intro sem isSem
      rw [on.member (sqhead sem) pid (sqhead_head isSem), home_eq_sqhead isSem]
      simp [isProc]
    · rw [on.member clockq pid clockq_head, home_eq_clockq good]
      simp [isProc]

/-! ## The first state -/

/-- A head or a tail as `newqueue` writes it. -/
def freshEntry (index : Int) : Qent :=
  if index % 2 = 0 then { qnext := index + 1, qprev := empty, qkey := minint }
  else { qnext := empty, qprev := index - 1, qkey := maxint }

def freshq (count : Int) (index : Int) : Qent :=
  if rdyhead ≤ index ∧ index < rdyhead + 2 * count then freshEntry index
  else { qkey := 0, qnext := 0, qprev := 0 }

theorem newqueues_eq (count : Nat) : newqueues count = freshq count := by
  induction count with
  | zero =>
      funext index
      have none : ¬ (rdyhead ≤ index ∧ index < rdyhead + 2 * ((0 : Nat) : Int)) := by omega
      unfold freshq
      rw [if_neg none]
      rfl
  | succ count ih =>
      funext index
      unfold newqueues newqueue
      rw [ih]
      by_cases isTail : index = rdyhead + 2 * count + 1
      · rw [isTail, Function.update_self]
        unfold freshq freshEntry
        rw [if_pos (by omega), if_neg (by unfold rdyhead; omega)]
        congr 1
        omega
      · rw [Function.update_of_ne isTail]
        by_cases isHead : index = rdyhead + 2 * count
        · rw [isHead, Function.update_self]
          unfold freshq freshEntry
          rw [if_pos (by omega), if_pos (by unfold rdyhead; omega)]
        · rw [Function.update_of_ne isHead]
          unfold freshq
          have same : (rdyhead ≤ index ∧ index < rdyhead + 2 * (count : Int)) ↔
              rdyhead ≤ index ∧ index < rdyhead + 2 * ((count + 1 : Nat) : Int) := by omega
          simp only [same]

theorem newqueues_head {head : Int} (isHead : Head head) :
    newqueues 202 head = { qnext := head + 1, qprev := empty, qkey := minint } ∧
      newqueues 202 (head + 1) = { qnext := empty, qprev := head, qkey := maxint } := by
  obtain ⟨low, high, even⟩ := isHead
  unfold rdyhead at low
  unfold clockq at high
  rw [newqueues_eq]
  unfold freshq freshEntry rdyhead
  constructor
  · rw [if_pos (by omega), if_pos even]
  · rw [if_pos (by omega), if_neg (by omega)]
    congr 1
    omega

theorem booted_settled : Settled booted (fun _ => []) := by
  have state : ∀ pid, (booted.proctab pid).pstate = .curr ∨ (booted.proctab pid).pstate = .free := by
    intro pid
    unfold booted
    by_cases null : pid = nullproc
    · simp [null]
    · simp [null]
  have homeless : ∀ pid, home (booted.proctab pid) = none := by
    intro pid
    rcases state pid with current | free
    · simp [home, current]
    · simp [home, free]
  have threaded : Threaded booted.q (fun _ => []) := by
    refine ⟨?_, ?_, ?_, ?_, ?_⟩
    · intro head isHead
      obtain ⟨first, last⟩ := newqueues_head isHead
      apply List.isChain_cons_cons.mpr
      refine ⟨⟨?_, ?_⟩, List.isChain_singleton _⟩
      · exact congrArg Qent.qnext first
      · exact congrArg Qent.qprev last
    · intro head _
      exact List.nodup_nil
    · intro head _ pid member
      exact absurd member List.not_mem_nil
    · intro first second _ _ pid member
      exact absurd member List.not_mem_nil
    · intro head isHead
      exact congrArg Qent.qkey (newqueues_head isHead).2
  refine ⟨⟨⟨by decide, by decide⟩, by decide⟩, ⟨⟨threaded, ?_, ?_, ?_⟩, ⟨by decide, by decide⟩, ?_,
    ?_⟩, rfl, ?_⟩
  · intro head pid _
    rw [homeless pid]
    simp
  · intro pid _ ready
    rcases state pid with current | free
    · rw [current] at ready
      cases ready
    · rw [free] at ready
      cases ready
  · intro pid _ waits
    rcases state pid with current | free
    · rw [current] at waits
      cases waits
    · rw [free] at waits
      cases waits
  · intro pid _ current
    by_contra away
    have idle : (booted.proctab pid).pstate = .free := if_neg away
    rw [idle] at current
    cases current
  · exact Or.inr ⟨rfl, rfl⟩
  · intro sleeping
    cases sleeping

/-! ## What keeps the tables in agreement -/

/-- The call takes the current process off the processor. -/
def Blocks (k : Xinu) : Call → Prop
  | .wait sem => ¬ unusable k sem ∧ ((k.semaph sem).semcnt - 1).slt 0
  | .sleep10 n => n ≠ 0 ∧ ¬ n.slt 0 ∧ k.clkruns = true
  | .receive => (k.proctab k.currpid).phasmsg = 0
  | .recvtim maxwait =>
      (k.proctab k.currpid).phasmsg = 0 ∧ ¬ maxwait.slt 0 ∧ k.clkruns = true
  | _ => False

def Pstate.offList : Pstate → Bool
  | .free | .recv | .susp | .dead => true
  | _ => false

/-- The wake-up in `ctci_write` finds a process that is neither on a list nor running. -/
def WakesIdle (k : Xinu) : Call → Prop
  | .ctciWrite device => isbadpid (k.pidsleep device) ∨
      (k.proctab (k.pidsleep device)).pstate.offList = true
  | _ => True

def Orderly (k : Xinu) (event : Call × Scene) : Prop :=
  (k.currpid = nullproc → ¬ Blocks k event.1) ∧ WakesIdle k event.1

instance (k : Xinu) (call : Call) : Decidable (Blocks k call) := by
  cases call <;> dsimp only [Blocks] <;> infer_instance

instance (k : Xinu) (call : Call) : Decidable (WakesIdle k call) := by
  cases call <;> dsimp only [WakesIdle] <;> infer_instance

instance (k : Xinu) (event : Call × Scene) : Decidable (Orderly k event) :=
  inferInstanceAs (Decidable (_ ∧ _))

def Sems.after (sems : Sems) (k : Xinu) : Call → Sems
  | .wait sem => if unusable k sem then sems else sems.wait sem k.currpid
  | .xsignal sem => if unusable k sem then sems else sems.signal sem
  | .signaln sem count =>
      if unusable k sem ∨ count.sle 0 then sems else Sems.signals sem count.toNat sems
  | .sreset sem count => if unusable k sem ∨ count.slt 0 then sems else sems.reset sem count
  | .sdelete sem => if unusable k sem then sems else sems.delete sem
  | .screate count =>
      if (screate k count).1 = syserr then sems else sems.create (screate k count).1 count
  | .killpid pid =>
      if ¬ isbadpid pid ∧ (k.proctab pid).pstate = .wait then sems.drop (k.proctab pid).psem pid
      else sems
  | _ => sems

theorem ctciWrite_becomes {k : Xinu} {lists : Int → List Int} (settled : Settled k lists)
    {device : Nat} (wakes : WakesIdle k (.ctciWrite device)) :
    Becomes (ctciWrite k device) (semsOf k lists) := by
  unfold ctciWrite
  split
  · exact settled.becomes
  · apply readyNo_settled settled
    intro good
    have idle := wakes.resolve_left good
    cases state : (k.proctab (k.pidsleep device)).pstate <;>
      simp_all [home, Pstate.offList]

/-- The sleepers that wake up are not the running process. -/
theorem wakeupLoop_running (fuel : Nat) : ∀ (k : Xinu) (lists : Int → List Int), k.On lists →
    k.Running → (wakeupLoop fuel k).Running := by
  induction fuel with
  | zero =>
      intro k lists _ running
      exact running
  | succ fuel ih =>
      intro k lists on running
      unfold wakeupLoop
      split
      · rename_i wakes
        obtain ⟨pid, rest, found⟩ := List.exists_cons_of_ne_nil
          (fun none => wakes.1 ((on.threaded.isempty_iff clockq_head).mpr none))
        obtain ⟨readied, onReadied, _⟩ := readyFirst_on on clockq_head (by decide) found
        exact ih _ readied onReadied (readyFirst_running on clockq_head (by decide) found running)
      · exact running

theorem wakeup_running {k : Xinu} {lists : Int → List Int} (settled : Settled k lists) :
    (wakeup k).Running := by
  have running := wakeupLoop_running nqent k lists settled.on settled.running
  unfold wakeup
  dsimp only
  split
  · exact running
  · exact running

theorem step_becomes {k : Xinu} {lists : Int → List Int} (settled : Settled k lists) {call : Call}
    {scene : Scene} (orderly : Orderly k (call, scene)) :
    Becomes (step k call scene) ((semsOf k lists).after k call) := by
  obtain ⟨stays, wakes⟩ := orderly
  cases call with
  | create stack priority => exact create_becomes settled stack priority
  | resume pid => exact resume_becomes settled scene pid
  | suspend pid => exact suspend_becomes settled scene pid
  | chprio pid newprio => exact chprio_becomes settled scene pid newprio
  | killpid pid => exact killpid_becomes settled scene pid
  | screate count => exact (screate_becomes settled count).2
  | wait sem => exact wait_becomes settled scene sem stays
  | xsignal sem => exact xsignal_becomes settled scene sem
  | signaln sem count => exact signaln_becomes settled scene sem count
  | sreset sem count => exact sreset_becomes settled scene sem count
  | sdelete sem => exact sdelete_becomes settled scene sem
  | sleep10 n => exact sleep10_becomes settled scene n stays
  | receive => exact receive_becomes settled scene stays
  | recvtim maxwait => exact recvtim_becomes settled scene maxwait stays
  | received => exact received_becomes settled
  | xsend pid msg => exact xsend_becomes settled scene pid msg
  | sendf pid msg => exact sendf_becomes settled scene pid msg
  | wakeup =>
      obtain ⟨after, on, timed, same⟩ := wakeup_on settled.on
      have rest := wakeup_rest k
      refine ⟨after, ⟨rest.ranged settled.toRanged, on, ?_, timed⟩, rest.semaph, waitingOn_eq ?_⟩
      · exact wakeup_running settled
      · intro sem isSem
        exact same (sqhead sem) (sqhead_ne isSem).1 (sqhead_ne isSem).2
  | resched => exact resched_becomes settled.on settled.toRanged scene
  | timerPop => exact timerPop_becomes settled
  | ctciSleep device =>
      exact ⟨lists, ⟨⟨settled.nextproc, settled.nextsem⟩, settled.on, settled.running,
        settled.timed⟩, rfl, rfl⟩
  | ctciAwake device =>
      exact ⟨lists, ⟨⟨settled.nextproc, settled.nextsem⟩, settled.on, settled.running,
        settled.timed⟩, rfl, rfl⟩
  | ctciWrite device => exact ctciWrite_becomes settled wakes

def turn (k : Xinu) (event : Call × Scene) : Xinu := step k event.1 event.2

theorem settled_along_run {k : Xinu} (reached : Reach turn Orderly booted k) :
    ∃ lists, Settled k lists := by
  induction reached with
  | start => exact ⟨_, booted_settled⟩
  | step event _ orderly ih =>
      obtain ⟨lists, settled⟩ := ih
      obtain ⟨after, settledAfter, _⟩ := step_becomes settled orderly
      exact ⟨after, settledAfter⟩

theorem queues_consistent_along_run {k : Xinu} (reached : Reach turn Orderly booted k) :
    QueuesConsistent k := by
  obtain ⟨lists, settled⟩ := settled_along_run reached
  exact settled.queuesConsistent

/-- A process on a list is not its own successor. -/
theorem QueuesConsistent.next_ne {k : Xinu} (consistent : QueuesConsistent k) {pid : Int}
    (low : 0 ≤ pid) (high : pid < nproc) (ready : (k.proctab pid).pstate = .ready) :
    nexts k.q pid ≠ pid := by
  obtain ⟨lists, linked, _, states⟩ := consistent
  obtain ⟨strung, nodup, _⟩ := linked rdyhead rdyhead_head
  have member := (states pid low high).1.mpr ready
  obtain ⟨front, back, found⟩ := List.append_of_mem member
  have shape : rdyhead :: (lists rdyhead ++ [rdyhead + 1]) =
      (rdyhead :: front) ++ pid :: back.headD (rdyhead + 1) :: (back ++ [rdyhead + 1]).tail := by
    rw [found]
    cases back <;> simp
  rw [shape] at strung
  rw [(Strung.neighbours strung).1]
  cases back with
  | nil =>
      unfold rdyhead nproc at *
      simp only [List.headD_nil]
      omega
  | cons next others =>
      intro same
      rw [found] at nodup
      have apart := (List.nodup_cons.mp (List.nodup_append.mp nodup).2.1).1
      exact apart (by rw [← same]; simp)

def calm : Scene := { done := [], quantum := true }

/-- Process 49 is the writer's I/O process, process 48 a writer. -/
def oneWrite : List (Call × Scene) :=
  [(.create true 20, calm), (.create true 10, calm), (.resume 49, calm), (.ctciSleep 0, calm),
    (.suspend 49, calm), (.resume 48, calm), (.ctciWrite 0, calm)]

def twoWrites : List (Call × Scene) := oneWrite ++ [(.ctciWrite 0, calm)]

theorem booted_eq : booted = { booted with q := freshq 202 } := by
  unfold booted
  rw [newqueues_eq]
  rfl

theorem one_write_consistent :
    Permitted turn Orderly booted oneWrite ∧ QueuesConsistent (oneWrite.foldl turn booted) := by
  have permitted : Permitted turn Orderly booted oneWrite := by
    rw [booted_eq]
    simp only [oneWrite, Permitted]
    decide +kernel
  exact ⟨permitted, queues_consistent_along_run (reach_of_permitted oneWrite Reach.start permitted)⟩

/-- Two writes before the I/O process has run link it in twice. -/
theorem second_write_links_twice :
    ¬ ∀ k, Reach turn (fun _ _ => True) booted k → QueuesConsistent k := by
  intro always
  have reached : Reach turn (fun _ _ => True) booted (twoWrites.foldl turn booted) := by
    apply reach_of_permitted _ Reach.start
    simp [twoWrites, oneWrite, Permitted]
  have ready : ((twoWrites.foldl turn booted).proctab 49).pstate = .ready := by
    rw [booted_eq]
    decide +kernel
  have own : nexts (twoWrites.foldl turn booted).q 49 = 49 := by
    rw [booted_eq]
    decide +kernel
  exact (always _ reached).next_ne (by decide) (by decide) ready own

end MvsXinu.Kernel
