import MvsXinu.Kernel.Scheduling

/-!
# The calls keep the board

Between two calls the kernel is settled: the board is consistent with some lists and the
current process runs. Each call says what becomes of the semaphore table and of the
processes that wait on each semaphore.
-/

namespace MvsXinu.Kernel

set_option autoImplicit false

structure Ranged (k : Xinu) : Prop where
  nextproc : IsProc k.nextproc
  nextsem : ¬ isbadsem k.nextsem

structure Settled (k : Xinu) (lists : Int → List Int) : Prop extends Ranged k where
  on : k.On lists
  running : k.Running
  timed : k.Timed lists

/-- The semaphores for themselves: the table and who waits on each, in order. -/
structure Sems where
  semaph : Int → Sentry
  waiting : Int → List Int

def waitingOn (lists : Int → List Int) (sem : Int) : List Int :=
  if isbadsem sem then [] else lists (sqhead sem)

def semsOf (k : Xinu) (lists : Int → List Int) : Sems := ⟨k.semaph, waitingOn lists⟩

/-- The kernel is settled, with these semaphores. -/
def Becomes (later : Xinu) (sems : Sems) : Prop :=
  ∃ lists, Settled later lists ∧ later.semaph = sems.semaph ∧ waitingOn lists = sems.waiting

theorem waitingOn_eq {lists after : Int → List Int}
    (same : ∀ sem, ¬ isbadsem sem → after (sqhead sem) = lists (sqhead sem)) :
    waitingOn after = waitingOn lists := by
  funext sem
  unfold waitingOn
  split
  · rfl
  · rename_i good
    exact same sem good

theorem SameRest.ranged {k later : Xinu} (rest : SameRest k later) (ranged : Ranged k) :
    Ranged later := by
  refine ⟨?_, ?_⟩
  · rw [rest.nextproc]
    exact ranged.nextproc
  · rw [rest.nextsem]
    exact ranged.nextsem

section Calls

variable {k : Xinu} {lists : Int → List Int}

theorem Settled.becomes (settled : Settled k lists) : Becomes k (semsOf k lists) :=
  ⟨lists, settled, rfl, rfl⟩

theorem resched_becomes (on : k.On lists) (ranged : Ranged k) (scene : Scene) :
    Becomes (resched k scene) (semsOf k lists) := by
  obtain ⟨after, onAfter, running, timed, same⟩ := resched_on on scene
  have rest := resched_rest k scene
  refine ⟨after, ⟨rest.ranged ranged, onAfter, running, timed⟩, rest.semaph, waitingOn_eq ?_⟩
  intro sem good
  obtain ⟨awayReady, awayClock⟩ := sqhead_ne good
  exact same (sqhead sem) awayReady awayClock

theorem readyNo_settled (settled : Settled k lists) {pid : Int}
    (idle : ¬ isbadpid pid → home (k.proctab pid) = none ∧ (k.proctab pid).pstate ≠ .curr) :
    Becomes (readyNo k pid) (semsOf k lists) := by
  obtain ⟨after, on, same⟩ := readyNo_on settled.on (fun good => (idle good).1)
  have rest := readyNo_rest k pid
  refine ⟨after, ⟨rest.ranged settled.toRanged, on, ?_, ?_⟩, rest.semaph, waitingOn_eq ?_⟩
  · unfold readyNo
    split
    · exact settled.running
    · rename_i good
      have away : k.currpid ≠ pid := by
        intro equal
        exact (idle good).2 (equal ▸ settled.running)
      simpa [Xinu.Running, Xinu.setState, Xinu.setEntry, Function.update_of_ne away]
        using settled.running
  · have timed := settled.timed
    unfold Xinu.Timed at timed ⊢
    rw [same clockq (by decide)]
    unfold readyNo
    split
    · exact timed
    · exact timed
  · intro sem good
    exact same (sqhead sem) (sqhead_ne good).1

/-- `ready(pid, RESCHYES)` of a process on no list. -/
theorem readyYes_becomes (on : k.On lists) (ranged : Ranged k) (scene : Scene) {pid : Int}
    (good : ¬ isbadpid pid) (homeless : home (k.proctab pid) = none) :
    Becomes (readyYes k scene pid) (semsOf k lists) := by
  obtain ⟨readied, onReadied, same⟩ := readyNo_on on (fun _ => homeless)
  have rest := readyNo_rest k pid
  obtain ⟨after, settled, semaph, waiting⟩ :=
    resched_becomes onReadied (rest.ranged ranged) scene
  unfold readyYes
  rw [if_neg good]
  refine ⟨after, settled, semaph.trans rest.semaph, waiting.trans (waitingOn_eq ?_)⟩
  intro sem isSem
  exact same (sqhead sem) (sqhead_ne isSem).1

/-- A change of one entry that keeps its state. -/
theorem Settled.mark (settled : Settled k lists) (pid : Int) (entry : Pentry)
    (state : entry.pstate = (k.proctab pid).pstate) (psem : entry.psem = (k.proctab pid).psem)
    (prio : (k.proctab pid).pstate = .ready → entry.pprio = (k.proctab pid).pprio)
    (isProc : IsProc pid) : Settled (k.setEntry pid entry) lists := by
  have sameHome : home entry = home (k.proctab pid) := by
    unfold home
    rw [state, psem]
  refine ⟨⟨settled.nextproc, settled.nextsem⟩, Board.change settled.on ?_ ?_ ?_, ?_, settled.timed⟩
  · apply settled.on.mark sameHome
    · intro ready
      rw [state] at ready
      rw [prio ready]
      exact settled.on.keys pid isProc ready
    · intro waits
      rw [state] at waits
      rw [psem]
      exact settled.on.sems pid isProc waits
  · intro current
    rwa [state] at current
  · intro _
    exact Or.inr state
  · have running := settled.running
    unfold Xinu.Running at running ⊢
    by_cases same : k.currpid = pid
    · simpa [Xinu.setEntry, same, state] using same ▸ running
    · simpa [Xinu.setEntry, Function.update_of_ne same] using running

/-! ## Creating, resuming, suspending -/

theorem newpid_spec (tries : Nat) : ∀ k : Xinu, IsProc k.nextproc →
    ∃ next, IsProc next ∧ (newpid tries k).2 = { k with nextproc := next } ∧
      ((newpid tries k).1 = syserr ∨ (IsProc (newpid tries k).1 ∧
        (k.proctab (newpid tries k).1).pstate = .free)) := by
  induction tries with
  | zero =>
      intro k isProc
      exact ⟨k.nextproc, isProc, rfl, Or.inl rfl⟩
  | succ tries ih =>
      intro k isProc
      have passed : IsProc (if k.nextproc ≤ 0 then nproc - 1 else k.nextproc - 1) := by
        unfold IsProc nproc at isProc ⊢
        split <;> omega
      unfold newpid
      dsimp only
      split
      · rename_i free
        exact ⟨_, passed, rfl, Or.inr ⟨isProc, free⟩⟩
      · obtain ⟨next, isNext, result, found⟩ :=
          ih { k with nextproc := if k.nextproc ≤ 0 then nproc - 1 else k.nextproc - 1 } passed
        exact ⟨next, isNext, result, found⟩

theorem create_becomes (settled : Settled k lists) (stack : Bool) (priority : BitVec 32) :
    Becomes (create k stack priority).2 (semsOf k lists) := by
  obtain ⟨next, isNext, result, found⟩ := newpid_spec nproc.toNat k settled.nextproc
  have searched : Settled { k with nextproc := next } lists :=
    ⟨⟨isNext, settled.nextsem⟩, settled.on, settled.running, settled.timed⟩
  unfold create
  split
  · exact settled.becomes
  · dsimp only
    split
    · rw [result]
      exact searched.becomes
    · rename_i valid
      obtain ⟨isProc, free⟩ := found.resolve_left valid
      have notNull : (newpid nproc.toNat k).1 ≠ nullproc := by
        intro same
        rw [same] at free
        rcases settled.on.null with ready | ⟨_, current⟩
        · rw [ready] at free
          cases free
        · rw [current] at free
          cases free
      have away : k.currpid ≠ (newpid nproc.toNat k).1 := by
        intro same
        have running := settled.running
        unfold Xinu.Running at running
        rw [same, free] at running
        cases running
      rw [result]
      refine ⟨lists, ⟨⟨isNext, settled.nextsem⟩, Board.change settled.on ?_ ?_ ?_, ?_,
        settled.timed⟩, rfl, rfl⟩
      · apply settled.on.mark
        · simp [home, free]
        · intro ready
          cases ready
        · intro waits
          cases waits
      · intro current
        cases current
      · intro same
        exact absurd same notNull
      · simpa [Xinu.Running, Xinu.setEntry, Function.update_of_ne away] using settled.running

theorem resume_becomes (settled : Settled k lists) (scene : Scene) (pid : Int) :
    Becomes (resume k scene pid).2 (semsOf k lists) := by
  unfold resume
  split
  · exact settled.becomes
  · rename_i suspended
    simp only [not_or, not_not] at suspended
    exact readyYes_becomes settled.on settled.toRanged scene suspended.1
      (by simp [home, suspended.2])

/-- The running process takes a state of no list. -/
theorem Settled.retire (settled : Settled k lists) (state : Pstate)
    (homeless : ∀ entry : Pentry, entry.pstate = state → home entry = none)
    (notCurr : state ≠ .curr) (notNull : k.currpid ≠ nullproc) :
    (k.setState k.currpid state).On lists := by
  have running := settled.running
  unfold Xinu.Running at running
  refine Board.change settled.on ?_ ?_ ?_
  · apply settled.on.mark
    · rw [homeless _ rfl]
      simp [home, running]
    · intro ready
      have none := homeless { k.proctab k.currpid with pstate := state } rfl
      rw [home_ready ready] at none
      cases none
    · intro waits
      have none := homeless { k.proctab k.currpid with pstate := state } rfl
      simp [home, show state = .wait from waits] at none
  · intro current
    exact absurd current notCurr
  · intro same
    exact absurd same notNull

/-- A process leaves a list other than the sleepers', for no other. -/
theorem Settled.leave (settled : Settled k lists) {head pid : Int} {front back : List Int}
    (isHead : Head head) (awayClock : head ≠ clockq) (found : lists head = front ++ pid :: back)
    (notNull : pid ≠ nullproc) {state : Pstate}
    (homeless : ∀ entry : Pentry, entry.pstate = state → home entry = none)
    (notCurr : state ≠ .curr) :
    Settled { k.setState pid state with q := dequeue k.q pid }
      (Function.update lists head (front ++ back)) := by
  have threaded := settled.on.threaded.dequeue isHead found
  have member : pid ∈ lists head := by
    rw [found]
    simp
  have isHome := ((settled.on.member head pid isHead).mp member).2
  have away : k.currpid ≠ pid := by
    intro same
    have running := settled.running
    unfold Xinu.Running at running
    rw [same] at running
    simp [home, running] at isHome
  refine ⟨⟨settled.nextproc, settled.nextsem⟩, Board.change settled.on ?_ ?_ ?_, ?_, ?_⟩
  · exact settled.on.leave _ isHead found threaded (homeless _ rfl)
      (fun other _ _ => dequeue_qkey k.q pid other)
  · intro current
    exact absurd current notCurr
  · intro same
    exact absurd same notNull
  · simpa [Xinu.Running, Xinu.setState, Xinu.setEntry, Function.update_of_ne away]
      using settled.running
  · intro sleeping
    rw [Function.update_of_ne (Ne.symm awayClock)]
    exact settled.timed sleeping

theorem Settled.current (settled : Settled k lists) {pid : Int} (isProc : IsProc pid)
    (current : (k.proctab pid).pstate = .curr) : pid = k.currpid :=
  settled.on.only pid isProc current

theorem suspend_becomes (settled : Settled k lists) (scene : Scene) (pid : Int) :
    Becomes (suspend k scene pid) (semsOf k lists) := by
  have homeless : ∀ entry : Pentry, entry.pstate = .susp → home entry = none := by
    intro entry suspended
    simp [home, suspended]
  unfold suspend
  split
  · exact settled.becomes
  · rename_i good
    simp only [not_or] at good
    have isProc := (isProc_of_good good.1).1
    split
    · rename_i ready
      obtain ⟨front, back, found⟩ := settled.on.find isProc (home_ready ready)
      refine ⟨_, settled.leave rdyhead_head (by decide) found good.2 homeless (by decide), rfl,
        waitingOn_eq ?_⟩
      intro sem isSem
      rw [Function.update_of_ne (sqhead_ne isSem).1]
    · split
      · rename_i current
        have same := settled.current isProc current
        rw [same] at good ⊢
        exact resched_becomes (k := k.setState k.currpid .susp)
          (settled.retire .susp homeless (by decide) good.2)
          ⟨settled.nextproc, settled.nextsem⟩ scene
      · exact settled.becomes

theorem chprio_becomes (settled : Settled k lists) (scene : Scene) (pid : Int)
    (newprio : BitVec 32) : Becomes (chprio k scene pid newprio).2 (semsOf k lists) := by
  unfold chprio
  split
  · exact settled.becomes
  · rename_i good
    simp only [not_or] at good
    have isProc := (isProc_of_good good.1).1
    have marked : (k.proctab pid).pstate ≠ .ready →
        Settled (k.setEntry pid { k.proctab pid with pprio := newprio }) lists := by
      intro notReady
      exact settled.mark pid _ rfl rfl (fun ready => absurd ready notReady) isProc
    dsimp only
    split
    · rename_i ready
      obtain ⟨front, back, found⟩ := settled.on.find isProc (home_ready ready)
      obtain ⟨after, on, same⟩ := Board.requeue settled.on
        { k.proctab pid with pprio := newprio } rdyhead_head found
        (settled.on.threaded.dequeue rdyhead_head found)
        (fun other _ _ => dequeue_qkey k.q pid other) ready
      obtain ⟨last, settledLast, semaph, waiting⟩ := resched_becomes
        (k := { k.setEntry pid { k.proctab pid with pprio := newprio } with
          q := insert (dequeue k.q pid) pid rdyhead newprio })
        on ⟨settled.nextproc, settled.nextsem⟩ scene
      refine ⟨last, settledLast, semaph, waiting.trans (waitingOn_eq ?_)⟩
      intro sem isSem
      rw [same (sqhead sem) (sqhead_ne isSem).1, Function.update_of_ne (sqhead_ne isSem).1]
    · rename_i current
      have settledMark := marked (by rw [current]; decide)
      exact resched_becomes settledMark.on settledMark.toRanged scene
    · rename_i notReady _
      exact (marked notReady).becomes

/-! ## Sleeping -/

theorem timerPop_proctab (k : Xinu) : (timerPop k).proctab = k.proctab := by
  simp only [timerPop]
  split
  · rfl
  · rfl

theorem unsleep_proctab (k : Xinu) (pid : Int) : (unsleep k pid).2.proctab = k.proctab := by
  simp only [unsleep]
  split
  · rfl
  · split
    · rfl
    · rfl

theorem home_asleep {entry : Pentry} (asleep : entry.pstate = .sleep ∨ entry.pstate = .trecv) :
    home entry = some clockq := by
  rcases asleep with sleeps | times
  · simp [home, sleeps]
  · simp [home, times]

/-- What is left of a sleeper's delay goes to another sleeper. -/
theorem unsleepq_keys (on : k.On lists) {pid : Int} {front back : List Int}
    (found : lists clockq = front ++ pid :: back) (other : Int)
    (ready : (k.proctab other).pstate = .ready) :
    (unsleepq k.q pid other).qkey = (k.q other).qkey := by
  apply unsleepq_qkey
  rw [(on.threaded.around clockq_head found).2]
  cases back with
  | nil =>
      by_cases same : other = clockq + 1
      · right
        rw [same]
        decide
      · exact Or.inl same
  | cons next others =>
      left
      intro same
      have member : other ∈ lists clockq := by
        rw [found, same]
        simp
      have isHome := ((on.member clockq other clockq_head).mp member).2
      rw [home_ready ready] at isHome
      exact absurd isHome (by decide)

/-- The sleep list without one sleeper, as `unsleep` leaves it. -/
structure Unslept (k later : Xinu) (lists : Int → List Int) (pid : Int) (front back : List Int) :
    Prop where
  found : lists clockq = front ++ pid :: back
  q : later.q = unsleepq k.q pid
  proctab : later.proctab = k.proctab
  currpid : later.currpid = k.currpid
  rest : SameRest k later
  threaded : Threaded later.q (Function.update lists clockq (front ++ back))
  timed : later.Timed (Function.update lists clockq (front ++ back))

theorem unsleep_spec (on : k.On lists) {pid : Int} (good : ¬ isbadpid pid)
    (asleep : (k.proctab pid).pstate = .sleep ∨ (k.proctab pid).pstate = .trecv) :
    ∃ front back, Unslept k (unsleep k pid).2 lists pid front back := by
  obtain ⟨front, back, found⟩ := on.find (isProc_of_good good).1 (home_asleep asleep)
  have threaded := on.threaded.unsleepq clockq_head found
  have next := threaded.head_next clockq_head
  have guard : ¬ (isbadpid pid ∨
      ((k.proctab pid).pstate ≠ .sleep ∧ (k.proctab pid).pstate ≠ .trecv)) := by
    rintro (bad | ⟨notSleep, notTrecv⟩)
    · exact good bad
    · rcases asleep with sleeps | times
      · exact notSleep sleeps
      · exact notTrecv times
  refine ⟨front, back, ?_⟩
  unfold unsleep
  rw [if_neg guard]
  dsimp only
  split
  · rename_i isProc
    refine ⟨found, rfl, rfl, rfl, ⟨rfl, rfl, rfl, rfl⟩, threaded, ?_⟩
    intro _
    rw [Function.update_self] at next ⊢
    unfold nexts at next
    rw [next] at isProc ⊢
    cases shape : front ++ back with
    | nil =>
        rw [shape] at isProc
        exact absurd isProc (by decide)
    | cons first others => rfl
  · refine ⟨found, rfl, rfl, rfl, ⟨rfl, rfl, rfl, rfl⟩, threaded, ?_⟩
    intro sleeping
    cases sleeping

/-- The sleeper becomes ready. -/
theorem Unslept.ready {later : Xinu} {pid : Int} {front back : List Int} (on : k.On lists)
    (unslept : Unslept k later lists pid front back) (good : ¬ isbadpid pid) :
    ∃ after, (readyNo later pid).On after ∧ ∀ other, other ≠ rdyhead →
      after other = Function.update lists clockq (front ++ back) other := by
  obtain ⟨after, onAfter, same⟩ := Board.requeue on
    { k.proctab pid with pstate := .ready } clockq_head unslept.found
    (unslept.q ▸ unslept.threaded)
    (fun other _ ready => unsleepq_keys on unslept.found other ready) rfl
  refine ⟨after, ?_, same⟩
  unfold readyNo
  rw [if_neg good]
  unfold Xinu.On Xinu.setState Xinu.setEntry
  dsimp only
  rw [unslept.q, unslept.proctab, unslept.currpid]
  exact onAfter

/-- The sleeper is killed. -/
theorem Unslept.free {later : Xinu} {pid : Int} {front back : List Int} (on : k.On lists)
    (unslept : Unslept k later lists pid front back) (good : ¬ isbadpid pid) :
    (later.setState pid .free).On (Function.update lists clockq (front ++ back)) := by
  have left := on.leave { k.proctab pid with pstate := .free } clockq_head
    unslept.found (unslept.q ▸ unslept.threaded) rfl
    (fun other _ ready => unsleepq_keys on unslept.found other ready)
  have board := Board.change on left (fun current => by cases current)
    (fun null => absurd null (isProc_of_good good).2)
  unfold Xinu.On Xinu.setState Xinu.setEntry
  dsimp only
  rw [unslept.q, unslept.proctab, unslept.currpid]
  exact board

/-- The running process goes to sleep, where `insertd` puts it. -/
theorem sleepOn_moves (on : k.On lists) (running : k.Running) {state : Pstate}
    {delay : BitVec 32} (asleep : state = .sleep ∨ state = .trecv)
    (notNull : k.currpid ≠ nullproc) {front back : List Int}
    (found : lists clockq = front ++ back)
    (threaded : Threaded (insertd k.q k.currpid clockq delay)
      (Function.update lists clockq (front ++ k.currpid :: back)))
    (keys : ∀ other, other ≠ k.currpid → other ∉ lists clockq →
      (insertd k.q k.currpid clockq delay other).qkey = (k.q other).qkey) :
    (sleepOn k state delay).On
      (Function.update lists clockq (front ++ k.currpid :: back)) := by
  unfold Xinu.Running at running
  have homeless : home (k.proctab k.currpid) = none := by simp [home, running]
  refine Board.change on (on.join _ found threaded on.proc homeless
    (home_asleep asleep) ?_ ?_ ?_) ?_ ?_
  · intro ready
    rcases asleep with rfl | rfl <;> cases ready
  · intro waits
    rcases asleep with rfl | rfl <;> cases waits
  · intro other away ready
    apply keys other away
    intro member
    have isHome := ((on.member clockq other clockq_head).mp member).2
    rw [home_ready ready] at isHome
    exact absurd isHome (by decide)
  · intro current
    rcases asleep with rfl | rfl <;> cases current
  · intro same
    exact absurd same notNull

theorem sleepOn_on (settled : Settled k lists) {state : Pstate} (delay : BitVec 32)
    (asleep : state = .sleep ∨ state = .trecv) (notNull : k.currpid ≠ nullproc) :
    ∃ after, (sleepOn k state delay).On after ∧
      ∀ other, other ≠ clockq → after other = lists other := by
  have running := settled.running
  unfold Xinu.Running at running
  have homeless : home (k.proctab k.currpid) = none := by simp [home, running]
  obtain ⟨front, back, found, threaded, keys⟩ := settled.on.threaded.insertd clockq_head
    settled.on.proc (settled.on.onNoList homeless) delay
  refine ⟨_, sleepOn_moves settled.on settled.running asleep notNull found threaded keys, ?_⟩
  intro other away
  rw [Function.update_of_ne away]

theorem sleepOn_becomes (settled : Settled k lists) (scene : Scene) {state : Pstate}
    (delay : BitVec 32) (asleep : state = .sleep ∨ state = .trecv)
    (notNull : k.currpid ≠ nullproc) :
    Becomes (resched (sleepOn k state delay) scene) (semsOf k lists) := by
  obtain ⟨after, on, same⟩ := sleepOn_on settled delay asleep notNull
  obtain ⟨last, settledLast, semaph, waiting⟩ :=
    resched_becomes on ⟨settled.nextproc, settled.nextsem⟩ scene
  refine ⟨last, settledLast, semaph, waiting.trans (waitingOn_eq ?_)⟩
  intro sem isSem
  exact same (sqhead sem) (sqhead_ne isSem).2

theorem sleep10_becomes (settled : Settled k lists) (scene : Scene) (n : BitVec 32)
    (stays : k.currpid = nullproc → ¬ (n ≠ 0 ∧ ¬ n.slt 0 ∧ k.clkruns = true)) :
    Becomes (sleep10 k scene n).2 (semsOf k lists) := by
  unfold sleep10
  split
  · exact settled.becomes
  · rename_i valid
    simp only [not_or, Bool.not_eq_false] at valid
    split
    · exact resched_becomes settled.on settled.toRanged scene
    · rename_i nonzero
      exact sleepOn_becomes settled scene n (Or.inl rfl)
        (fun null => stays null ⟨nonzero, valid.1, valid.2⟩)

theorem recvtim_becomes (settled : Settled k lists) (scene : Scene) (maxwait : BitVec 32)
    (stays : k.currpid = nullproc → ¬ ((k.proctab k.currpid).phasmsg = 0 ∧ ¬ maxwait.slt 0 ∧
      k.clkruns = true)) :
    Becomes (recvtim k scene maxwait) (semsOf k lists) := by
  unfold recvtim
  split
  · exact settled.becomes
  · rename_i valid
    simp only [not_or, Bool.not_eq_false] at valid
    split
    · rename_i nothing
      exact sleepOn_becomes settled scene maxwait (Or.inr rfl)
        (fun null => stays null ⟨nothing, valid.1, valid.2⟩)
    · exact settled.becomes

theorem timerPop_on (on : k.On lists) (timed : k.Timed lists) : (timerPop k).On lists := by
  unfold timerPop
  split
  · rename_i sleeping
    have first := timed sleeping
    have member : k.sltop ∈ lists clockq := List.mem_of_head? first
    obtain ⟨isProc, isHome⟩ := (on.member clockq k.sltop clockq_head).mp member
    refine ⟨⟨?_, on.member, ?_, on.sems⟩, on.proc, on.only, on.null⟩
    · have threaded := on.threaded
      refine ⟨?_, threaded.nodup, threaded.procs, threaded.apart, ?_⟩
      · intro head isHead
        apply Links.Strung.congr (threaded.strung head isHead)
        · intro node _
          simp [nexts]
        · intro node _
          simp [prevs]
      · intro head isHead
        have away : head + 1 ≠ k.sltop := by
          unfold Head rdyhead at isHead
          unfold IsProc nproc at isProc
          omega
        simpa [away] using threaded.tails head isHead
    · intro pid isPid ready
      have away : pid ≠ k.sltop := by
        intro same
        rw [same] at ready
        rw [home_ready ready] at isHome
        exact absurd isHome (by decide)
      simpa [away] using on.keys pid isPid ready
  · exact on

theorem timerPop_becomes (settled : Settled k lists) :
    Becomes (timerPop k) (semsOf k lists) := by
  have on := timerPop_on settled.on settled.timed
  unfold timerPop at on ⊢
  split
  · rename_i sleeping
    rw [if_pos sleeping] at on
    exact ⟨lists, ⟨⟨settled.nextproc, settled.nextsem⟩, on, settled.running, settled.timed⟩,
      rfl, rfl⟩
  · exact settled.becomes

/-! ## Messages -/

theorem receive_becomes (settled : Settled k lists) (scene : Scene)
    (stays : k.currpid = nullproc → (k.proctab k.currpid).phasmsg ≠ 0) :
    Becomes (receive k scene) (semsOf k lists) := by
  unfold receive
  split
  · rename_i nothing
    have on := settled.retire .recv
      (by
        intro entry receives
        simp [home, receives])
      (by decide) (fun null => stays null nothing)
    exact resched_becomes on ⟨settled.nextproc, settled.nextsem⟩ scene
  · exact settled.becomes

theorem received_becomes (settled : Settled k lists) :
    Becomes (received k).2 (semsOf k lists) :=
  (settled.mark k.currpid { k.proctab k.currpid with phasmsg := 0 } rfl rfl
    (fun _ => rfl) settled.on.proc).becomes

/-- A sleeper is taken off the sleep list and becomes ready. -/
theorem unsleep_ready_becomes (settled : Settled k lists) (scene : Scene) {pid : Int}
    (good : ¬ isbadpid pid)
    (asleep : (k.proctab pid).pstate = .sleep ∨ (k.proctab pid).pstate = .trecv) :
    Becomes (readyYes (unsleep k pid).2 scene pid) (semsOf k lists) := by
  obtain ⟨front, back, unslept⟩ := unsleep_spec settled.on good asleep
  obtain ⟨after, onReady, same⟩ := unslept.ready settled.on good
  have rest := unslept.rest.trans (readyNo_rest _ pid)
  obtain ⟨last, settledLast, semaph, waiting⟩ :=
    resched_becomes onReady (rest.ranged settled.toRanged) scene
  unfold readyYes
  rw [if_neg good]
  refine ⟨last, settledLast, semaph.trans rest.semaph, waiting.trans (waitingOn_eq ?_)⟩
  intro sem isSem
  rw [same (sqhead sem) (sqhead_ne isSem).1, Function.update_of_ne (sqhead_ne isSem).2]

theorem xsend_becomes (settled : Settled k lists) (scene : Scene) (pid : Int) (msg : BitVec 32) :
    Becomes (xsend k scene pid msg).2 (semsOf k lists) := by
  unfold xsend
  split
  · exact settled.becomes
  · rename_i valid
    simp only [not_or] at valid
    have sent := settled.mark pid
      { k.proctab pid with pmsg := msg, phasmsg := 1 } rfl rfl (fun _ => rfl)
      (isProc_of_good valid.1).1
    dsimp only
    split
    · rename_i receives
      exact readyYes_becomes sent.on sent.toRanged scene valid.1
        (by simp [Xinu.setEntry, home, receives])
    · rename_i times
      exact unsleep_ready_becomes sent scene valid.1
        (Or.inr (by simpa [Xinu.setEntry] using times))
    · exact sent.becomes

theorem sendf_becomes (settled : Settled k lists) (scene : Scene) (pid : Int) (msg : BitVec 32) :
    Becomes (sendf k scene pid msg).2 (semsOf k lists) := by
  unfold sendf
  split
  · exact settled.becomes
  · rename_i valid
    simp only [not_or] at valid
    have sent := settled.mark pid
      { k.proctab pid with pmsg := msg, phasmsg := (k.proctab pid).phasmsg + 1 }
      rfl rfl (fun _ => rfl) (isProc_of_good valid.1).1
    dsimp only
    split
    · rename_i receives
      exact readyYes_becomes sent.on sent.toRanged scene valid.1
        (by simp [Xinu.setEntry, home, receives])
    · exact sent.becomes

end Calls

end MvsXinu.Kernel
