import MvsXinu.Kernel.Calls

/-!
# The semaphore calls

What each call does to the semaphores for themselves (`Sems`), and that the kernel's calls,
which work on the queue table and reschedule, do exactly that.
-/

namespace MvsXinu.Kernel

set_option autoImplicit false

/-! ## Semaphores for themselves -/

def Sems.setCount (sems : Sems) (sem : Int) (count : BitVec 32) : Sems :=
  { sems with
    semaph := Function.update sems.semaph sem { sems.semaph sem with semcnt := count } }

def Sems.setWaiting (sems : Sems) (sem : Int) (pids : List Int) : Sems :=
  { sems with waiting := Function.update sems.waiting sem pids }

def Sems.wait (sems : Sems) (sem pid : Int) : Sems :=
  let counted := sems.setCount sem ((sems.semaph sem).semcnt - 1)
  if ((sems.semaph sem).semcnt - 1).slt 0 then counted.setWaiting sem (sems.waiting sem ++ [pid])
  else counted

def Sems.signal (sems : Sems) (sem : Int) : Sems :=
  let counted := sems.setCount sem ((sems.semaph sem).semcnt + 1)
  if (sems.semaph sem).semcnt.slt 0 then counted.setWaiting sem (sems.waiting sem).tail
  else counted

def Sems.signals (sem : Int) : Nat → Sems → Sems
  | 0, sems => sems
  | count + 1, sems => Sems.signals sem count (sems.signal sem)

def Sems.reset (sems : Sems) (sem : Int) (count : BitVec 32) : Sems :=
  (sems.setCount sem count).setWaiting sem []

def Sems.delete (sems : Sems) (sem : Int) : Sems :=
  { semaph := Function.update sems.semaph sem { sems.semaph sem with sstate := .free }
    waiting := Function.update sems.waiting sem [] }

def Sems.create (sems : Sems) (sem : Int) (count : BitVec 32) : Sems :=
  { sems with semaph := Function.update sems.semaph sem { sstate := .used, semcnt := count } }

/-- A waiting process is killed. -/
def Sems.drop (sems : Sems) (sem pid : Int) : Sems :=
  (sems.setCount sem ((sems.semaph sem).semcnt + 1)).setWaiting sem ((sems.waiting sem).erase pid)

/-- `wait` of a process that has to. -/
def blocked (k : Xinu) (sem : Int) : Xinu :=
  { (k.setCount sem ((k.semaph sem).semcnt - 1)).setEntry k.currpid
      { k.proctab k.currpid with pstate := .wait, psem := sem } with
    q := enqueue k.q k.currpid (sqtail sem) }

/-! ## The kernel's calls -/

section Calls

variable {k : Xinu} {lists : Int → List Int} {sem : Int}

theorem waitingOn_good (good : ¬ isbadsem sem) : waitingOn lists sem = lists (sqhead sem) :=
  if_neg good

/-- One list of waiting processes has changed. -/
theorem waitingOn_update {after : Int → List Int} {pids : List Int} (good : ¬ isbadsem sem)
    (same : ∀ other, other ≠ rdyhead → other ≠ clockq →
      after other = Function.update lists (sqhead sem) pids other) :
    waitingOn after = Function.update (waitingOn lists) sem pids := by
  funext other
  by_cases isSem : other = sem
  · obtain ⟨awayReady, awayClock⟩ := sqhead_ne good
    rw [isSem, Function.update_self, waitingOn_good good, same _ awayReady awayClock,
      Function.update_self]
  · rw [Function.update_of_ne isSem]
    unfold waitingOn
    split
    · rfl
    · rename_i goodOther
      obtain ⟨awayReady, awayClock⟩ := sqhead_ne goodOther
      rw [same _ awayReady awayClock, Function.update_of_ne]
      intro equal
      exact isSem (sqhead_inj equal)

theorem Settled.setSem (settled : Settled k lists) (sem : Int) (entry : Sentry) :
    Settled (k.setSem sem entry) lists :=
  ⟨⟨settled.nextproc, settled.nextsem⟩, settled.on, settled.running, settled.timed⟩

theorem blocked_on (settled : Settled k lists) {sem : Int} (good : ¬ isbadsem sem)
    (notNull : k.currpid ≠ nullproc) :
    (blocked k sem).On
      (Function.update lists (sqhead sem) (lists (sqhead sem) ++ [k.currpid])) := by
  have running := settled.running
  unfold Xinu.Running at running
  have homeless : home (k.proctab k.currpid) = none := by simp [home, running]
  have threaded := settled.on.threaded.enqueue (sqhead_head good) settled.on.proc
    (settled.on.onNoList homeless)
  have tail : sqhead sem + 1 = sqtail sem := by
    unfold sqhead sqtail
    omega
  rw [tail] at threaded
  have found : lists (sqhead sem) = lists (sqhead sem) ++ [] := (List.append_nil _).symm
  have joined := settled.on.join
    { k.proctab k.currpid with pstate := .wait, psem := sem } found threaded settled.on.proc homeless
    rfl (fun ready => by cases ready) (fun _ => good)
    (fun other _ _ => enqueue_qkey k.q k.currpid (sqtail sem) other)
  exact Board.change settled.on joined (fun current => by cases current)
    (fun null => absurd null notNull)

theorem wait_becomes (settled : Settled k lists) (scene : Scene) (sem : Int)
    (stays : k.currpid = nullproc →
      ¬ (¬ unusable k sem ∧ ((k.semaph sem).semcnt - 1).slt 0)) :
    Becomes (wait k scene sem).2
      (if unusable k sem then semsOf k lists else (semsOf k lists).wait sem k.currpid) := by
  unfold wait
  split
  · exact settled.becomes
  · rename_i usable
    have goodSem : ¬ isbadsem sem := fun bad => usable (Or.inl bad)
    have count : ((k.setCount sem ((k.semaph sem).semcnt - 1)).semaph sem).semcnt =
        (k.semaph sem).semcnt - 1 := by
      simp [Xinu.setCount, Xinu.setSem]
    dsimp only
    rw [count]
    split
    · rename_i negative
      have spec : (semsOf k lists).wait sem k.currpid = _ := if_pos negative
      rw [spec]
      have notNull : k.currpid ≠ nullproc := fun null => stays null ⟨usable, negative⟩
      obtain ⟨last, settledLast, semaph, waiting⟩ := resched_becomes (k := blocked k sem)
        (blocked_on settled goodSem notNull) ⟨settled.nextproc, settled.nextsem⟩ scene
      refine ⟨last, settledLast, semaph, waiting.trans ?_⟩
      have same : waitingOn lists sem = lists (sqhead sem) := waitingOn_good goodSem
      simp only [Sems.setWaiting, Sems.setCount, semsOf, same]
      exact waitingOn_update goodSem (fun _ _ _ => rfl)
    · rename_i notNegative
      have spec : (semsOf k lists).wait sem k.currpid = _ := if_neg notNegative
      rw [spec]
      exact ⟨lists, settled.setSem _ _, rfl, rfl⟩

/-- The first process on a list is not the running one. -/
theorem readyFirst_running (on : k.On lists) {head pid : Int} {rest : List Int}
    (isHead : Head head) (awayReady : head ≠ rdyhead) (found : lists head = pid :: rest)
    (running : k.Running) : (readyFirst k head).Running := by
  have member : pid ∈ lists head := by
    rw [found]
    exact List.mem_cons_self
  have good := Board.good_of_mem on isHead awayReady member
  have away : k.currpid ≠ pid := by
    intro equal
    have isHome := ((on.member head pid isHead).mp member).2
    unfold Xinu.Running at running
    rw [equal] at running
    simp [home, running] at isHome
  unfold readyFirst readyNo
  rw [on.threaded.getfirst_cons isHead found, if_neg good]
  simpa [Xinu.Running, Xinu.setState, Xinu.setEntry, Function.update_of_ne away] using running

/-- The first process on a list that is not the sleepers' becomes ready. -/
theorem readyFirst_settled (settled : Settled k lists) {head pid : Int} {rest : List Int}
    (isHead : Head head) (awayReady : head ≠ rdyhead) (awayClock : head ≠ clockq)
    (found : lists head = pid :: rest) :
    ∃ after, Settled (readyFirst k head) after ∧
      ∀ other, other ≠ rdyhead → after other = Function.update lists head rest other := by
  obtain ⟨after, on, same⟩ := readyFirst_on settled.on isHead awayReady found
  refine ⟨after, ⟨(readyFirst_rest k head).ranged settled.toRanged, on, ?_, ?_⟩, same⟩
  · exact readyFirst_running settled.on isHead awayReady found settled.running
  · have timed := settled.timed
    unfold Xinu.Timed at timed ⊢
    rw [same clockq (by decide), Function.update_of_ne (Ne.symm awayClock)]
    unfold readyFirst readyNo
    split
    · exact timed
    · exact timed

/-- `ready` refuses the empty list's answer. -/
theorem readyFirst_empty (on : k.On lists) {head : Int} (isHead : Head head)
    (none : lists head = []) : readyFirst k head = k := by
  unfold readyFirst readyNo
  have refused : isbadpid empty := by decide
  rw [on.threaded.getfirst_nil isHead none, if_pos refused]

theorem signalOnce_becomes (settled : Settled k lists) (good : ¬ isbadsem sem) :
    Becomes (signalOnce k sem) ((semsOf k lists).signal sem) := by
  have counted := settled.setSem sem
    { k.semaph sem with semcnt := (k.semaph sem).semcnt + 1 }
  unfold signalOnce
  dsimp only
  split
  · rename_i negative
    have spec : (semsOf k lists).signal sem = _ := if_pos negative
    rw [spec]
    cases found : lists (sqhead sem) with
    | nil =>
        have same := readyFirst_empty counted.on (sqhead_head good) found
        unfold Xinu.setCount
        rw [same]
        refine ⟨lists, counted, rfl, ?_⟩
        simp only [Sems.setWaiting, Sems.setCount, semsOf, waitingOn_good good, found]
        apply waitingOn_update good
        intro other _ _
        by_cases isHead : other = sqhead sem
        · rw [isHead, Function.update_self, found]
          rfl
        · rw [Function.update_of_ne isHead]
    | cons pid rest =>
        obtain ⟨awayReady, awayClock⟩ := sqhead_ne good
        obtain ⟨after, settledAfter, same⟩ := readyFirst_settled counted (sqhead_head good)
          awayReady awayClock found
        refine ⟨after, settledAfter, (readyFirst_rest _ _).semaph, ?_⟩
        simp only [Sems.setWaiting, Sems.setCount, semsOf, waitingOn_good good, found]
        exact waitingOn_update good (fun other away _ => same other away)
  · rename_i notNegative
    have spec : (semsOf k lists).signal sem = _ := if_neg notNegative
    rw [spec]
    exact ⟨lists, counted, rfl, rfl⟩

theorem Becomes.sems_eq {later : Xinu} {sems : Sems} (becomes : Becomes later sems) :
    ∃ after, Settled later after ∧ semsOf later after = sems := by
  obtain ⟨after, settled, semaph, waiting⟩ := becomes
  refine ⟨after, settled, ?_⟩
  unfold semsOf
  rw [semaph, waiting]

theorem signalTimes_becomes (good : ¬ isbadsem sem) (count : Nat) :
    ∀ (k : Xinu) (lists : Int → List Int), Settled k lists →
      Becomes (signalTimes sem count k) (Sems.signals sem count (semsOf k lists)) := by
  induction count with
  | zero =>
      intro k lists settled
      exact settled.becomes
  | succ count ih =>
      intro k lists settled
      obtain ⟨after, settledAfter, same⟩ := (signalOnce_becomes settled good).sems_eq
      unfold signalTimes Sems.signals
      rw [← same]
      exact ih _ after settledAfter

theorem Becomes.resched {later : Xinu} {sems : Sems} (becomes : Becomes later sems)
    (scene : Scene) : Becomes (Kernel.resched later scene) sems := by
  obtain ⟨after, settled, same⟩ := becomes.sems_eq
  rw [← same]
  exact resched_becomes settled.on settled.toRanged scene

theorem xsignal_eq (k : Xinu) (scene : Scene) (usable : ¬ unusable k sem) :
    (xsignal k scene sem).2 =
      if (k.semaph sem).semcnt.slt 0 ∧ ¬ isbadpid (getfirst k.q (sqhead sem)).1 then
        resched (signalOnce k sem) scene
      else signalOnce k sem := by
  unfold xsignal signalOnce
  rw [if_neg usable]
  dsimp only
  by_cases negative : (k.semaph sem).semcnt.slt 0
  · rw [if_pos negative, if_pos negative]
    unfold readyYes readyFirst
    by_cases bad : isbadpid (getfirst k.q (sqhead sem)).1
    · rw [if_pos bad, if_neg (fun both => both.2 bad)]
      exact (if_pos bad).symm
    · rw [if_neg bad, if_pos ⟨negative, bad⟩]
      rfl
  · rw [if_neg negative, if_neg negative, if_neg (fun both => negative both.1)]

theorem xsignal_becomes (settled : Settled k lists) (scene : Scene) (sem : Int) :
    Becomes (xsignal k scene sem).2
      (if unusable k sem then semsOf k lists else (semsOf k lists).signal sem) := by
  by_cases refused : unusable k sem
  · unfold xsignal
    rw [if_pos refused, if_pos refused]
    exact settled.becomes
  · rw [if_neg refused, xsignal_eq k scene refused]
    have once := signalOnce_becomes settled (fun bad => refused (Or.inl bad))
    split
    · exact once.resched scene
    · exact once

theorem signaln_becomes (settled : Settled k lists) (scene : Scene) (sem : Int)
    (count : BitVec 32) :
    Becomes (signaln k scene sem count).2
      (if unusable k sem ∨ count.sle 0 then semsOf k lists
        else Sems.signals sem count.toNat (semsOf k lists)) := by
  unfold signaln
  split
  · exact settled.becomes
  · rename_i valid
    have good : ¬ isbadsem sem := fun bad => valid (Or.inl (Or.inl bad))
    exact (signalTimes_becomes good count.toNat k lists settled).resched scene

theorem readyAll_settled (good : ¬ isbadsem sem) (fuel : Nat) :
    ∀ (k : Xinu) (lists : Int → List Int), Settled k lists →
      (lists (sqhead sem)).length < fuel →
      ∃ after, Settled (readyAll (sqhead sem) fuel k) after ∧
        (∀ other, other ≠ rdyhead → after other = Function.update lists (sqhead sem) [] other) ∧
        SameRest k (readyAll (sqhead sem) fuel k) := by
  have isHead := sqhead_head good
  obtain ⟨awayReady, awayClock⟩ := sqhead_ne good
  induction fuel with
  | zero =>
      intro k lists settled enough
      omega
  | succ fuel ih =>
      intro k lists settled enough
      unfold readyAll
      cases found : lists (sqhead sem) with
      | nil =>
          rw [settled.on.threaded.getfirst_nil isHead found, if_pos rfl]
          refine ⟨lists, settled, ?_, SameRest.refl k⟩
          intro other _
          by_cases same : other = sqhead sem
          · rw [same, Function.update_self, found]
          · rw [Function.update_of_ne same]
      | cons pid rest =>
          have isProc := settled.on.threaded.procs (sqhead sem) isHead pid
            (by rw [found]; exact List.mem_cons_self)
          have taken : (getfirst k.q (sqhead sem)).1 ≠ empty := by
            rw [settled.on.threaded.getfirst_cons isHead found]
            unfold empty
            omega
          rw [if_neg taken]
          obtain ⟨readied, settledReadied, same⟩ := readyFirst_settled settled isHead awayReady
            awayClock found
          have shorter : (readied (sqhead sem)).length < fuel := by
            rw [same _ awayReady, Function.update_self]
            rw [found, List.length_cons] at enough
            omega
          obtain ⟨after, settledAfter, sameAfter, rest⟩ := ih _ readied settledReadied shorter
          refine ⟨after, settledAfter, ?_, (readyFirst_rest k _).trans rest⟩
          intro other away
          rw [sameAfter other away]
          by_cases isList : other = sqhead sem
          · rw [isList, Function.update_self, Function.update_self]
          · rw [Function.update_of_ne isList, Function.update_of_ne isList, same other away,
              Function.update_of_ne isList]

theorem sreset_becomes (settled : Settled k lists) (scene : Scene) (sem : Int)
    (count : BitVec 32) :
    Becomes (sreset k scene sem count).2
      (if unusable k sem ∨ count.slt 0 then semsOf k lists
        else (semsOf k lists).reset sem count) := by
  unfold sreset
  by_cases refused : unusable k sem ∨ count.slt 0
  · have guard : isbadsem sem ∨ count.slt 0 ∨ (k.semaph sem).sstate = .free := by
      unfold unusable at refused
      tauto
    rw [if_pos guard, if_pos refused]
    exact settled.becomes
  · have guard : ¬ (isbadsem sem ∨ count.slt 0 ∨ (k.semaph sem).sstate = .free) := by
      unfold unusable at refused
      tauto
    rw [if_neg guard, if_neg refused]
    have good : ¬ isbadsem sem := fun bad => guard (Or.inl bad)
    have short := settled.on.threaded.length_le (sqhead_head good)
    obtain ⟨after, settledAfter, same, rest⟩ := readyAll_settled good nqent k lists settled
      (by unfold nqent; omega)
    apply Becomes.resched
    refine ⟨after, settledAfter.setSem _ _, ?_, ?_⟩
    · simp only [Xinu.setCount, Xinu.setSem, rest.semaph]
      rfl
    · exact waitingOn_update good (fun other away _ => same other away)

theorem sdelete_becomes (settled : Settled k lists) (scene : Scene) (sem : Int) :
    Becomes (sdelete k scene sem).2
      (if unusable k sem then semsOf k lists else (semsOf k lists).delete sem) := by
  unfold sdelete
  split
  · exact settled.becomes
  · rename_i usable
    have good : ¬ isbadsem sem := fun bad => usable (Or.inl bad)
    have released := settled.setSem sem { k.semaph sem with sstate := .free }
    dsimp only
    split
    · rename_i none
      have nobody := (settled.on.threaded.isempty_iff (sqhead_head good)).mp none
      refine ⟨lists, released, rfl, ?_⟩
      apply waitingOn_update good
      intro other _ _
      by_cases same : other = sqhead sem
      · rw [same, Function.update_self, nobody]
      · rw [Function.update_of_ne same]
    · have short := settled.on.threaded.length_le (sqhead_head good)
      obtain ⟨after, settledAfter, same, rest⟩ := readyAll_settled good nqent _ lists released
        (by unfold nqent; omega)
      apply Becomes.resched
      refine ⟨after, settledAfter, rest.semaph, ?_⟩
      exact waitingOn_update good (fun other away _ => same other away)

theorem newsem_spec (tries : Nat) : ∀ k : Xinu, ¬ isbadsem k.nextsem →
    ∃ next, ¬ isbadsem next ∧
      (newsem tries k = (syserr, { k with nextsem := next }) ∨
        ∃ sem, ¬ isbadsem sem ∧ (k.semaph sem).sstate = .free ∧
          newsem tries k = (sem, Xinu.setSem { k with nextsem := next } sem
            { k.semaph sem with sstate := .used })) := by
  induction tries with
  | zero =>
      intro k good
      exact ⟨k.nextsem, good, Or.inl rfl⟩
  | succ tries ih =>
      intro k good
      have passed : ¬ isbadsem (if k.nextsem - 1 < 0 then nsem - 1 else k.nextsem - 1) := by
        unfold isbadsem nsem at good ⊢
        split <;> omega
      unfold newsem
      dsimp only
      split
      · rename_i free
        exact ⟨_, passed, Or.inr ⟨k.nextsem, good, free, rfl⟩⟩
      · exact ih { k with nextsem := if k.nextsem - 1 < 0 then nsem - 1 else k.nextsem - 1 } passed

theorem screate_becomes (settled : Settled k lists) (count : BitVec 32) :
    ((screate k count).1 ≠ syserr →
        ¬ isbadsem (screate k count).1 ∧ (k.semaph (screate k count).1).sstate = .free) ∧
      Becomes (screate k count).2
        (if (screate k count).1 = syserr then semsOf k lists
          else (semsOf k lists).create (screate k count).1 count) := by
  obtain ⟨next, goodNext, none | ⟨sem, good, free, some⟩⟩ :=
    newsem_spec nsem.toNat k settled.nextsem
  · have result : screate k count = (syserr, { k with nextsem := next }) := by
      unfold screate
      rw [none]
      rfl
    rw [result]
    refine ⟨fun valid => absurd rfl valid, ?_⟩
    rw [if_pos rfl]
    exact ⟨lists, ⟨⟨settled.nextproc, goodNext⟩, settled.on, settled.running, settled.timed⟩, rfl,
      rfl⟩
  · have valid : sem ≠ syserr := by
      unfold isbadsem at good
      unfold syserr
      omega
    have result : screate k count = (sem, Xinu.setCount (Xinu.setSem { k with nextsem := next } sem
        { k.semaph sem with sstate := .used }) sem count) := by
      unfold screate
      rw [some]
      dsimp only
      rw [if_neg valid]
    rw [result]
    refine ⟨fun _ => ⟨good, free⟩, ?_⟩
    rw [if_neg valid]
    refine ⟨lists, ⟨⟨settled.nextproc, goodNext⟩, settled.on, settled.running, settled.timed⟩, ?_,
      rfl⟩
    simp [Xinu.setCount, Xinu.setSem, Sems.create, semsOf]

/-- A sleeper is killed. -/
theorem killpid_asleep (settled : Settled k lists) {pid : Int} (good : ¬ isbadpid pid)
    (asleep : (k.proctab pid).pstate = .sleep ∨ (k.proctab pid).pstate = .trecv) :
    Becomes ((unsleep k pid).2.setState pid .free) (semsOf k lists) := by
  obtain ⟨front, back, unslept⟩ := unsleep_spec settled.on good asleep
  have away : k.currpid ≠ pid := by
    intro same
    have running := settled.running
    unfold Xinu.Running at running
    rw [same] at running
    rcases asleep with sleeps | times
    · rw [sleeps] at running
      cases running
    · rw [times] at running
      cases running
  refine ⟨_, ⟨?_, unslept.free settled.on good, ?_, unslept.timed⟩, unslept.rest.semaph,
    waitingOn_eq ?_⟩
  · have freed : SameRest (unsleep k pid).2 ((unsleep k pid).2.setState pid .free) :=
      ⟨rfl, rfl, rfl, rfl⟩
    exact (unslept.rest.trans freed).ranged settled.toRanged
  · simpa [Xinu.Running, Xinu.setState, Xinu.setEntry, unslept.proctab, unslept.currpid,
      Function.update_of_ne away] using settled.running
  · intro sem isSem
    rw [Function.update_of_ne (sqhead_ne isSem).2]

theorem killpid_becomes (settled : Settled k lists) (scene : Scene) (pid : Int) :
    Becomes (killpid k scene pid).2
      (if ¬ isbadpid pid ∧ (k.proctab pid).pstate = .wait then
        (semsOf k lists).drop (k.proctab pid).psem pid
      else semsOf k lists) := by
  have freed : ∀ entry : Pentry, entry.pstate = .free → home entry = none := by
    intro entry free
    simp [home, free]
  unfold killpid
  by_cases guard : isbadpid pid ∨ (k.proctab pid).pstate = .free
  · have skip : ¬ (¬ isbadpid pid ∧ (k.proctab pid).pstate = .wait) := by
      rintro ⟨good, waits⟩
      rcases guard with bad | free
      · exact good bad
      · rw [waits] at free
        cases free
    rw [if_pos guard, if_neg skip]
    exact settled.becomes
  · rw [if_neg guard]
    simp only [not_or] at guard
    obtain ⟨isProc, notNull⟩ := isProc_of_good guard.1
    have plain : home (k.proctab pid) = none → (k.proctab pid).pstate ≠ .curr →
        Becomes (k.setState pid .free) (semsOf k lists) := by
      intro homeless notCurr
      have away : k.currpid ≠ pid := by
        intro same
        exact notCurr (same ▸ settled.running)
      refine ⟨lists, ⟨⟨settled.nextproc, settled.nextsem⟩, Board.change settled.on
        (settled.on.mark ?_ ?_ ?_) ?_ ?_, ?_, settled.timed⟩, rfl, rfl⟩
      · rw [homeless]
        exact freed _ rfl
      · intro ready
        cases ready
      · intro waits
        cases waits
      · intro current
        cases current
      · intro null
        exact absurd null notNull
      · simpa [Xinu.Running, Xinu.setState, Xinu.setEntry, Function.update_of_ne away]
          using settled.running
    cases state : (k.proctab pid).pstate with
    | dead =>
        rw [if_neg (by simp)]
        exact settled.becomes
    | curr =>
        rw [if_neg (by simp)]
        have same := settled.current isProc state
        rw [same] at notNull ⊢
        have on := settled.retire .dead
          (by
            intro entry dead
            simp [home, dead])
          (by decide) notNull
        exact resched_becomes on ⟨settled.nextproc, settled.nextsem⟩ scene
    | wait =>
        rw [if_pos ⟨guard.1, rfl⟩]
        have good := settled.on.sems pid isProc state
        have isHome : home (k.proctab pid) = some (sqhead (k.proctab pid).psem) := by
          simp [home, state]
        obtain ⟨front, back, found⟩ := settled.on.find isProc isHome
        have left := settled.leave (sqhead_head good) (sqhead_ne good).2 found notNull freed
          (by decide)
        have nodup := settled.on.threaded.nodup _ (sqhead_head good)
        have rest : front ++ back = (lists (sqhead (k.proctab pid).psem)).erase pid := by
          rw [found] at nodup ⊢
          have absent : pid ∉ front := by
            intro member
            exact not_mem_rest nodup (List.mem_append_left _ member)
          rw [List.erase_append_right _ absent, List.erase_cons_head]
        refine ⟨_, left.setSem _ _, rfl, ?_⟩
        simp only [Sems.drop, Sems.setWaiting, Sems.setCount, semsOf, waitingOn_good good]
        rw [rest]
        exact waitingOn_update good (fun _ _ _ => rfl)
    | ready =>
        rw [if_neg (by simp)]
        obtain ⟨front, back, found⟩ := settled.on.find isProc (home_ready state)
        refine ⟨_, settled.leave rdyhead_head (by decide) found notNull freed (by decide), rfl,
          waitingOn_eq ?_⟩
        intro sem isSem
        rw [Function.update_of_ne (sqhead_ne isSem).1]
    | sleep =>
        rw [if_neg (by simp)]
        exact killpid_asleep settled guard.1 (Or.inl state)
    | trecv =>
        rw [if_neg (by simp)]
        exact killpid_asleep settled guard.1 (Or.inr state)
    | free => exact absurd state guard.2
    | recv =>
        rw [if_neg (by simp)]
        exact plain (by simp [home, state]) (by rw [state]; decide)
    | susp =>
        rw [if_neg (by simp)]
        exact plain (by simp [home, state]) (by rw [state]; decide)

end Calls

end MvsXinu.Kernel
