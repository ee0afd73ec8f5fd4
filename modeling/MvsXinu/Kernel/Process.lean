import MvsXinu.Kernel.Queue

/-!
# Processes, semaphores and messages (`process/*.c`, `sem/*.c`, `clock/*.c`, `send.c`, ...)

The operations run with the kernel's locks held, so each is one step up to the reschedule
that ends it. What a blocked call still does once it is dispatched again is a step of its
own (`received`); the others only return.
-/

namespace MvsXinu.Kernel

set_option autoImplicit false

inductive Pstate where
  | curr | free | ready | recv | sleep | susp | wait | trecv | dead
  deriving DecidableEq

structure Pentry where
  pstate : Pstate
  pprio : BitVec 32
  psem : Int
  phasmsg : BitVec 8
  pmsg : BitVec 32
  deriving DecidableEq

inductive Sstate where
  | free | used
  deriving DecidableEq

structure Sentry where
  sstate : Sstate
  semcnt : BitVec 32
  deriving DecidableEq

/-- `pidsleep` is the field of each write device's `ctwritestat`; `sltop` is the index of
the queue entry whose key the timer exit counts down. -/
structure Xinu where
  q : Qtab
  proctab : Int → Pentry
  semaph : Int → Sentry
  currpid : Int
  nextproc : Int
  nextsem : Int
  clkruns : Bool
  slnempty : Bool
  sltop : Int
  pidsleep : Nat → Int

def ok : Int := 1
def syserr : Int := -1
def badpid : Int := -1
def nullproc : Int := 0

/-- The heads of the lists, in the order in which `sysinit` calls `newqueue`. -/
def rdyhead : Int := 50
def rdytail : Int := 51
def sqhead (sem : Int) : Int := 52 + 2 * sem
def sqtail (sem : Int) : Int := 53 + 2 * sem
def clockq : Int := 452

def isbadpid (pid : Int) : Prop := pid ≤ 0 ∨ nproc ≤ pid
def isbadsem (sem : Int) : Prop := sem < 0 ∨ nsem ≤ sem

instance (pid : Int) : Decidable (isbadpid pid) := inferInstanceAs (Decidable (_ ∨ _))
instance (sem : Int) : Decidable (isbadsem sem) := inferInstanceAs (Decidable (_ ∨ _))

/-- What `resched` finds from outside: the processes whose channel program has ended, and
whether the current quantum still lasts (`preempt > 0`). -/
structure Scene where
  done : List Int
  quantum : Bool

def Xinu.setEntry (k : Xinu) (pid : Int) (entry : Pentry) : Xinu :=
  { k with proctab := Function.update k.proctab pid entry }

def Xinu.setState (k : Xinu) (pid : Int) (state : Pstate) : Xinu :=
  k.setEntry pid { k.proctab pid with pstate := state }

def Xinu.setSem (k : Xinu) (sem : Int) (entry : Sentry) : Xinu :=
  { k with semaph := Function.update k.semaph sem entry }

def Xinu.setCount (k : Xinu) (sem : Int) (count : BitVec 32) : Xinu :=
  k.setSem sem { k.semaph sem with semcnt := count }

/-- `ready(pid, RESCHNO)`. -/
def readyNo (k : Xinu) (pid : Int) : Xinu :=
  if isbadpid pid then k
  else { k.setState pid .ready with q := insert k.q pid rdyhead (k.proctab pid).pprio }

/-- `ready(getfirst(head), RESCHNO)`. -/
def readyFirst (k : Xinu) (head : Int) : Xinu :=
  readyNo { k with q := (getfirst k.q head).2 } (getfirst k.q head).1

/-- Each ended channel program resumes its process. The reschedule that `resume` asks for
runs inside the one that called `iohook`: the innermost of them switches, and what is left
of the outer ones is a reschedule of its own when the process runs again. -/
def iohook (k : Xinu) : List Int → Xinu
  | [] => k
  | iopid :: others =>
      if isbadpid iopid ∨ (k.proctab iopid).pstate ≠ .susp then iohook k others
      else iohook (readyNo k iopid) others

def wakeupLoop : Nat → Xinu → Xinu
  | 0, k => k
  | fuel + 1, k =>
      if ¬ isempty k.q clockq ∧ (firstkey k.q clockq).sle 0 then
        wakeupLoop fuel (readyFirst k clockq)
      else k

def wakeup (k : Xinu) : Xinu :=
  let woken := wakeupLoop nqent k
  if isempty woken.q clockq then { woken with slnempty := false }
  else { woken with slnempty := true, sltop := (woken.q clockq).qnext }

def preempted (k : Xinu) : Xinu :=
  if (k.proctab k.currpid).pstate = .curr then
    { k.setState k.currpid .ready with
      q := insert k.q k.currpid rdyhead (k.proctab k.currpid).pprio }
  else k

def dispatch (k : Xinu) : Xinu :=
  Xinu.setState
    { k with q := (getlast k.q rdytail).2, currpid := (getlast k.q rdytail).1 }
    (getlast k.q rdytail).1 .curr

def resched (k : Xinu) (scene : Scene) : Xinu :=
  let woken := wakeup (iohook k scene.done)
  let current := woken.proctab woken.currpid
  if scene.quantum ∧ current.pstate = .curr ∧ (lastkey woken.q rdytail).slt current.pprio then
    woken
  else dispatch (preempted woken)

/-- `ready(pid, RESCHYES)`. -/
def readyYes (k : Xinu) (scene : Scene) (pid : Int) : Xinu :=
  if isbadpid pid then k else resched (readyNo k pid) scene

/-- The scan of `newpid`, down from `nextproc`. -/
def newpid : Nat → Xinu → Int × Xinu
  | 0, k => (syserr, k)
  | tries + 1, k =>
      let passed := { k with nextproc := if k.nextproc ≤ 0 then nproc - 1 else k.nextproc - 1 }
      if (k.proctab k.nextproc).pstate = .free then (k.nextproc, passed) else newpid tries passed

/-- `stack` says whether `getstk` found the memory for the process. -/
def create (k : Xinu) (stack : Bool) (priority : BitVec 32) : Int × Xinu :=
  if priority.slt 1 ∨ stack = false then (syserr, k)
  else
    let found := newpid nproc.toNat k
    if found.1 = syserr then found
    else
      (found.1, found.2.setEntry found.1
        { pstate := .susp, pprio := priority, psem := 0, phasmsg := 0, pmsg := 0 })

def resume (k : Xinu) (scene : Scene) (pid : Int) : Int × Xinu :=
  if isbadpid pid ∨ (k.proctab pid).pstate ≠ .susp then (syserr, k)
  else ((k.proctab pid).pprio.toInt, readyYes k scene pid)

def suspend (k : Xinu) (scene : Scene) (pid : Int) : Xinu :=
  if isbadpid pid ∨ pid = nullproc then k
  else if (k.proctab pid).pstate = .ready then
    { k.setState pid .susp with q := dequeue k.q pid }
  else if (k.proctab pid).pstate = .curr then resched (k.setState pid .susp) scene
  else k

def chprio (k : Xinu) (scene : Scene) (pid : Int) (newprio : BitVec 32) : Int × Xinu :=
  if isbadpid pid ∨ (k.proctab pid).pstate = .free then (syserr, k)
  else
    let changed := k.setEntry pid { k.proctab pid with pprio := newprio }
    ((k.proctab pid).pprio.toInt,
      match (k.proctab pid).pstate with
      | .ready => resched { changed with q := insert (dequeue k.q pid) pid rdyhead newprio } scene
      | .curr => resched changed scene
      | _ => changed)

/-- The queue entry the timer exit counts down follows the head of the sleep list. -/
def unsleep (k : Xinu) (pid : Int) : Int × Xinu :=
  if isbadpid pid ∨ ((k.proctab pid).pstate ≠ .sleep ∧ (k.proctab pid).pstate ≠ .trecv) then
    (syserr, k)
  else
    let q := unsleepq k.q pid
    if (q clockq).qnext < nproc then (ok, { k with q := q, sltop := (q clockq).qnext })
    else (ok, { k with q := q, slnempty := false })

/-- Built with `MVS_PROC_KEEP_FINI`. A process that kills itself is not dispatched again, so
the cases that its own falls into are not reached. -/
def killpid (k : Xinu) (scene : Scene) (pid : Int) : Int × Xinu :=
  if isbadpid pid ∨ (k.proctab pid).pstate = .free then (syserr, k)
  else
    (ok,
      match (k.proctab pid).pstate with
      | .dead => k
      | .curr => resched (k.setState pid .dead) scene
      | .wait =>
          let sem := (k.proctab pid).psem
          { (k.setCount sem ((k.semaph sem).semcnt + 1)).setState pid .free with
            q := dequeue k.q pid }
      | .ready => { k.setState pid .free with q := dequeue k.q pid }
      | .sleep | .trecv => (unsleep k pid).2.setState pid .free
      | _ => k.setState pid .free)

/-! ## Semaphores -/

def newsem : Nat → Xinu → Int × Xinu
  | 0, k => (syserr, k)
  | tries + 1, k =>
      let passed := { k with nextsem := if k.nextsem - 1 < 0 then nsem - 1 else k.nextsem - 1 }
      if (k.semaph k.nextsem).sstate = .free then
        (k.nextsem, passed.setSem k.nextsem { k.semaph k.nextsem with sstate := .used })
      else newsem tries passed

def screate (k : Xinu) (count : BitVec 32) : Int × Xinu :=
  let found := newsem nsem.toNat k
  if found.1 = syserr then found else (found.1, found.2.setCount found.1 count)

def unusable (k : Xinu) (sem : Int) : Prop := isbadsem sem ∨ (k.semaph sem).sstate = .free

instance (k : Xinu) (sem : Int) : Decidable (unusable k sem) :=
  inferInstanceAs (Decidable (_ ∨ _))

def wait (k : Xinu) (scene : Scene) (sem : Int) : Int × Xinu :=
  if unusable k sem then (syserr, k)
  else
    let counted := k.setCount sem ((k.semaph sem).semcnt - 1)
    if (counted.semaph sem).semcnt.slt 0 then
      (ok, resched
        { counted.setEntry k.currpid { k.proctab k.currpid with pstate := .wait, psem := sem } with
          q := enqueue k.q k.currpid (sqtail sem) } scene)
    else (ok, counted)

def xsignal (k : Xinu) (scene : Scene) (sem : Int) : Int × Xinu :=
  if unusable k sem then (syserr, k)
  else
    let counted := k.setCount sem ((k.semaph sem).semcnt + 1)
    if (k.semaph sem).semcnt.slt 0 then
      (ok, readyYes { counted with q := (getfirst k.q (sqhead sem)).2 } scene
        (getfirst k.q (sqhead sem)).1)
    else (ok, counted)

/-- One turn of the loop in `signaln`. -/
def signalOnce (k : Xinu) (sem : Int) : Xinu :=
  let counted := k.setCount sem ((k.semaph sem).semcnt + 1)
  if (k.semaph sem).semcnt.slt 0 then readyFirst counted (sqhead sem) else counted

def signalTimes (sem : Int) : Nat → Xinu → Xinu
  | 0, k => k
  | count + 1, k => signalTimes sem count (signalOnce k sem)

def signaln (k : Xinu) (scene : Scene) (sem : Int) (count : BitVec 32) : Int × Xinu :=
  if unusable k sem ∨ count.sle 0 then (syserr, k)
  else (ok, resched (signalTimes sem count.toNat k) scene)

/-- `while ((pid = getfirst(head)) != EMPTY) ready(pid, RESCHNO)`. -/
def readyAll (head : Int) : Nat → Xinu → Xinu
  | 0, k => k
  | fuel + 1, k =>
      if (getfirst k.q head).1 = empty then k else readyAll head fuel (readyFirst k head)

def sreset (k : Xinu) (scene : Scene) (sem : Int) (count : BitVec 32) : Int × Xinu :=
  if isbadsem sem ∨ count.slt 0 ∨ (k.semaph sem).sstate = .free then (syserr, k)
  else (ok, resched ((readyAll (sqhead sem) nqent k).setCount sem count) scene)

def sdelete (k : Xinu) (scene : Scene) (sem : Int) : Int × Xinu :=
  if unusable k sem then (syserr, k)
  else
    let released := k.setSem sem { k.semaph sem with sstate := .free }
    if isempty k.q (sqhead sem) then (ok, released)
    else (ok, resched (readyAll (sqhead sem) nqent released) scene)

/-! ## Sleeping and messages -/

def sleepOn (k : Xinu) (state : Pstate) (delay : BitVec 32) : Xinu :=
  let q := insertd k.q k.currpid clockq delay
  { k.setState k.currpid state with q := q, slnempty := true, sltop := (q clockq).qnext }

def sleep10 (k : Xinu) (scene : Scene) (n : BitVec 32) : Int × Xinu :=
  if n.slt 0 ∨ k.clkruns = false then (syserr, k)
  else if n = 0 then (ok, resched k scene)
  else (ok, resched (sleepOn k .sleep n) scene)

/-- `receive` up to its reschedule. -/
def receive (k : Xinu) (scene : Scene) : Xinu :=
  if (k.proctab k.currpid).phasmsg = 0 then resched (k.setState k.currpid .recv) scene else k

/-- `recvtim` up to its reschedule. -/
def recvtim (k : Xinu) (scene : Scene) (maxwait : BitVec 32) : Xinu :=
  if maxwait.slt 0 ∨ k.clkruns = false then k
  else if (k.proctab k.currpid).phasmsg = 0 then resched (sleepOn k .trecv maxwait) scene
  else k

/-- The end of `receive` and of `recvtim`, and `recvclr`: the message is taken. -/
def received (k : Xinu) : BitVec 32 × Xinu :=
  ((k.proctab k.currpid).pmsg,
    k.setEntry k.currpid { k.proctab k.currpid with phasmsg := 0 })

def xsend (k : Xinu) (scene : Scene) (pid : Int) (msg : BitVec 32) : Int × Xinu :=
  if isbadpid pid ∨ (k.proctab pid).pstate = .free ∨ (k.proctab pid).phasmsg ≠ 0 then (syserr, k)
  else
    let sent := k.setEntry pid { k.proctab pid with pmsg := msg, phasmsg := 1 }
    (ok,
      match (k.proctab pid).pstate with
      | .recv => readyYes sent scene pid
      | .trecv => readyYes (unsleep sent pid).2 scene pid
      | _ => sent)

def sendf (k : Xinu) (scene : Scene) (pid : Int) (msg : BitVec 32) : Int × Xinu :=
  if isbadpid pid ∨ (k.proctab pid).pstate = .free then (syserr, k)
  else
    let sent := k.setEntry pid
      { k.proctab pid with pmsg := msg, phasmsg := (k.proctab pid).phasmsg + 1 }
    if (k.proctab pid).pstate = .recv then (ok, readyYes sent scene pid) else (ok, sent)

/-- The timer exit (`MVSTMPOP`). -/
def timerPop (k : Xinu) : Xinu :=
  if k.slnempty then { k with q := setKey k.q k.sltop ((k.q k.sltop).qkey - 1) } else k

/-! ## The channel driver -/

/-- `ctci_iowrite` tells `ctci_write` whom to wake, before it suspends itself. -/
def ctciSleep (k : Xinu) (device : Nat) : Xinu :=
  { k with pidsleep := Function.update k.pidsleep device k.currpid }

def ctciAwake (k : Xinu) (device : Nat) : Xinu :=
  { k with pidsleep := Function.update k.pidsleep device badpid }

/-- The wake-up in `ctci_write`. -/
def ctciWrite (k : Xinu) (device : Nat) : Xinu :=
  if k.pidsleep device = badpid then k else readyNo k (k.pidsleep device)

/-! ## Runs -/

inductive Call where
  | create (stack : Bool) (priority : BitVec 32)
  | resume (pid : Int)
  | suspend (pid : Int)
  | chprio (pid : Int) (newprio : BitVec 32)
  | killpid (pid : Int)
  | screate (count : BitVec 32)
  | wait (sem : Int)
  | xsignal (sem : Int)
  | signaln (sem : Int) (count : BitVec 32)
  | sreset (sem : Int) (count : BitVec 32)
  | sdelete (sem : Int)
  | sleep10 (n : BitVec 32)
  | receive
  | recvtim (maxwait : BitVec 32)
  | received
  | xsend (pid : Int) (msg : BitVec 32)
  | sendf (pid : Int) (msg : BitVec 32)
  | wakeup
  | resched
  | timerPop
  | ctciSleep (device : Nat)
  | ctciAwake (device : Nat)
  | ctciWrite (device : Nat)

/-- The current process makes a call. -/
def step (k : Xinu) (call : Call) (scene : Scene) : Xinu :=
  match call with
  | .create stack priority => (create k stack priority).2
  | .resume pid => (resume k scene pid).2
  | .suspend pid => suspend k scene pid
  | .chprio pid newprio => (chprio k scene pid newprio).2
  | .killpid pid => (killpid k scene pid).2
  | .screate count => (screate k count).2
  | .wait sem => (wait k scene sem).2
  | .xsignal sem => (xsignal k scene sem).2
  | .signaln sem count => (signaln k scene sem count).2
  | .sreset sem count => (sreset k scene sem count).2
  | .sdelete sem => (sdelete k scene sem).2
  | .sleep10 n => (sleep10 k scene n).2
  | .receive => receive k scene
  | .recvtim maxwait => recvtim k scene maxwait
  | .received => (received k).2
  | .xsend pid msg => (xsend k scene pid msg).2
  | .sendf pid msg => (sendf k scene pid msg).2
  | .wakeup => wakeup k
  | .resched => resched k scene
  | .timerPop => timerPop k
  | .ctciSleep device => ctciSleep k device
  | .ctciAwake device => ctciAwake k device
  | .ctciWrite device => ctciWrite k device

/-- `newqueue`: the next two entries of the table become a list's head and tail. -/
def newqueue (q : Qtab) (nextqueue : Int) : Qtab :=
  Function.update
    (Function.update q nextqueue { qnext := nextqueue + 1, qprev := empty, qkey := minint })
    (nextqueue + 1) { qnext := empty, qprev := nextqueue, qkey := maxint }

/-- The lists of `procinit`, `seminit` and `clkinit`, in this order. -/
def newqueues : Nat → Qtab
  | 0 => fun _ => { qkey := 0, qnext := 0, qprev := 0 }
  | count + 1 => newqueue (newqueues count) (rdyhead + 2 * count)

/-- The kernel as `sysinit` leaves it. -/
def booted : Xinu where
  q := newqueues 202
  proctab := fun pid =>
    { pstate := if pid = nullproc then .curr else .free
      pprio := 0, psem := 0, phasmsg := 0, pmsg := 0 }
  semaph := fun _ => { sstate := .free, semcnt := 0 }
  currpid := nullproc
  nextproc := nproc - 1
  nextsem := nsem - 1
  clkruns := true
  slnempty := false
  sltop := 0
  pidsleep := fun _ => badpid

end MvsXinu.Kernel
