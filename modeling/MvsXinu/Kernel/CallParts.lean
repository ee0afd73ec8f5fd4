import MvsXinu.Kernel.Rousing

/-!
# A call and the reschedule that ends it

`part` is a call up to its reschedule: the kernel then, the processes that were put on the
ready list on the way, in this order, and whether a reschedule follows. `edited` is the
process table as the call itself writes it; scheduling does the rest.
-/

namespace MvsXinu.Kernel

set_option autoImplicit false

structure Part where
  kernel : Xinu
  entered : List Int
  yields : Bool

/-! ## Who enters the ready list -/

def readyEntries (pid : Int) : List Int := if isbadpid pid then [] else [pid]

def firstEntries (k : Xinu) (head : Int) : List Int := readyEntries (getfirst k.q head).1

def signalOnceEntries (k : Xinu) (sem : Int) : List Int :=
  if (k.semaph sem).semcnt.slt 0 then firstEntries k (sqhead sem) else []

def signalTimesEntries (sem : Int) : Nat → Xinu → List Int
  | 0, _ => []
  | count + 1, k => signalOnceEntries k sem ++ signalTimesEntries sem count (signalOnce k sem)

def readyAllEntries (head : Int) : Nat → Xinu → List Int
  | 0, _ => []
  | fuel + 1, k =>
      if (getfirst k.q head).1 = empty then []
      else firstEntries k head ++ readyAllEntries head fuel (readyFirst k head)

def iohookEntries (k : Xinu) : List Int → List Int
  | [] => []
  | iopid :: others =>
      if isbadpid iopid ∨ (k.proctab iopid).pstate ≠ .susp then iohookEntries k others
      else iopid :: iohookEntries (readyNo k iopid) others

def wakeupLoopEntries : Nat → Xinu → List Int
  | 0, _ => []
  | fuel + 1, k =>
      if ¬ isempty k.q clockq ∧ (firstkey k.q clockq).sle 0 then
        firstEntries k clockq ++ wakeupLoopEntries fuel (readyFirst k clockq)
      else []

def preemptedEntries (k : Xinu) : List Int :=
  if (k.proctab k.currpid).pstate = .curr then [k.currpid] else []

/-- The kernel in which `resched` decides. -/
def deciding (k : Xinu) (scene : Scene) : Xinu := wakeup (iohook k scene.done)

def keeps (woken : Xinu) (scene : Scene) : Prop :=
  scene.quantum ∧ (woken.proctab woken.currpid).pstate = .curr ∧
    (lastkey woken.q rdytail).slt (woken.proctab woken.currpid).pprio

instance (woken : Xinu) (scene : Scene) : Decidable (keeps woken scene) :=
  inferInstanceAs (Decidable (_ ∧ _))

def wokenEntries (k : Xinu) (scene : Scene) : List Int :=
  iohookEntries k scene.done ++ wakeupLoopEntries nqent (iohook k scene.done)

def reschedEntries (k : Xinu) (scene : Scene) : List Int :=
  wokenEntries k scene ++
    if keeps (deciding k scene) scene then [] else preemptedEntries (deciding k scene)

/-! ## The parts of the calls -/

def sent (k : Xinu) (pid : Int) (msg : BitVec 32) (phasmsg : BitVec 8) : Xinu :=
  k.setEntry pid { k.proctab pid with pmsg := msg, phasmsg := phasmsg }

/-- A call that does not reschedule and puts nobody on the ready list. -/
def idlePart (k : Xinu) (call : Call) : Part where
  kernel := step k call calm
  entered := []
  yields := false

def part (k : Xinu) (call : Call) : Part :=
  match call with
  | .resume pid =>
      if isbadpid pid ∨ (k.proctab pid).pstate ≠ .susp then idlePart k call
      else { kernel := readyNo k pid, entered := [pid], yields := true }
  | .suspend pid =>
      if ¬ (isbadpid pid ∨ pid = nullproc) ∧ (k.proctab pid).pstate = .curr then
        { kernel := k.setState pid .susp, entered := [], yields := true }
      else idlePart k call
  | .chprio pid newprio =>
      let changed := k.setEntry pid { k.proctab pid with pprio := newprio }
      if isbadpid pid then idlePart k call
      else if (k.proctab pid).pstate = .ready then
        { kernel := { changed with q := insert (dequeue k.q pid) pid rdyhead newprio }
          entered := [pid]
          yields := true }
      else if (k.proctab pid).pstate = .curr then
        { kernel := changed, entered := [], yields := true }
      else idlePart k call
  | .killpid pid =>
      if ¬ isbadpid pid ∧ (k.proctab pid).pstate = .curr then
        { kernel := k.setState pid .dead, entered := [], yields := true }
      else idlePart k call
  | .wait sem =>
      if ¬ unusable k sem ∧ ((k.semaph sem).semcnt - 1).slt 0 then
        { kernel := blocked k sem, entered := [], yields := true }
      else idlePart k call
  | .xsignal sem =>
      if ¬ unusable k sem ∧ (k.semaph sem).semcnt.slt 0 ∧
          ¬ isbadpid (getfirst k.q (sqhead sem)).1 then
        { kernel := signalOnce k sem, entered := signalOnceEntries k sem, yields := true }
      else idlePart k call
  | .signaln sem count =>
      if unusable k sem ∨ count.sle 0 then idlePart k call
      else
        { kernel := signalTimes sem count.toNat k
          entered := signalTimesEntries sem count.toNat k
          yields := true }
  | .sreset sem count =>
      if isbadsem sem ∨ count.slt 0 ∨ (k.semaph sem).sstate = .free then idlePart k call
      else
        { kernel := (readyAll (sqhead sem) nqent k).setCount sem count
          entered := readyAllEntries (sqhead sem) nqent k
          yields := true }
  | .sdelete sem =>
      let released := k.setSem sem { k.semaph sem with sstate := .free }
      if unusable k sem ∨ isempty k.q (sqhead sem) then idlePart k call
      else
        { kernel := readyAll (sqhead sem) nqent released
          entered := readyAllEntries (sqhead sem) nqent released
          yields := true }
  | .sleep10 n =>
      if n.slt 0 ∨ k.clkruns = false then idlePart k call
      else { kernel := if n = 0 then k else sleepOn k .sleep n, entered := [], yields := true }
  | .receive =>
      if (k.proctab k.currpid).phasmsg = 0 then
        { kernel := k.setState k.currpid .recv, entered := [], yields := true }
      else idlePart k call
  | .recvtim maxwait =>
      if (maxwait.slt 0 ∨ k.clkruns = false) ∨ (k.proctab k.currpid).phasmsg ≠ 0 then
        idlePart k call
      else { kernel := sleepOn k .trecv maxwait, entered := [], yields := true }
  | .xsend pid msg =>
      if isbadpid pid ∨ (k.proctab pid).phasmsg ≠ 0 then idlePart k call
      else if (k.proctab pid).pstate = .recv then
        { kernel := readyNo (sent k pid msg 1) pid, entered := [pid], yields := true }
      else if (k.proctab pid).pstate = .trecv then
        { kernel := readyNo (unsleep (sent k pid msg 1) pid).2 pid
          entered := [pid]
          yields := true }
      else idlePart k call
  | .sendf pid msg =>
      if ¬ isbadpid pid ∧ (k.proctab pid).pstate = .recv then
        { kernel := readyNo (sent k pid msg ((k.proctab pid).phasmsg + 1)) pid
          entered := [pid]
          yields := true }
      else idlePart k call
  | .wakeup => { kernel := wakeup k, entered := wakeupLoopEntries nqent k, yields := false }
  | .resched => { kernel := k, entered := [], yields := true }
  | .ctciWrite device =>
      { kernel := ctciWrite k device
        entered := if k.pidsleep device = badpid then [] else readyEntries (k.pidsleep device)
        yields := false }
  | _ => idlePart k call

theorem wait_eq (k : Xinu) (scene : Scene) (sem : Int) :
    (wait k scene sem).2 =
      if ¬ unusable k sem ∧ ((k.semaph sem).semcnt - 1).slt 0 then resched (blocked k sem) scene
      else if unusable k sem then k else k.setCount sem ((k.semaph sem).semcnt - 1) := by
  have count : ((k.setCount sem ((k.semaph sem).semcnt - 1)).semaph sem).semcnt =
      (k.semaph sem).semcnt - 1 := by
    simp [Xinu.setCount, Xinu.setSem]
  simp only [wait]
  by_cases refused : unusable k sem
  · rw [if_pos refused, if_neg (fun blocks => blocks.1 refused), if_pos refused]
  · rw [if_neg refused, if_neg refused, count]
    by_cases negative : ((k.semaph sem).semcnt - 1).slt 0
    · rw [if_pos negative, if_pos ⟨refused, negative⟩, blocked]
    · rw [if_neg negative, if_neg (fun blocks => negative blocks.2)]

/-- A call is its part, then the reschedule. -/
theorem step_eq_part (k : Xinu) (call : Call) (scene : Scene) :
    step k call scene =
      if (part k call).yields then resched (part k call).kernel scene else (part k call).kernel := by
  cases call with
  | resume pid =>
      by_cases bad : isbadpid pid
      · simp [part, idlePart, step, resume, bad]
      · cases state : (k.proctab pid).pstate <;>
          simp [part, idlePart, step, resume, readyYes, bad, state]
  | suspend pid =>
      by_cases refused : isbadpid pid ∨ pid = nullproc
      · simp [part, idlePart, step, suspend, refused]
      · cases state : (k.proctab pid).pstate <;>
          simp [part, idlePart, step, suspend, refused, state]
  | chprio pid newprio =>
      by_cases bad : isbadpid pid
      · simp [part, idlePart, step, chprio, bad]
      · cases state : (k.proctab pid).pstate <;>
          simp [part, idlePart, step, chprio, bad, state]
  | killpid pid =>
      by_cases bad : isbadpid pid
      · simp [part, idlePart, step, killpid, bad]
      · cases state : (k.proctab pid).pstate <;>
          simp [part, idlePart, step, killpid, bad, state]
  | wait sem =>
      have split := wait_eq k scene sem
      have calmSplit := wait_eq k calm sem
      simp only [step, part, split]
      by_cases blocks : ¬ unusable k sem ∧ ((k.semaph sem).semcnt - 1).slt 0
      · simp only [if_pos blocks, if_true]
      · simp only [if_neg blocks, idlePart, step, calmSplit, Bool.false_eq_true, if_false]
  | xsignal sem =>
      by_cases refused : unusable k sem
      · simp [part, idlePart, step, xsignal, refused]
      · have split := xsignal_eq k scene refused
        have calmSplit := xsignal_eq k calm refused
        simp only [step, part, refused, not_false_eq_true, true_and, split]
        split
        · simp
        · rename_i stays
          simp only [idlePart, step, calmSplit, if_neg stays, Bool.false_eq_true, if_false]
  | signaln sem count =>
      by_cases refused : unusable k sem ∨ count.sle 0
      · simp only [part, idlePart, step, signaln, if_pos refused, Bool.false_eq_true, if_false]
      · simp only [part, step, signaln, if_neg refused, if_true]
  | sreset sem count =>
      by_cases refused : isbadsem sem ∨ count.slt 0 ∨ (k.semaph sem).sstate = .free
      · simp only [part, idlePart, step, sreset, if_pos refused, Bool.false_eq_true, if_false]
      · simp only [part, step, sreset, if_neg refused, if_true]
  | sdelete sem =>
      by_cases refused : unusable k sem
      · simp only [part, idlePart, step, sdelete, refused, true_or, if_true, Bool.false_eq_true,
          if_false]
      · by_cases nobody : isempty k.q (sqhead sem)
        · simp only [part, idlePart, step, sdelete, if_neg refused, nobody, or_true, if_true,
            Bool.false_eq_true, if_false]
        · simp only [part, step, sdelete, refused, nobody, or_self, if_false, if_true]
  | sleep10 n =>
      by_cases refused : n.slt 0 ∨ k.clkruns = false
      · simp only [part, idlePart, step, sleep10, if_pos refused, Bool.false_eq_true, if_false]
      · by_cases zero : n = 0
        · simp only [part, step, sleep10, if_neg refused, if_pos zero, if_true]
        · simp only [part, step, sleep10, if_neg refused, if_neg zero, if_true]
  | receive =>
      by_cases nothing : (k.proctab k.currpid).phasmsg = 0
      · simp only [part, step, receive, if_pos nothing, if_true]
      · simp only [part, idlePart, step, receive, if_neg nothing, Bool.false_eq_true, if_false]
  | recvtim maxwait =>
      by_cases refused : maxwait.slt 0 ∨ k.clkruns = false
      · simp only [part, idlePart, step, recvtim, refused, true_or, if_true, Bool.false_eq_true,
          if_false]
      · by_cases nothing : (k.proctab k.currpid).phasmsg = 0
        · simp only [part, step, recvtim, refused, nothing, ne_eq, not_true_eq_false, or_self,
            if_false, if_true]
        · simp only [part, idlePart, step, recvtim, if_neg refused, nothing, ne_eq,
            not_false_eq_true, or_true, if_true, Bool.false_eq_true, if_false]
  | xsend pid msg =>
      by_cases bad : isbadpid pid
      · simp [part, idlePart, step, xsend, bad]
      · by_cases pending : (k.proctab pid).phasmsg = 0
        · cases state : (k.proctab pid).pstate <;>
            simp [part, idlePart, step, xsend, readyYes, sent, bad, pending, state]
        · simp only [part, idlePart, step, xsend, ne_eq, pending, not_false_eq_true, or_true,
            if_true, Bool.false_eq_true, if_false]
  | sendf pid msg =>
      by_cases bad : isbadpid pid
      · simp [part, idlePart, step, sendf, bad]
      · cases state : (k.proctab pid).pstate <;>
          simp [part, idlePart, step, sendf, readyYes, sent, bad, state]
  | _ => simp [part, idlePart, step]

/-! ## The board before the reschedule -/

section Board

variable {k : Xinu} {lists : Int → List Int}

theorem Becomes.on {later : Xinu} {sems : Sems} (becomes : Becomes later sems) :
    ∃ after, later.On after := by
  rcases becomes with ⟨after, settledAfter, rest⟩
  exact ⟨after, settledAfter.on⟩

theorem idlePart_on (settled : Settled k lists) {call : Call}
    (orderly : Orderly k (call, calm)) : ∃ after, (idlePart k call).kernel.On after :=
  Becomes.on (step_becomes settled orderly)

theorem sent_settled (settled : Settled k lists) {pid : Int} (good : ¬ isbadpid pid)
    (msg : BitVec 32) (phasmsg : BitVec 8) : Settled (sent k pid msg phasmsg) lists :=
  settled.mark pid { k.proctab pid with pmsg := msg, phasmsg := phasmsg } rfl rfl
    (fun _ => rfl) (isProc_of_good good).1

theorem sent_pstate (pid : Int) (msg : BitVec 32) (phasmsg : BitVec 8) :
    ((sent k pid msg phasmsg).proctab pid).pstate = (k.proctab pid).pstate := by
  simp [sent, Xinu.setEntry]

theorem on_of_receiver (settled : Settled k lists) {pid : Int} (good : ¬ isbadpid pid)
    (msg : BitVec 32) (phasmsg : BitVec 8) (receives : (k.proctab pid).pstate = .recv) :
    ∃ after, (readyNo (sent k pid msg phasmsg) pid).On after := by
  have homeless : home ((sent k pid msg phasmsg).proctab pid) = none := by
    simp [home, sent_pstate, receives]
  rcases readyNo_on (sent_settled settled good msg phasmsg).on (fun _ => homeless)
    with ⟨after, on, same⟩
  exact ⟨after, on⟩

theorem requeued_on (settled : Settled k lists) {pid : Int} (isProc : IsProc pid)
    (ready : (k.proctab pid).pstate = .ready) (newprio : BitVec 32) :
    ∃ after, Xinu.On { k.setEntry pid { k.proctab pid with pprio := newprio } with
      q := insert (dequeue k.q pid) pid rdyhead newprio } after := by
  rcases settled.on.find isProc (home_ready ready) with ⟨front, back, found⟩
  rcases Board.requeue settled.on { k.proctab pid with pprio := newprio } rdyhead_head found
    (settled.on.threaded.dequeue rdyhead_head found)
    (fun other _ _ => dequeue_qkey k.q pid other) ready with ⟨after, on, same⟩
  exact ⟨after, on⟩

/-- The board is in order when a call has done its part. -/
theorem part_on (settled : Settled k lists) {call : Call} (orderly : Orderly k (call, calm)) :
    ∃ after, (part k call).kernel.On after := by
  have idle := idlePart_on settled orderly
  have stays := orderly.1
  cases call with
  | resume pid =>
      simp only [part]
      split
      · exact idle
      · rename_i suspended
        simp only [not_or, not_not] at suspended
        have homeless : home (k.proctab pid) = none := by simp [home, suspended.2]
        rcases readyNo_on settled.on (fun _ => homeless) with ⟨after, on, same⟩
        exact ⟨after, on⟩
  | suspend pid =>
      simp only [part]
      split
      · rename_i current
        simp only [not_or] at current
        have same := settled.current (isProc_of_good current.1.1).1 current.2
        rw [same] at current ⊢
        exact ⟨lists, settled.retire .susp
          (fun entry suspended => by simp [home, suspended]) (by decide) current.1.2⟩
      · exact idle
  | chprio pid newprio =>
      simp only [part]
      split
      · exact idle
      · rename_i good
        have isProc := (isProc_of_good good).1
        split
        · rename_i ready
          exact requeued_on settled isProc ready newprio
        · rename_i notReady
          split
          · exact ⟨lists, (settled.mark pid { k.proctab pid with pprio := newprio } rfl rfl
              (fun ready => absurd ready notReady) isProc).on⟩
          · exact idle
  | killpid pid =>
      simp only [part]
      split
      · rename_i current
        have isProc := isProc_of_good current.1
        have same := settled.current isProc.1 current.2
        rw [same] at isProc ⊢
        exact ⟨lists, settled.retire .dead
          (fun entry dead => by simp [home, dead]) (by decide) isProc.2⟩
      · exact idle
  | wait sem =>
      simp only [part]
      split
      · rename_i blocks
        exact ⟨_, blocked_on settled (fun bad => blocks.1 (Or.inl bad))
          (fun null => stays null blocks)⟩
      · exact idle
  | xsignal sem =>
      simp only [part]
      split
      · rename_i signals
        exact Becomes.on
          (signalOnce_becomes settled (fun bad => signals.1 (Or.inl bad)))
      · exact idle
  | signaln sem count =>
      simp only [part]
      split
      · exact idle
      · rename_i valid
        exact Becomes.on (signalTimes_becomes
          (fun bad => valid (Or.inl (Or.inl bad))) count.toNat k lists settled)
  | sreset sem count =>
      simp only [part]
      split
      · exact idle
      · rename_i valid
        have good : ¬ isbadsem sem := fun bad => valid (Or.inl bad)
        have short := settled.on.threaded.length_le (sqhead_head good)
        rcases readyAll_settled good nqent k lists settled (by unfold nqent; omega)
          with ⟨after, settledAfter, same⟩
        exact ⟨after, settledAfter.on⟩
  | sdelete sem =>
      simp only [part]
      split
      · exact idle
      · rename_i valid
        have good : ¬ isbadsem sem := fun bad => valid (Or.inl (Or.inl bad))
        have short := settled.on.threaded.length_le (sqhead_head good)
        rcases readyAll_settled good nqent _ lists (settled.setSem sem _)
          (by unfold nqent; omega) with ⟨after, settledAfter, same⟩
        exact ⟨after, settledAfter.on⟩
  | sleep10 n =>
      simp only [part]
      split
      · exact idle
      · rename_i valid
        simp only [not_or, Bool.not_eq_false] at valid
        split
        · exact ⟨lists, settled.on⟩
        · rename_i nonzero
          have sleeps := @sleepOn_on k lists settled .sleep n (Or.inl rfl)
            (fun null => stays null ⟨nonzero, valid.1, valid.2⟩)
          rcases sleeps with ⟨after, on, same⟩
          exact ⟨after, on⟩
  | receive =>
      simp only [part]
      split
      · rename_i nothing
        exact ⟨lists, settled.retire .recv
          (fun entry receives => by simp [home, receives]) (by decide)
          (fun null => stays null nothing)⟩
      · exact idle
  | recvtim maxwait =>
      simp only [part]
      split
      · exact idle
      · rename_i valid
        simp only [not_or, Bool.not_eq_false, not_not] at valid
        have sleeps := @sleepOn_on k lists settled .trecv maxwait (Or.inr rfl)
          (fun null => stays null ⟨valid.2, valid.1.1, valid.1.2⟩)
        rcases sleeps with ⟨after, on, same⟩
        exact ⟨after, on⟩
  | xsend pid msg =>
      simp only [part]
      split
      · exact idle
      · rename_i valid
        simp only [not_or, not_not] at valid
        split
        · rename_i receives
          exact on_of_receiver settled valid.1 msg 1 receives
        · split
          · rename_i times
            have settledSent := sent_settled settled valid.1 msg 1
            rcases unsleep_spec settledSent.on valid.1
              (Or.inr ((sent_pstate pid msg 1).trans times)) with ⟨front, back, unslept⟩
            rcases unslept.ready settledSent.on valid.1 with ⟨after, on, same⟩
            exact ⟨after, on⟩
          · exact idle
  | sendf pid msg =>
      simp only [part]
      split
      · rename_i receives
        exact on_of_receiver settled receives.1 msg _ receives.2
      · exact idle
  | resched => exact ⟨lists, settled.on⟩
  | _ => exact idle

end Board

end MvsXinu.Kernel
