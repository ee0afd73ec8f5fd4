import MvsXinu.Lib.Mailboxes
import MvsXinu.Kernel.ProcessTable

/-!
# Messages between processes

A process that is blocked in `receive` or `recvtim` still has the end of the call before it,
where it takes the message; `inside` says who that is. Each message that `xsend` or `sendf`
accepts is posted into the mailbox of its target as a letter of its own.
-/

namespace MvsXinu.Kernel

open MvsXinu.Runs MvsXinu.Mailboxes

set_option autoImplicit false

def timeout : BitVec 32 := BitVec.ofInt 32 (-3)

/-- The call in which a process has been blocked. -/
inductive Receiving where
  | receive
  | recvtim
  deriving DecidableEq

structure Mail where
  kernel : Xinu
  inside : Int → Option Receiving
  boxes : Boxes Int (BitVec 32)

/-- What a receiving call returns: the message, or what it returns without one. -/
inductive Receipt where
  | message (msg : BitVec 32)
  | nothing (value : BitVec 32)

def Xinu.pending (k : Xinu) : Prop := (k.proctab k.currpid).phasmsg ≠ 0

instance (k : Xinu) : Decidable k.pending := inferInstanceAs (Decidable (_ ≠ _))

def Mail.take (m : Mail) : Mail where
  kernel := (received m.kernel).2
  inside := Function.update m.inside m.kernel.currpid none
  boxes := m.boxes.take m.kernel.currpid

/-- The current process makes a call; `received` is `recvclr`. -/
def Mail.calls (m : Mail) (event : Call × Scene) : Mail :=
  let next := { m with kernel := turn m.kernel event }
  match event.1 with
  | .receive =>
      if m.kernel.pending then m.take
      else { next with inside := Function.update m.inside m.kernel.currpid (some .receive) }
  | .recvtim maxwait =>
      if maxwait.slt 0 ∨ m.kernel.clkruns = false then next
      else if m.kernel.pending then m.take
      else { next with inside := Function.update m.inside m.kernel.currpid (some .recvtim) }
  | .received => m.take
  | .xsend pid msg =>
      if (xsend m.kernel event.2 pid msg).1 = ok then
        { next with boxes := m.boxes.post pid msg }
      else next
  | .sendf pid msg =>
      if (sendf m.kernel event.2 pid msg).1 = ok then
        { next with boxes := m.boxes.post pid msg }
      else next
  | .create stack priority =>
      let pid := (create m.kernel stack priority).1
      if pid = syserr then next
      else { next with inside := Function.update m.inside pid none, boxes := m.boxes.clear pid }
  | _ => next

/-- The timer exit runs beside the processes. A process inside a receiving call ends it. -/
def mailTurn (m : Mail) (event : Call × Scene) : Mail :=
  match event.1, m.inside m.kernel.currpid with
  | .timerPop, _ => { m with kernel := turn m.kernel event }
  | _, some _ => m.take
  | _, none => m.calls event

def Xinu.receipt (k : Xinu) (otherwise : BitVec 32) : Receipt :=
  if k.pending then .message (k.proctab k.currpid).pmsg else .nothing otherwise

/-- What the receiving call that ends in this turn returns. -/
def Mail.receipt (m : Mail) (event : Call × Scene) : Option Receipt :=
  match event.1, m.inside m.kernel.currpid with
  | .timerPop, _ => none
  | _, some .receive => some (.message (m.kernel.proctab m.kernel.currpid).pmsg)
  | _, some .recvtim => some (m.kernel.receipt timeout)
  | .receive, none => if m.kernel.pending then some (m.kernel.receipt timeout) else none
  | .recvtim maxwait, none =>
      if ¬ (maxwait.slt 0 ∨ m.kernel.clkruns = false) ∧ m.kernel.pending then
        some (m.kernel.receipt timeout)
      else none
  | .received, none => some (m.kernel.receipt 1)
  | _, none => none

/-- The turn is a call that sends the message and returns `OK`. -/
def Mail.accepts (m : Mail) (event : Call × Scene) (pid : Int) (msg : BitVec 32) : Prop :=
  m.inside m.kernel.currpid = none ∧
    ((event.1 = .xsend pid msg ∧ (xsend m.kernel event.2 pid msg).1 = ok) ∨
      (event.1 = .sendf pid msg ∧ (sendf m.kernel event.2 pid msg).1 = ok))

/-- The message in the box is lost: another is forced on the process, or the process is a
new one. -/
def Mail.replaces (m : Mail) (event : Call × Scene) (pid : Int) : Prop :=
  (∃ msg, event.1 = .sendf pid msg ∧ m.accepts event pid msg) ∨
    (m.inside m.kernel.currpid = none ∧ ∃ stack priority, event.1 = .create stack priority ∧
      (create m.kernel stack priority).1 = pid)

def Mail.receives (m : Mail) (event : Call × Scene) (pid : Int) : Prop :=
  m.kernel.currpid = pid ∧ (m.receipt event).isSome

/-- What a turn makes of the messages. -/
structure MessageLaw (m : Mail) (event : Call × Scene) : Prop where
  pending : ∀ pid msg, m.accepts event pid msg →
    ((mailTurn m event).kernel.proctab pid).phasmsg ≠ 0 ∧
    ((mailTurn m event).kernel.proctab pid).pmsg = msg ∧
    (mailTurn m event).boxes.slot pid = some { serial := m.boxes.posted, msg := msg }
  taken : ∀ msg, m.receipt event = some (.message msg) →
    ∃ letter, m.boxes.slot m.kernel.currpid = some letter ∧ letter.msg = msg ∧
      (mailTurn m event).boxes.slot m.kernel.currpid = none ∧
      (mailTurn m event).boxes.taken = m.boxes.taken ++ [letter]
  nothing : ∀ value, m.receipt event = some (.nothing value) →
    m.boxes.slot m.kernel.currpid = none
  kept : ∀ pid letter, m.boxes.slot pid = some letter →
    (mailTurn m event).boxes.slot pid = some letter ∨ m.replaces event pid ∨
      m.receives event pid
  once : ((mailTurn m event).boxes.taken.map Letter.serial).Nodup
  awake : ∀ pid, ((mailTurn m event).kernel.proctab pid).pstate = .recv ∨
      ((mailTurn m event).kernel.proctab pid).pstate = .trecv →
    ((mailTurn m event).kernel.proctab pid).phasmsg = 0 ∧
      (mailTurn m event).boxes.slot pid = none

/-- `sendf` finds nobody in `recvtim` and no full counter, and `ctci_write` wakes only
suspended processes. -/
def Deliverable (k : Xinu) : Call → Prop
  | .sendf pid _ => isbadpid pid ∨ (k.proctab pid).pstate = .free ∨
      ((k.proctab pid).pstate ≠ .trecv ∧ (k.proctab pid).phasmsg ≠ 255)
  | .ctciWrite device => isbadpid (k.pidsleep device) ∨
      (k.proctab (k.pidsleep device)).pstate = .susp
  | _ => True

def Delivering (m : Mail) (event : Call × Scene) : Prop :=
  Orderly m.kernel event ∧ Deliverable m.kernel event.1

def noMail : Mail where
  kernel := booted
  inside := fun _ => none
  boxes := emptyBoxes

instance (k : Xinu) (call : Call) : Decidable (Deliverable k call) := by
  apply Call.casesOn (motive := fun call => Decidable (Deliverable k call)) call <;>
    intros <;> dsimp only [Deliverable] <;> infer_instance

instance (m : Mail) (event : Call × Scene) : Decidable (Delivering m event) :=
  inferInstanceAs (Decidable (_ ∧ _))

/-! ## Entries whose messages stay -/

/-- Nothing happens to the messages of a process: it does not begin to wait for one, and
stops only when it is killed. -/
structure Unmailed (before after : Pentry) : Prop where
  phasmsg : after.phasmsg = before.phasmsg
  pmsg : after.pmsg = before.pmsg
  waits : after.pstate = .recv ∨ after.pstate = .trecv → after.pstate = before.pstate
  receives : before.pstate = .recv → after.pstate = .recv ∨ after.pstate = .free
  isFree : before.pstate = .free → after.pstate = .free

theorem Unmailed.refl (entry : Pentry) : Unmailed entry entry where
  phasmsg := rfl
  pmsg := rfl
  waits := fun _ => rfl
  receives := Or.inl
  isFree := id

theorem Roused.unmailed {before after : Pentry} (roused : Roused before after) :
    Unmailed before after := by
  constructor
  · exact roused.phasmsg
  · exact roused.pmsg
  · intro waits
    apply roused.idle_state
    rcases waits with receives | times
    · rw [receives]
      rfl
    · rw [times]
      rfl
  · intro receives
    left
    rw [roused.deaf_state (Or.inl (by rw [receives]; rfl)), receives]
  · intro isFree
    rw [roused.deaf_state (Or.inl (by rw [isFree]; rfl)), isFree]

theorem Unmailed.trans {first second third : Pentry} (before : Unmailed first second)
    (behind : Unmailed second third) : Unmailed first third where
  phasmsg := behind.phasmsg.trans before.phasmsg
  pmsg := behind.pmsg.trans before.pmsg
  waits := by
    intro waits
    have same := behind.waits waits
    rw [same] at waits ⊢
    exact before.waits waits
  receives := by
    intro receives
    rcases before.receives receives with still | killed
    · exact behind.receives still
    · exact Or.inr (behind.isFree killed)
  isFree := fun isFree => behind.isFree (before.isFree isFree)

/-- A process takes another state than those of the receivers. -/
theorem unmailed_update {table : Int → Pentry} {pid : Int} {entry : Pentry}
    (unmailed : Unmailed (table pid) entry) (other : Int) :
    Unmailed (table other) (Function.update table pid entry other) := by
  by_cases same : other = pid
  · rw [same, Function.update_self]
    exact unmailed
  · rw [Function.update_of_ne same]
    exact Unmailed.refl _

/-- Calls that are not about messages. -/
def Call.wordless : Call → Bool
  | .create _ _ | .receive | .recvtim _ | .received | .xsend _ _ | .sendf _ _ => false
  | _ => true

section Wordless

variable {k : Xinu} {lists : Int → List Int}

theorem edited_unmailed (settled : Settled k lists) {call : Call} (wordless : call.wordless = true)
    (deliverable : Deliverable k call) (pid : Int) :
    Unmailed (k.proctab pid) (edited k call pid) := by
  have running := settled.running
  unfold Xinu.Running at running
  have current : ∀ state psem, state ≠ .recv → state ≠ .trecv →
      Unmailed (k.proctab k.currpid)
        { k.proctab k.currpid with pstate := state, psem := psem } := by
    intro state psem notRecv notTrecv
    constructor
    · rfl
    · rfl
    · intro waits
      rcases waits with receives | times
      · exact absurd receives notRecv
      · exact absurd times notTrecv
    · intro receives
      rw [running] at receives
      cases receives
    · intro isFree
      rw [running] at isFree
      cases isFree
  cases call with
  | suspend target =>
      simp only [edited]
      split
      · exact Unmailed.refl _
      · rename_i valid
        simp only [not_or, not_and_or, not_not] at valid
        apply unmailed_update
        constructor
        · rfl
        · rfl
        · intro waits
          rcases waits with receives | times
          · cases receives
          · cases times
        · intro receives
          rw [receives] at valid
          rcases valid.2 with impossible | impossible
          · cases impossible
          · cases impossible
        · intro isFree
          rw [isFree] at valid
          rcases valid.2 with impossible | impossible
          · cases impossible
          · cases impossible
  | chprio target newprio =>
      simp only [edited]
      split
      · exact Unmailed.refl _
      · apply unmailed_update
        exact { phasmsg := rfl, pmsg := rfl, waits := fun _ => rfl, receives := Or.inl, isFree := id }
  | killpid target =>
      simp only [edited]
      split
      · exact Unmailed.refl _
      · rename_i valid
        simp only [not_or] at valid
        apply unmailed_update
        have killed : (if (k.proctab target).pstate = .curr then Pstate.dead else .free) ≠ .recv ∧
            (if (k.proctab target).pstate = .curr then Pstate.dead else .free) ≠ .trecv := by
          split
          · exact ⟨by decide, by decide⟩
          · exact ⟨by decide, by decide⟩
        constructor
        · rfl
        · rfl
        · intro waits
          rcases waits with receives | times
          · exact absurd receives killed.1
          · exact absurd times killed.2
        · intro receives
          right
          show (if (k.proctab target).pstate = .curr then Pstate.dead else .free) = .free
          rw [receives]
          rfl
        · intro isFree
          exact absurd isFree valid.2.1
  | wait sem =>
      simp only [edited]
      split
      · exact unmailed_update (current .wait sem (by decide) (by decide)) pid
      · exact Unmailed.refl _
  | sleep10 n =>
      simp only [edited]
      split
      · exact Unmailed.refl _
      · exact unmailed_update (current .sleep (k.proctab k.currpid).psem (by decide) (by decide)) pid
  | ctciWrite device =>
      simp only [edited]
      split
      · exact Unmailed.refl _
      · rename_i good
        have suspended := deliverable.resolve_left good
        apply unmailed_update
        constructor
        · rfl
        · rfl
        · intro waits
          rcases waits with receives | times
          · cases receives
          · cases times
        · intro receives
          rw [suspended] at receives
          cases receives
        · intro isFree
          rw [suspended] at isFree
          cases isFree
  | create _ _ => cases wordless
  | receive => cases wordless
  | recvtim _ => cases wordless
  | received => cases wordless
  | xsend _ _ => cases wordless
  | sendf _ _ => cases wordless
  | _ => exact Unmailed.refl _

end Wordless

end MvsXinu.Kernel
