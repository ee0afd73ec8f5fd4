import MvsXinu.Tcp.TimerCoverage

/-!
# Who gives the block of a closed connection back

The closer waits on `tcb_ocsem` for its FIN to be acknowledged and deallocates the block only
in LAST_ACK; elsewhere it is the DELETE timer that does, or the handler of a later segment.
The machine of `Machine.lean` is taken together with the signals of `tcb_ocsem` and the two
calls that wait on it, `tcpcon` and `tcpclose`.
-/

namespace MvsXinu.Tcp

open MvsXinu.SeqSpace

set_option autoImplicit false

inductive Closer where
  | none
  | waiting
  | returned
  deriving DecidableEq, Repr

/-- A connection with its `tcb_ocsem`: the number of the semaphore, the signals that nobody has
taken yet, whether `tcpcon` waits, and how far `tcpclose` is. -/
structure Tenure where
  conn : Conn
  ocsem : Int
  tokens : Nat := 0
  opener : Bool
  closer : Closer := .none

/-! ## Signals of `tcb_ocsem` -/

/-- `tcpwakeup` of the writers of a block in error. -/
def wakeupSignal (ocsem : Int) : Nat := if 0 < ocsem then 1 else 0

/-- The signals of the handler that `tcpswitch` calls. -/
def switchSignals (ocsem : Int) (conn : Conn) (inbound : Inbound) : Nat :=
  let segment := inbound.segment
  let ends := segment.code.rst || segment.code.syn
  let after := (tcpswitch conn inbound).tcb
  match conn.tcb.state with
  | .synsent => if after.state = .closed ∨ after.state = .established then 1 else 0
  | .synrcvd =>
      if segment.code.rst then if conn.tcb.passive then 0 else wakeupSignal ocsem
      else if segment.code.syn then wakeupSignal ocsem
      else if (tcpacked conn segment).1 = sysErr ∨ conn.tcb.passive then 0
      else 1
  | .established | .closewait | .finwait2 => if ends then wakeupSignal ocsem else 0
  | .finwait1 =>
      if ends then wakeupSignal ocsem
      else if after.state = .timewait ∨ after.state = .finwait2 then 1
      else 0
  | .lastack => if ends then wakeupSignal ocsem else if after.code.fin then 0 else 1
  | .closing => if ends then 0 else if after.code.fin then 0 else 1
  | _ => 0

def segmentSignals (ocsem : Int) (conn : Conn) (inbound : Inbound) : Nat :=
  if conn.tcb.state = .free then 0
  else
    let checked := tcpok conn.tcb inbound.segment
    if checked.1 then
      (tcpopts conn.tcb { inbound with segment := checked.2 }).elim 0 fun read =>
        switchSignals ocsem { conn with tcb := read.1 } read.2
    else 0

/-- The message that `tcpout` takes is the retransmission too many. -/
def Conn.timesOut (conn : Conn) : Bool :=
  match conn.oport with
  | (event, tcbnum) :: _ =>
      event == .retransmit && tcbnum == conn.tcbnum &&
        decide (TcpState.closed.number < conn.tcb.state.number) &&
        (conn.tcb.ostate == .xmit || conn.tcb.ostate == .rexmt) &&
        decide (tcpMaxretries ≤ conn.tcb.rexmtcount)
  | [] => false

/-- A writer that finds an error wakes the others. -/
def resumeSignals (ocsem : Int) (conn : Conn) (index : Nat) : Nat :=
  if (conn.writers[index]?).isSome ∧ conn.tcb.state ≠ .free ∧ conn.tcb.error.isSome then
    wakeupSignal ocsem
  else 0

/-! ## The calls that wait -/

inductive TenureEvent where
  | conn (event : Event)
  /-- `tcpcon` goes on behind `wait(ptcb->tcb_ocsem)`. -/
  | opened
  deriving Inhabited

/-- `wait(ptcb->tcb_ocsem)` returns: there is a signal, or the semaphore has been deleted. -/
def Tenure.released (s : Tenure) : Prop := 0 < s.tokens ∨ s.conn.tcb.state = .free

instance (s : Tenure) : Decidable s.released := inferInstanceAs (Decidable (_ ∨ _))

/-- The user knows the device when `tcpcon` has returned, so `tcpclose` comes behind it. A
second `tcpclose` is refused. -/
def tenureStep (s : Tenure) : TenureEvent → Tenure
  | .opened =>
      if s.opener ∧ s.released then
        { s with
          opener := false
          tokens := s.tokens - 1
          conn := if s.conn.tcb.error.isSome then tcbdealloc s.conn else s.conn }
      else s
  | .conn .close =>
      if s.closer = .none ∧ s.opener = false then
        let after := tcpclose s.conn
        { s with
          conn := after
          closer := if after.tcb.state = .finwait1 ∨ after.tcb.state = .lastack then .waiting
            else .none }
      else s
  | .conn .closeEnd =>
      if s.closer = .waiting ∧ s.released then
        { s with conn := tcpcloseend s.conn, tokens := s.tokens - 1, closer := .returned }
      else s
  | .conn (.segment inbound) =>
      { s with
        conn := connStep s.conn (.segment inbound)
        tokens := s.tokens + segmentSignals s.ocsem s.conn inbound }
  | .conn (.output fuel) =>
      { s with
        conn := connStep s.conn (.output fuel)
        tokens := s.tokens + if s.conn.timesOut then wakeupSignal s.ocsem else 0 }
  | .conn (.resume index) =>
      { s with
        conn := connStep s.conn (.resume index)
        tokens := s.tokens + resumeSignals s.ocsem s.conn index }
  | .conn event => { s with conn := connStep s.conn event }

def Tenure.ofOpened (conn : Conn) (ocsem : Int) : Tenure where
  conn := conn
  ocsem := ocsem
  opener := !conn.tcb.passive

/-- Once `tcpclose` has returned, the block is free, or a DELETE is on its way, or the peer is
waited for and no error is recorded. -/
def Tenure.Tended (s : Tenure) : Prop :=
  s.closer = .returned → s.conn.tcb.state = .free ∨ s.conn.Due .delete ∨
    (s.conn.tcb.state = .finwait2 ∨ s.conn.tcb.state = .closing) ∧ s.conn.tcb.error = none

/-- A reset or a timeout has left the block to nobody: no timer, no message and no closer. -/
def Tenure.Abandoned (s : Tenure) : Prop :=
  (s.conn.tcb.state = .finwait1 ∨ s.conn.tcb.state = .finwait2 ∨ s.conn.tcb.state = .closing ∨
    s.conn.tcb.state = .lastack) ∧ s.conn.tcb.error.isSome = true ∧
    (∀ event, ¬ s.conn.Due event) ∧ s.closer ≠ .waiting

/-- An acceptable segment with RST or SYN. -/
def Conn.resets (conn : Conn) (inbound : Inbound) : Bool :=
  let checked := tcpok conn.tcb inbound.segment
  checked.1 && (checked.2.code.rst || checked.2.code.syn)

/-- No reset in FIN_WAIT_1 and FIN_WAIT_2, and no last timeout there or in CLOSING. -/
def Spared (s : Tenure) : TenureEvent → Prop
  | .conn (.segment inbound) =>
      s.conn.tcb.state = .finwait1 ∨ s.conn.tcb.state = .finwait2 → s.conn.resets inbound = false
  | .conn (.output _) =>
      s.conn.tcb.state = .finwait1 ∨ s.conn.tcb.state = .finwait2 ∨
        s.conn.tcb.state = .closing → s.conn.timesOut = false
  | _ => True

/-! ## Steps that keep the state -/

/-- How the connection was opened, and its two ends. -/
structure Origin where
  passive : Bool
  lip : Word
  lport : BitVec 16
  rip : Word
  rport : BitVec 16
  deriving DecidableEq

def Tcb.origin (tcb : Tcb) : Origin where
  passive := tcb.passive
  lip := tcb.lip
  lport := tcb.lport
  rip := tcb.rip
  rport := tcb.rport

/-- The connection is in `state`; error, origin and a DELETE on its way are as before. -/
structure Carried (conn after : Conn) (state : TcpState) : Prop where
  state : after.tcb.state = state
  error : after.tcb.error = conn.tcb.error
  origin : after.tcb.origin = conn.tcb.origin
  delete : conn.Due .delete → after.Due .delete

abbrev Steady (conn after : Conn) : Prop := Carried conn after conn.tcb.state

section Carried

variable {conn middle after : Conn} {state : TcpState}

theorem Carried.passive (carried : Carried conn after state) :
    after.tcb.passive = conn.tcb.passive :=
  congrArg Origin.passive carried.origin

theorem Steady.refl (conn : Conn) : Steady conn conn := ⟨rfl, rfl, rfl, id⟩

theorem Carried.behind (moved : Carried middle after state) (steady : Steady conn middle) :
    Carried conn after state :=
  ⟨moved.state, moved.error.trans steady.error, moved.origin.trans steady.origin,
    fun due => moved.delete (steady.delete due)⟩

theorem Steady.trans (first : Steady conn middle) (second : Steady middle after) :
    Steady conn after := by
  have moved := second.behind first
  exact ⟨moved.state.trans first.state, moved.error, moved.origin, moved.delete⟩

theorem setTimer_steady (conn : Conn) (event : OutEvent) (time : Int) :
    Steady conn (conn.setTimer event time) :=
  ⟨rfl, rfl, rfl, setTimer_due conn event .delete time⟩

theorem clearTimer_steady (conn : Conn) {event : OutEvent} (other : OutEvent.delete ≠ event) :
    Steady conn (conn.clearTimer event) :=
  ⟨rfl, rfl, rfl, clearTimer_due conn event .delete other⟩

theorem killtimers_steady (conn : Conn) : Steady conn (tcpkilltimers conn) := by
  unfold tcpkilltimers
  refine Steady.trans (Steady.trans ?_ (clearTimer_steady _ (by decide)))
    (clearTimer_steady _ (by decide))
  exact clearTimer_steady conn (by decide)

theorem tcpkick_steady (conn : Conn) : Steady conn (tcpkick conn) := by
  refine ⟨?_, ?_, ?_, tcpkick_due conn .delete⟩
  · rw [tcpkick_tcb]
  · rw [tcpkick_tcb]
  · rw [tcpkick_tcb]

/-- Only the control block changes, and none of these fields. -/
theorem steady_of_tcb {tcb : Tcb} (state : tcb.state = conn.tcb.state)
    (error : tcb.error = conn.tcb.error) (origin : tcb.origin = conn.tcb.origin) :
    Steady conn { conn with tcb := tcb } :=
  ⟨state, error, origin, id⟩

theorem steady_of_sending {tcb : Tcb} (same : tcb.sending = conn.tcb.sending) :
    Steady conn { conn with tcb := tcb } := by
  apply steady_of_tcb
  · change tcb.sending.state = conn.tcb.sending.state
    rw [same]
  · change tcb.sending.error = conn.tcb.sending.error
    rw [same]
  · change tcb.sending.origin = conn.tcb.sending.origin
    rw [same]

theorem tcpwait_steady (conn : Conn) :
    Steady conn (tcpwait conn) ∧ (tcpwait conn).Due .delete := by
  unfold tcpwait
  have killed := killtimers_steady conn
  have set := setTimer_steady (tcpkilltimers conn) .delete tcpTwomsl
  have both := killed.trans set
  exact ⟨⟨both.state, both.error, both.origin, both.delete⟩,
    setTimer_sets (tcpkilltimers conn) .delete tcpTwomsl⟩

theorem tcpreset_steady (conn : Conn) (segment : Segment) : Steady conn (tcpreset conn segment) := by
  unfold tcpreset
  split
  · exact Steady.refl conn
  · exact ⟨rfl, rfl, rfl, id⟩

theorem tcpackit_steady (conn : Conn) (segment : Segment) : Steady conn (tcpackit conn segment) := by
  unfold tcpackit
  split
  · exact Steady.refl conn
  · split
    · exact Steady.refl conn
    · have window := steady_of_sending (tcprwindow_sending conn.tcb)
      exact ⟨window.state, window.error, window.origin, id⟩

theorem tcprtt_steady (conn : Conn) : Steady conn (tcprtt conn) := by
  have cleared : Steady conn (conn.clearTimer .retransmit) := clearTimer_steady conn (by decide)
  unfold tcprtt
  dsimp only
  split
  · exact ⟨rfl, rfl, rfl, cleared.delete⟩
  · split
    · exact ⟨rfl, rfl, rfl, cleared.delete⟩
    · exact ⟨rfl, rfl, rfl, cleared.delete⟩

theorem tcpostate_steady (conn : Conn) (acked : Int) : Steady conn (tcpostate conn acked) := by
  unfold tcpostate
  dsimp only
  split
  · exact Steady.refl conn
  · generalize isResumed : (if conn.tcb.ostate = .rexmt then _ else conn) = resumed
    have steady : Steady conn resumed := by
      rw [← isResumed]
      split
      · exact ⟨rfl, rfl, rfl, id⟩
      · exact Steady.refl conn
    split
    · exact steady.trans ⟨rfl, rfl, rfl, id⟩
    · exact steady.trans (tcpkick_steady resumed)

theorem tcpacked_steady (conn : Conn) (segment : Segment) :
    Steady conn (tcpacked conn segment).2 := by
  have looked : Steady conn (conn.look segment) := ⟨rfl, rfl, rfl, id⟩
  unfold tcpacked
  split
  · exact Steady.refl conn
  · dsimp only
    split
    · exact looked
    · split
      · dsimp only
        split
        · exact looked.trans (tcpreset_steady (conn.look segment) segment)
        · exact looked.trans (tcpackit_steady (conn.look segment) segment)
      · have accepted : Steady (tcprtt (conn.look segment))
            ((conn.look segment).accept segment.ack) := ⟨rfl, rfl, rfl, id⟩
        have rtt := tcprtt_steady (conn.look segment)
        exact (looked.trans (rtt.trans accepted)).trans (tcpostate_steady _ _)

theorem tcpswindow_steady (conn : Conn) (segment : Segment) :
    Steady conn (tcpswindow conn segment) := by
  unfold tcpswindow
  split
  · exact Steady.refl conn
  · split
    · exact Steady.refl conn
    · dsimp only
      split
      · exact ⟨rfl, rfl, rfl, id⟩
      · split
        · refine Steady.trans ?_ (tcpkick_steady _)
          exact ⟨rfl, rfl, rfl, clearTimer_due conn .persist .delete (by decide)⟩
        · refine Steady.trans ?_ (tcpkick_steady _)
          exact ⟨rfl, rfl, rfl, id⟩

theorem tcpdeliver_steady (conn : Conn) (inbound : Inbound) :
    Steady conn (tcpdeliver conn inbound) := by
  have delivered : Steady conn
      { conn with tcb := tcpdata conn.tcb inbound.segment inbound.newqOk } :=
    steady_of_sending (tcpdata_sending conn.tcb inbound.segment inbound.newqOk)
  unfold tcpdeliver
  dsimp only
  split
  · exact delivered.trans (tcpkick_steady _)
  · exact delivered

theorem handled_steady (conn : Conn) (inbound : Inbound) :
    Steady conn (tcpswindow (tcpdeliver (tcpacked conn inbound.segment).2 inbound)
      inbound.segment) :=
  ((tcpacked_steady conn inbound.segment).trans (tcpdeliver_steady _ inbound)).trans
    (tcpswindow_steady _ inbound.segment)

/-- The state that a handler enters. -/
theorem enter_carried (steady : Steady conn middle) (state : TcpState) :
    Carried conn (middle.enter state) state :=
  ⟨rfl, steady.error, steady.origin, steady.delete⟩

/-- TIME_WAIT is entered with its DELETE timer. -/
theorem wait_carried (steady : Steady conn middle) :
    Carried conn (tcpwait (middle.enter .timewait)) .timewait ∧
      (tcpwait (middle.enter .timewait)).Due .delete := by
  have entered := enter_carried steady .timewait
  have waited := tcpwait_steady (middle.enter .timewait)
  exact ⟨⟨waited.1.state, waited.1.error.trans entered.error, waited.1.origin.trans entered.origin,
    fun due => waited.1.delete (entered.delete due)⟩, waited.2⟩

end Carried

/-! ## What one step does to the block -/

/-- `tcpabort`: the state stays, an error is recorded. -/
structure Failed (conn after : Conn) : Prop where
  state : after.tcb.state = conn.tcb.state
  error : after.tcb.error.isSome = true
  origin : after.tcb.origin = conn.tcb.origin
  delete : conn.Due .delete → after.Due .delete

theorem Failed.passive {conn after : Conn} (failed : Failed conn after) :
    after.tcb.passive = conn.tcb.passive :=
  congrArg Origin.passive failed.origin

theorem tcpabort_failed (conn : Conn) (error : TcpError) : Failed conn (tcpabort conn error) := by
  have killed := killtimers_steady conn
  exact ⟨killed.state, rfl, killed.origin, killed.delete⟩

theorem Failed.behind {conn middle after : Conn} (failed : Failed middle after)
    (steady : Steady conn middle) : Failed conn after :=
  ⟨failed.state.trans steady.state, failed.error, failed.origin.trans steady.origin,
    fun due => failed.delete (steady.delete due)⟩

/-- The changes of the block, with the number of signals of `tcb_ocsem`. -/
inductive Turn (conn after : Conn) : Nat → Prop where
  | steady {signals : Nat} (steady : Steady conn after)
      (awaited : signals = 0 ∨ conn.tcb.state = .lastack ∨ conn.tcb.error.isSome = true) :
      Turn conn after signals
  | failed {signals : Nat} (failed : Failed conn after)
      (other : conn.tcb.state ≠ .finwait1 ∧ conn.tcb.state ≠ .finwait2 ∧
        conn.tcb.state ≠ .closing) : Turn conn after signals
  | freed {signals : Nat} (freed : after.tcb.state = .free) : Turn conn after signals
  /-- The SYN was refused, or had been before. -/
  | closed {signals : Nat} (found : conn.tcb.state = .closed ∨ conn.tcb.state = .synsent)
      (closed : after.tcb.state = .closed) : Turn conn after signals
  | synrcvd (found : conn.tcb.state = .synsent) (moved : Carried conn after .synrcvd) :
      Turn conn after 0
  | opened (found : conn.tcb.state = .synsent ∨ conn.tcb.state = .synrcvd) {state : TcpState}
      (moved : Carried conn after state) (opens : state = .established ∨ state = .closewait)
      {signals : Nat} (one : signals = if conn.tcb.passive then 0 else 1) : Turn conn after signals
  | closewait (found : conn.tcb.state = .established) (moved : Carried conn after .closewait) :
      Turn conn after 0
  | finwait2 {signals : Nat} (found : conn.tcb.state = .finwait1)
      (moved : Carried conn after .finwait2) : Turn conn after signals
  | closing (found : conn.tcb.state = .finwait1) (moved : Carried conn after .closing) :
      Turn conn after 0
  | timewait {signals : Nat} (found : conn.tcb.state = .finwait1 ∨ conn.tcb.state = .finwait2 ∨
      conn.tcb.state = .closing ∨ conn.tcb.state = .timewait)
      (moved : Carried conn after .timewait) (due : after.Due .delete) : Turn conn after signals

theorem Turn.refl (conn : Conn) : Turn conn conn 0 := Turn.steady (Steady.refl conn) (Or.inl rfl)

section Output

variable {conn after : Conn}

theorem tcpsend_steady (conn : Conn) (rexmt : Bool) : Steady conn (tcpsend conn rexmt) := by
  have sent : Steady conn
      { conn with
        tcb := tcpsent conn.tcb rexmt
        trace := { conn.trace with sends := conn.trace.sends ++ [(conn.tcb, rexmt)] } } := by
    have core := tcpsent_core conn.tcb rexmt
    have view := tcpsent_view conn.tcb rexmt
    refine ⟨congrArg Core.state core, view.2.2.1, ?_, id⟩
    unfold tcpsent tcprwindow
    dsimp only
    split <;> rfl
  unfold tcpsend
  dsimp only
  split
  · exact sent.trans (tcpwait_steady _).1
  · exact sent

theorem startTimer_steady (conn : Conn) : Steady conn conn.startTimer := by
  unfold Conn.startTimer
  split
  · exact setTimer_steady conn .retransmit _
  · exact Steady.refl conn

theorem tcpxmitloop_steady (window : Int) (fuel : Nat) (conn after : Conn)
    (ended : tcpxmitloop window fuel conn = some after) : Steady conn after := by
  induction fuel generalizing conn with
  | zero => simp [tcpxmitloop] at ended
  | succ fuel ih =>
      unfold tcpxmitloop at ended
      split at ended
      · exact (tcpsend_steady conn false).trans (ih _ ended)
      · rw [← Option.some.inj ended]
        exact Steady.refl conn

theorem tcpxmitidle_steady (conn : Conn) : Steady conn (tcpxmitidle conn) := by
  have sent : Steady conn (if conn.tcb.flags.needout then tcpsend conn false else conn) := by
    split
    · exact tcpsend_steady conn false
    · exact Steady.refl conn
  generalize isNext : (if conn.tcb.flags.needout then tcpsend conn false else conn) = next at sent
  unfold tcpxmitidle
  dsimp only
  rw [isNext]
  split
  · exact sent
  · exact sent.trans (startTimer_steady next)

theorem tcpxmitshut_steady (conn : Conn) : Steady conn (tcpxmitshut conn) := by
  unfold tcpxmitshut
  refine Steady.trans (Steady.trans ?_ (tcpsend_steady _ false)) (setTimer_steady _ .persist _)
  exact ⟨rfl, rfl, rfl, id⟩

theorem tcppersist_steady (conn : Conn) (event : OutEvent) :
    Steady conn (tcppersist conn event) := by
  unfold tcppersist
  split
  · exact Steady.refl conn
  · have sent := tcpsend_steady conn true
    refine Steady.trans (Steady.trans sent ?_) (setTimer_steady _ .persist _)
    exact ⟨rfl, rfl, rfl, id⟩

def Conn.counted (conn : Conn) : Conn :=
  { conn with tcb := { conn.tcb with rexmtcount := conn.tcb.rexmtcount + 1 } }

theorem counted_steady (conn : Conn) : Steady conn conn.counted := ⟨rfl, rfl, rfl, id⟩

/-- The last retransmission has not been acknowledged. -/
theorem tcprexmt_failed (last : tcpMaxretries ≤ conn.tcb.rexmtcount) :
    Failed conn (tcprexmt conn .retransmit) := by
  have many : tcpMaxretries < conn.tcb.rexmtcount + 1 := Nat.lt_succ_of_le last
  have spec : tcprexmt conn .retransmit = tcpabort conn.counted .timedout := by
    unfold tcprexmt
    rw [if_neg (fun different => different rfl)]
    exact if_pos many
  rw [spec]
  exact (tcpabort_failed conn.counted .timedout).behind (counted_steady conn)

theorem tcprexmt_steady (more : ¬ tcpMaxretries ≤ conn.tcb.rexmtcount) :
    Steady conn (tcprexmt conn .retransmit) := by
  have few : ¬ tcpMaxretries < conn.tcb.rexmtcount + 1 := fun last =>
    more (Nat.le_of_lt_succ last)
  have sent := (counted_steady conn).trans (tcpsend_steady conn.counted true)
  unfold tcprexmt
  rw [if_neg (fun different => different rfl)]
  dsimp only
  rw [if_neg few]
  exact ⟨sent.state, sent.error, sent.origin, fun due =>
    setTimer_due (tcpsend conn.counted true) .retransmit .delete _ (sent.delete due)⟩

/-- The timer of the last retransmission has run down. -/
def Conn.Last (conn : Conn) (event : OutEvent) : Prop :=
  event = .retransmit ∧ tcpMaxretries ≤ conn.tcb.rexmtcount

theorem tcpxmit_turn {fuel : Nat} {event : OutEvent}
    (ended : tcpxmit fuel conn event = some after) :
    Steady conn after ∧ ¬ conn.Last event ∨ Failed conn after ∧ conn.Last event := by
  unfold tcpxmit at ended
  split at ended
  · next isRexmt =>
      rw [isRexmt, Option.some.injEq] at ended
      have cleared : Steady conn (conn.clearTimer .send) := clearTimer_steady conn (by decide)
      by_cases last : tcpMaxretries ≤ (conn.clearTimer .send).tcb.rexmtcount
      · right
        have failed := (tcprexmt_failed last).behind cleared
        rw [← ended]
        exact ⟨⟨failed.state, failed.error, failed.origin, failed.delete⟩, isRexmt, last⟩
      · left
        have steady := cleared.trans (tcprexmt_steady last)
        rw [← ended]
        exact ⟨⟨steady.state, steady.error, steady.origin, steady.delete⟩,
          fun both => last both.2⟩
  · next other =>
      left
      refine ⟨?_, fun both => other both.1⟩
      split at ended
      · rw [← Option.some.inj ended]
        exact tcpxmitidle_steady conn
      · split at ended
        · rw [← Option.some.inj ended]
          exact tcpxmitshut_steady conn
        · obtain ⟨looped, isLooped, isAfter⟩ := Option.map_eq_some_iff.mp ended
          have loop := tcpxmitloop_steady _ fuel _ looped isLooped
          have both := loop.trans (startTimer_steady looped)
          rw [← isAfter]
          exact ⟨both.state, both.error, both.origin, both.delete⟩

/-- The output states that take retransmission timers. -/
def Conn.Sending (conn : Conn) : Prop := conn.tcb.ostate = .xmit ∨ conn.tcb.ostate = .rexmt

/-- A message other than a DELETE. -/
theorem tcposwitch_turn {fuel : Nat} {event : OutEvent}
    (ended : tcposwitch fuel conn event = some after) :
    Steady conn after ∧ ¬ (conn.Last event ∧ conn.Sending) ∨
      Failed conn after ∧ conn.Last event ∧ conn.Sending := by
  unfold tcposwitch at ended
  split at ended
  · next isIdle =>
      have quiet : ¬ conn.Sending := by
        unfold Conn.Sending
        rw [isIdle]
        decide
      left
      refine ⟨?_, fun both => quiet both.2⟩
      unfold tcpidle at ended
      split at ended
      · next isSend =>
          rcases tcpxmit_turn ended with steady | failed
          · exact steady.1
          · rw [isSend] at failed
            exact absurd failed.2.1 (by decide)
      · rw [← Option.some.inj ended]
        exact Steady.refl conn
  · next isPersist =>
      have quiet : ¬ conn.Sending := by
        unfold Conn.Sending
        rw [isPersist]
        decide
      left
      rw [← Option.some.inj ended]
      exact ⟨tcppersist_steady conn event, fun both => quiet both.2⟩
  · next isXmit =>
      rcases tcpxmit_turn ended with steady | failed
      · exact Or.inl ⟨steady.1, fun both => steady.2 both.1⟩
      · exact Or.inr ⟨failed.1, failed.2, Or.inl isXmit⟩
  · next isRexmt =>
      have isAfter := Option.some.inj ended
      by_cases rexmt : event = .retransmit
      · rw [rexmt] at isAfter
        by_cases last : tcpMaxretries ≤ conn.tcb.rexmtcount
        · right
          rw [← isAfter]
          exact ⟨tcprexmt_failed last, ⟨rexmt, last⟩, Or.inr isRexmt⟩
        · left
          rw [← isAfter]
          exact ⟨tcprexmt_steady last, fun both => last both.1.2⟩
      · left
        rw [← isAfter]
        refine ⟨?_, fun both => rexmt both.1.1⟩
        unfold tcprexmt
        rw [if_pos rexmt]
        exact Steady.refl conn

theorem timesOut_iff {event : OutEvent} {tcbnum : Nat} {rest : List (OutEvent × Nat)}
    (queue : conn.oport = (event, tcbnum) :: rest) : conn.timesOut = true ↔
      tcbnum = conn.tcbnum ∧ TcpState.closed.number < conn.tcb.state.number ∧
        conn.Last event ∧ conn.Sending := by
  unfold Conn.timesOut Conn.Last Conn.Sending
  rw [queue]
  simp only [Bool.and_eq_true, beq_iff_eq, Bool.or_eq_true, decide_eq_true_eq]
  tauto

/-- The handler of the last timeout ends. -/
theorem timesOut_ends (fuel : Nat) (last : conn.timesOut = true) : tcpout fuel conn ≠ none := by
  cases queue : conn.oport with
  | nil =>
      unfold Conn.timesOut at last
      rw [queue] at last
      cases last
  | cons message rest =>
      obtain ⟨event, tcbnum⟩ := message
      obtain ⟨same, isOpen, ⟨rfl, _⟩, sending⟩ := (timesOut_iff queue).mp last
      unfold tcpout
      rw [queue]
      dsimp only
      rw [if_neg (fun other => other same), if_neg (Nat.not_le.mpr isOpen), if_neg (by decide)]
      unfold tcposwitch
      dsimp only
      rcases sending with isXmit | isRexmt
      · rw [isXmit]
        dsimp only
        unfold tcpxmit
        rw [if_pos rfl]
        simp
      · rw [isRexmt]
        simp

/-- One turn of `tcpout`. -/
theorem output_turn (fuel : Nat) {signals : Nat}
    (spared : conn.tcb.state = .finwait1 ∨ conn.tcb.state = .finwait2 ∨
      conn.tcb.state = .closing → conn.timesOut = false)
    (none : conn.timesOut = false → signals = 0) :
    Turn conn (connStep conn (.output fuel)) signals := by
  change Turn conn ((tcpout fuel conn).getD conn) signals
  cases ended : tcpout fuel conn with
  | none =>
      have quiet : conn.timesOut = false := by
        cases last : conn.timesOut with
        | false => rfl
        | true => exact absurd ended (timesOut_ends fuel last)
      rw [none quiet]
      exact Turn.refl conn
  | some after =>
      change Turn conn after signals
      unfold tcpout at ended
      split at ended
      · next isEmpty =>
          have quiet : conn.timesOut = false := by
            unfold Conn.timesOut
            rw [isEmpty]
          rw [← Option.some.inj ended, none quiet]
          exact Turn.refl conn
      · next event tcbnum rest queue =>
          dsimp only at ended
          split at ended
          · next other =>
              have quiet : conn.timesOut = false := by
                apply Bool.eq_false_iff.mpr
                intro last
                exact other ((timesOut_iff queue).mp last).1
              rw [← Option.some.inj ended, none quiet]
              have different : (OutEvent.delete, conn.tcbnum) ≠ (event, tcbnum) :=
                fun same => other (congrArg Prod.snd same).symm
              exact Turn.steady ⟨rfl, rfl, rfl, dequeue_due conn queue different⟩ (Or.inl rfl)
          · next ours =>
            split at ended
            · next early =>
                rw [← Option.some.inj ended]
                cases found : conn.tcb.state with
                | free => exact Turn.freed found
                | closed => exact Turn.closed (Or.inl found) found
                | _ =>
                    rw [found] at early
                    exact absurd early (by decide)
            · next isOpen =>
                split at ended
                · rw [← Option.some.inj ended]
                  exact Turn.freed (tcbdealloc_state _)
                · next notDelete =>
                    have different : (OutEvent.delete, conn.tcbnum) ≠ (event, tcbnum) :=
                      fun same => notDelete (congrArg Prod.fst same).symm
                    have taken : Steady conn { conn with oport := rest } :=
                      ⟨rfl, rfl, rfl, dequeue_due conn queue different⟩
                    rcases tcposwitch_turn ended with ⟨steady, early⟩ | ⟨failed, last, sending⟩
                    · have quiet : conn.timesOut = false := by
                        apply Bool.eq_false_iff.mpr
                        intro last
                        exact early ((timesOut_iff queue).mp last).2.2
                      rw [none quiet]
                      exact Turn.steady (taken.trans steady) (Or.inl rfl)
                    · have timedOut : conn.timesOut = true :=
                        (timesOut_iff queue).mpr
                          ⟨not_not.mp ours, Nat.not_le.mp isOpen, last, sending⟩
                      refine Turn.failed (failed.behind taken) ⟨?_, ?_, ?_⟩
                      · intro found
                        rw [spared (Or.inl found)] at timedOut
                        cases timedOut
                      · intro found
                        rw [spared (Or.inr (Or.inl found))] at timedOut
                        cases timedOut
                      · intro found
                        rw [spared (Or.inr (Or.inr found))] at timedOut
                        cases timedOut

end Output

section Input

variable {conn : Conn} {inbound : Inbound}

/-- RST or SYN in a state that aborts on them. -/
theorem aborts_failed (conn rest : Conn) (segment : Segment)
    (ends : (segment.code.rst || segment.code.syn) = true) :
    Failed conn ((tcpaborts conn segment).getD rest) := by
  unfold tcpaborts
  split
  · exact tcpabort_failed conn .reset
  · next noRst =>
      have syn : segment.code.syn = true := by
        rcases Bool.or_eq_true_iff.mp ends with rst | syn
        · exact absurd rst noRst
        · exact syn
      rw [if_pos syn]
      exact (tcpabort_failed _ .reset).behind (tcpreset_steady conn segment)

theorem no_ends {segment : Segment} (plain : (segment.code.rst || segment.code.syn) = false) :
    segment.code.rst = false ∧ segment.code.syn = false := by
  simpa using plain

theorem aborts_none (conn rest : Conn) (segment : Segment)
    (plain : (segment.code.rst || segment.code.syn) = false) :
    (tcpaborts conn segment).getD rest = rest := by
  obtain ⟨rst, syn⟩ := no_ends plain
  unfold tcpaborts
  rw [rst, syn]
  rfl

theorem frees_free (conn rest : Conn) (segment : Segment)
    (ends : (segment.code.rst || segment.code.syn) = true) :
    ((tcpfrees conn segment).getD rest).tcb.state = .free := by
  unfold tcpfrees
  split
  · exact tcbdealloc_state conn
  · next noRst =>
      have syn : segment.code.syn = true := by
        rcases Bool.or_eq_true_iff.mp ends with rst | syn
        · exact absurd rst noRst
        · exact syn
      rw [if_pos syn]
      exact tcbdealloc_state _

theorem frees_none (conn rest : Conn) (segment : Segment)
    (plain : (segment.code.rst || segment.code.syn) = false) :
    (tcpfrees conn segment).getD rest = rest := by
  obtain ⟨rst, syn⟩ := no_ends plain
  unfold tcpfrees
  rw [rst, syn]
  rfl

theorem synsent_turn (found : conn.tcb.state = .synsent) (active : conn.tcb.passive = false) :
    Turn conn (tcpsynsent conn inbound) (if (tcpsynsent conn inbound).tcb.state = .closed ∨
      (tcpsynsent conn inbound).tcb.state = .established then 1 else 0) := by
  have quiet : ∀ after, Steady conn after → Turn conn after
      (if after.tcb.state = .closed ∨ after.tcb.state = .established then 1 else 0) := by
    intro after steady
    rw [steady.state, found]
    exact Turn.steady steady (Or.inl rfl)
  unfold tcpsynsent
  dsimp only
  split
  · exact quiet _ (tcpreset_steady conn inbound.segment)
  · split
    · exact Turn.closed (Or.inr found) rfl
    · split
      · exact quiet conn (Steady.refl conn)
      · generalize isTaken : tcpdeliver (tcpacked _ inbound.segment).2 inbound = taken
        have steady : Steady conn taken := by
          rw [← isTaken]
          refine Steady.trans (Steady.trans ?_ (tcpacked_steady _ inbound.segment))
            (tcpdeliver_steady _ inbound)
          exact ⟨rfl, rfl, rfl, id⟩
        split
        · exact Turn.synrcvd found (enter_carried steady .synrcvd)
        · apply Turn.opened (Or.inl found) (enter_carried steady .established) (Or.inl rfl)
          rw [active]
          rfl

theorem tcpsynopened_turn {middle : Conn} (found : conn.tcb.state = .synrcvd)
    (steady : Steady conn middle) {signals : Nat}
    (one : signals = if conn.tcb.passive then 0 else 1) :
    Turn conn (tcpsynopened middle inbound) signals := by
  have delivered := tcpdeliver_steady (middle.enter .established) inbound
  have moved := enter_carried steady .established
  have opened : Carried conn (tcpdeliver (middle.enter .established) inbound) .established :=
    ⟨delivered.state, delivered.error.trans moved.error, delivered.origin.trans moved.origin,
      fun due => delivered.delete (moved.delete due)⟩
  have closed : Carried conn ((tcpdeliver (middle.enter .established) inbound).enter .closewait)
      .closewait := ⟨rfl, opened.error, opened.origin, opened.delete⟩
  unfold tcpsynopened
  dsimp only
  split
  · exact Turn.opened (Or.inr found) closed (Or.inr rfl) one
  · exact Turn.opened (Or.inr found) opened (Or.inl rfl) one

theorem synrcvd_turn (ocsem : Int) (found : conn.tcb.state = .synrcvd) :
    Turn conn (tcpsynrcvd conn inbound)
      (if inbound.segment.code.rst then if conn.tcb.passive then 0 else wakeupSignal ocsem
        else if inbound.segment.code.syn then wakeupSignal ocsem
        else if (tcpacked conn inbound.segment).1 = sysErr ∨ conn.tcb.passive then 0
        else 1) := by
  have others : conn.tcb.state ≠ .finwait1 ∧ conn.tcb.state ≠ .finwait2 ∧
      conn.tcb.state ≠ .closing := by
    rw [found]
    decide
  have acked := tcpacked_steady conn inbound.segment
  unfold tcpsynrcvd
  dsimp only
  split
  · split
    · exact Turn.freed (tcbdealloc_state conn)
    · exact Turn.failed (tcpabort_failed conn .refused) others
  · split
    · exact Turn.failed ((tcpabort_failed _ .reset).behind
        (tcpreset_steady conn inbound.segment)) others
    · split
      · next isErr =>
          rw [if_pos (Or.inl isErr)]
          exact Turn.steady acked (Or.inl rfl)
      · next noErr =>
          split
          · exact Turn.freed (tcbdealloc_state _)
          · apply tcpsynopened_turn found acked
            cases origin : conn.tcb.passive with
            | true => exact if_pos (Or.inr rfl)
            | false =>
                apply if_neg
                rintro (isErr | impossible)
                · exact noErr isErr
                · cases impossible

theorem established_turn (ocsem : Int) (found : conn.tcb.state = .established) :
    Turn conn (tcpestablished conn inbound)
      (if (inbound.segment.code.rst || inbound.segment.code.syn) = true then wakeupSignal ocsem
        else 0) := by
  unfold tcpestablished
  split
  · next ends =>
      exact Turn.failed (aborts_failed conn _ inbound.segment ends) (by rw [found]; decide)
  · next plain =>
      rw [aborts_none conn _ inbound.segment (Bool.eq_false_iff.mpr plain)]
      dsimp only
      split
      · exact Turn.steady (tcpacked_steady conn inbound.segment) (Or.inl rfl)
      · split
        · exact Turn.closewait found (enter_carried (handled_steady conn inbound) .closewait)
        · exact Turn.steady (handled_steady conn inbound) (Or.inl rfl)

theorem closewait_turn (ocsem : Int) (found : conn.tcb.state = .closewait) :
    Turn conn (tcpclosewait conn inbound)
      (if (inbound.segment.code.rst || inbound.segment.code.syn) = true then wakeupSignal ocsem
        else 0) := by
  unfold tcpclosewait
  split
  · next ends =>
      exact Turn.failed (aborts_failed conn _ inbound.segment ends) (by rw [found]; decide)
  · next plain =>
      rw [aborts_none conn _ inbound.segment (Bool.eq_false_iff.mpr plain)]
      exact Turn.steady ((tcpacked_steady conn inbound.segment).trans
        (tcpswindow_steady _ inbound.segment)) (Or.inl rfl)

theorem finwait1_turn (found : conn.tcb.state = .finwait1)
    (plain : (inbound.segment.code.rst || inbound.segment.code.syn) = false) :
    Turn conn (tcpfin1 conn inbound) (if (tcpfin1 conn inbound).tcb.state = .timewait ∨
      (tcpfin1 conn inbound).tcb.state = .finwait2 then 1 else 0) := by
  have quiet : ∀ after, Steady conn after → Turn conn after
      (if after.tcb.state = .timewait ∨ after.tcb.state = .finwait2 then 1 else 0) := by
    intro after steady
    rw [steady.state, found]
    exact Turn.steady steady (Or.inl rfl)
  have handled := handled_steady conn inbound
  unfold tcpfin1
  rw [aborts_none conn _ inbound.segment plain]
  dsimp only
  split
  · exact quiet _ (tcpacked_steady conn inbound.segment)
  · split
    · split
      · exact Turn.closing found (enter_carried handled .closing)
      · have waited := wait_carried handled
        exact Turn.timewait (Or.inl found) waited.1 waited.2
    · split
      · exact quiet _ handled
      · exact Turn.finwait2 found (enter_carried handled .finwait2)

theorem finwait2_turn (found : conn.tcb.state = .finwait2)
    (plain : (inbound.segment.code.rst || inbound.segment.code.syn) = false) :
    Turn conn (tcpfin2 conn inbound) 0 := by
  have acked := tcpacked_steady conn inbound.segment
  have delivered := acked.trans (tcpdeliver_steady _ inbound)
  unfold tcpfin2
  rw [aborts_none conn _ inbound.segment plain]
  dsimp only
  split
  · exact Turn.steady acked (Or.inl rfl)
  · split
    · have waited := wait_carried delivered
      exact Turn.timewait (Or.inr (Or.inl found)) waited.1 waited.2
    · exact Turn.steady delivered (Or.inl rfl)

theorem lastack_turn (found : conn.tcb.state = .lastack) (signals : Nat) :
    Turn conn (tcplastack conn inbound) signals := by
  unfold tcplastack
  cases ends : inbound.segment.code.rst || inbound.segment.code.syn with
  | true => exact Turn.failed (aborts_failed conn _ inbound.segment ends) (by rw [found]; decide)
  | false =>
      rw [aborts_none conn _ inbound.segment ends]
      exact Turn.steady (tcpacked_steady conn inbound.segment) (Or.inr (Or.inl found))

theorem closing_turn (found : conn.tcb.state = .closing) :
    Turn conn (tcpclosing conn inbound)
      (if (inbound.segment.code.rst || inbound.segment.code.syn) = true then 0
        else if (tcpclosing conn inbound).tcb.code.fin then 0 else 1) := by
  have acked := tcpacked_steady conn inbound.segment
  split
  · next ends =>
      unfold tcpclosing
      exact Turn.freed (frees_free conn _ inbound.segment ends)
  · next plain =>
      unfold tcpclosing
      rw [frees_none conn _ inbound.segment (Bool.eq_false_iff.mpr plain)]
      dsimp only
      split
      · exact Turn.steady acked (Or.inl rfl)
      · have waited := wait_carried acked
        exact Turn.timewait (Or.inr (Or.inr (Or.inl found))) waited.1 waited.2

theorem timewait_turn (found : conn.tcb.state = .timewait) :
    Turn conn (tcptimewait conn inbound) 0 := by
  unfold tcptimewait
  cases ends : inbound.segment.code.rst || inbound.segment.code.syn with
  | true => exact Turn.freed (frees_free conn _ inbound.segment ends)
  | false =>
      rw [frees_none conn _ inbound.segment ends]
      have delivered := (tcpacked_steady conn inbound.segment).trans (tcpdeliver_steady _ inbound)
      have waited := tcpwait_steady (tcpdeliver (tcpacked conn inbound.segment).2 inbound)
      have steady := delivered.trans waited.1
      refine Turn.timewait (Or.inr (Or.inr (Or.inr found)))
        ⟨steady.state.trans found, steady.error, steady.origin, steady.delete⟩ waited.2

theorem switch_turn (ocsem : Int) (active : conn.tcb.state = .synsent → conn.tcb.passive = false)
    (plain : conn.tcb.state = .finwait1 ∨ conn.tcb.state = .finwait2 →
      (inbound.segment.code.rst || inbound.segment.code.syn) = false) :
    Turn conn (tcpswitch conn inbound) (switchSignals ocsem conn inbound) := by
  unfold switchSignals tcpswitch
  cases found : conn.tcb.state with
  | free => exact Turn.refl conn
  | closed => exact Turn.steady (tcpreset_steady conn inbound.segment) (Or.inl rfl)
  | listen => exact Turn.refl conn
  | synsent => exact synsent_turn found (active found)
  | synrcvd => exact synrcvd_turn ocsem found
  | established => exact established_turn ocsem found
  | closewait => exact closewait_turn ocsem found
  | finwait1 =>
      have noEnds := plain (Or.inl found)
      dsimp only
      rw [if_neg (by rw [noEnds]; decide)]
      exact finwait1_turn found noEnds
  | finwait2 =>
      have noEnds := plain (Or.inr found)
      dsimp only
      rw [if_neg (by rw [noEnds]; decide)]
      exact finwait2_turn found noEnds
  | lastack => exact lastack_turn found _
  | closing => exact closing_turn found
  | timewait => exact timewait_turn found

/-- Only the segment size has been read from the options. -/
theorem Turn.behind_options {read : Tcb} {after : Conn} {signals : Nat} {smss : Word}
    (same : read = { conn.tcb with smss := smss })
    (turn : Turn { conn with tcb := read } after signals) : Turn conn after signals := by
  subst same
  cases turn with
  | steady steady awaited =>
      exact Turn.steady ⟨steady.state, steady.error, steady.origin, steady.delete⟩ awaited
  | failed failed other =>
      exact Turn.failed ⟨failed.state, failed.error, failed.origin, failed.delete⟩ other
  | freed freed => exact Turn.freed freed
  | closed found closed => exact Turn.closed found closed
  | synrcvd found moved =>
      exact Turn.synrcvd found ⟨moved.state, moved.error, moved.origin, moved.delete⟩
  | opened found moved opens one =>
      have before : conn.tcb.state = .synsent ∨ conn.tcb.state = .synrcvd := found
      exact Turn.opened before ⟨moved.state, moved.error, moved.origin, moved.delete⟩ opens one
  | closewait found moved =>
      exact Turn.closewait found ⟨moved.state, moved.error, moved.origin, moved.delete⟩
  | finwait2 found moved =>
      exact Turn.finwait2 found ⟨moved.state, moved.error, moved.origin, moved.delete⟩
  | closing found moved =>
      exact Turn.closing found ⟨moved.state, moved.error, moved.origin, moved.delete⟩
  | timewait found moved due =>
      exact Turn.timewait found ⟨moved.state, moved.error, moved.origin, moved.delete⟩ due

/-- One segment that `tcpinp` takes. -/
theorem segment_turn (ocsem : Int)
    (active : conn.tcb.state = .synsent → conn.tcb.passive = false)
    (spared : conn.tcb.state = .finwait1 ∨ conn.tcb.state = .finwait2 →
      conn.resets inbound = false) :
    Turn conn (connStep conn (.segment inbound)) (segmentSignals ocsem conn inbound) := by
  change Turn conn ((tcpinp conn inbound).getD conn) _
  unfold tcpinp segmentSignals
  split
  · exact Turn.refl conn
  · dsimp only
    split
    · next accepted =>
        cases ended : tcpopts conn.tcb
            { inbound with segment := (tcpok conn.tcb inbound.segment).2 } with
        | none => exact Turn.refl conn
        | some read =>
            obtain ⟨smss, same⟩ := tcpopts_smss _ _ read ended
            have header := tcpopts_header _ _ read ended
            refine Turn.behind_options same ?_
            apply switch_turn ocsem
            · rw [same]
              exact active
            · intro found
              rw [same] at found
              have noReset := spared found
              unfold Conn.resets at noReset
              dsimp only at noReset
              rw [accepted, Bool.true_and] at noReset
              rw [header.2]
              exact noReset
    · exact Turn.steady (tcpackit_steady conn _) (Or.inl rfl)

end Input

/-! ## The closer and the timer -/

/-- The signals that have been given match the calls that wait for them. -/
structure Tenure.Kept (s : Tenure) : Prop where
  active : s.conn.tcb.state = .synsent → s.conn.tcb.passive = false
  opening : s.closer = .none → s.conn.tcb.error = none →
    s.conn.tcb.state = .synsent ∨ s.conn.tcb.state = .synrcvd →
      s.tokens = 0 ∧ s.opener = !s.conn.tcb.passive
  opened : s.closer = .none → s.conn.tcb.error = none →
    s.conn.tcb.state = .established ∨ s.conn.tcb.state = .closewait →
      s.tokens = if s.opener then 1 else 0
  unclosed : s.closer = .none → ¬ Shut s.conn.tcb.state
  clean : s.conn.tcb.state = .finwait1 ∨ s.conn.tcb.state = .finwait2 ∨
    s.conn.tcb.state = .closing → s.conn.tcb.error = none
  deleting : s.conn.tcb.state = .timewait → s.conn.Due .delete
  waiting : s.closer = .waiting → Shut s.conn.tcb.state ∨ s.conn.tcb.state = .free
  signalled : s.closer = .waiting → 0 < s.tokens →
    s.conn.tcb.state ≠ .finwait1 ∧ s.conn.tcb.state ≠ .closing
  returned : s.closer = .returned →
    s.conn.tcb.state = .finwait2 ∨ s.conn.tcb.state = .timewait ∨ s.conn.tcb.state = .free
  first : s.opener = true → s.closer = .none

section Kept

variable {s : Tenure} {after : Conn}

theorem Tenure.Kept.tended (kept : s.Kept) : s.Tended ∧ ¬ s.Abandoned := by
  constructor
  · intro isReturned
    rcases kept.returned isReturned with found | found | found
    · exact Or.inr (Or.inr ⟨Or.inl found, kept.clean (Or.inr (Or.inl found))⟩)
    · exact Or.inr (Or.inl (kept.deleting found))
    · exact Or.inl found
  · rintro ⟨found, failed, _, nobody⟩
    have clean : s.conn.tcb.error ≠ none := by
      intro none
      rw [none] at failed
      cases failed
    rcases found with found | found | found | found
    · exact clean (kept.clean (Or.inl found))
    · exact clean (kept.clean (Or.inr (Or.inl found)))
    · exact clean (kept.clean (Or.inr (Or.inr found)))
    · -- in LAST_ACK the closer is still there
      cases progress : s.closer with
      | none => exact kept.unclosed progress (by simp [Shut, found])
      | waiting => exact nobody progress
      | returned =>
          rcases kept.returned progress with other | other | other
          all_goals
            rw [found] at other
            cases other

/-- A block that is free or closed with an error needs nobody. -/
theorem Tenure.Kept.gone {tokens : Nat} {opener : Bool}
    (first : opener = true → s.closer = .none)
    (state : after.tcb.state = .free ∨ after.tcb.state = .closed ∧ s.closer = .none) :
    ({ s with conn := after, tokens := tokens, opener := opener } : Tenure).Kept := by
  have none : ∀ other, other ≠ .free → other ≠ .closed → after.tcb.state ≠ other := by
    intro other notFree notClosed same
    rcases state with isFree | ⟨isClosed, _⟩
    · exact notFree (same.symm.trans isFree)
    · exact notClosed (same.symm.trans isClosed)
  constructor
  case active => exact fun found => absurd found (none _ (by decide) (by decide))
  case opening =>
    rintro _ _ (found | found)
    · exact absurd found (none _ (by decide) (by decide))
    · exact absurd found (none _ (by decide) (by decide))
  case opened =>
    rintro _ _ (found | found)
    · exact absurd found (none _ (by decide) (by decide))
    · exact absurd found (none _ (by decide) (by decide))
  case unclosed =>
    rintro _ (found | found | found | found | found)
    all_goals exact absurd found (none _ (by decide) (by decide))
  case clean =>
    rintro (found | found | found)
    all_goals exact absurd found (none _ (by decide) (by decide))
  case deleting => exact fun found => absurd found (none _ (by decide) (by decide))
  case waiting =>
    intro waits
    rcases state with isFree | ⟨_, nobody⟩
    · exact Or.inr isFree
    · exact absurd (waits.symm.trans nobody) (by decide)
  case signalled =>
    exact fun _ _ => ⟨none _ (by decide) (by decide), none _ (by decide) (by decide)⟩
  case returned =>
    intro isReturned
    rcases state with isFree | ⟨_, nobody⟩
    · exact Or.inr (Or.inr isFree)
    · exact absurd (isReturned.symm.trans nobody) (by decide)
  case first => exact first

/-- Before `tcpclose` nobody waits for the FIN. -/
theorem Tenure.Kept.nobody (kept : s.Kept) (early : ¬ Shut s.conn.tcb.state)
    (taken : s.conn.tcb.state ≠ .free) : s.closer = .none := by
  cases progress : s.closer with
  | none => rfl
  | waiting =>
      rcases kept.waiting progress with shut | isFree
      · exact absurd shut early
      · exact absurd isFree taken
  | returned =>
      rcases kept.returned progress with found | found | found
      · exact absurd (by simp [Shut, found]) early
      · exact absurd (by simp [Shut, found]) early
      · exact absurd found taken

theorem Tenure.Kept.unopening (kept : s.Kept) (somebody : s.closer ≠ .none) :
    s.opener = false := by
  cases opener : s.opener with
  | false => rfl
  | true => exact absurd (kept.first opener) somebody

/-- The connection goes on before `tcpclose`. -/
theorem Tenure.Kept.early (kept : s.Kept) {tokens : Nat} {opener : Bool} (nobody : s.closer = .none)
    (passive : after.tcb.passive = s.conn.tcb.passive) (unshut : ¬ Shut after.tcb.state)
    (active : after.tcb.state = .synsent → s.conn.tcb.state = .synsent)
    (opening : after.tcb.error = none →
      after.tcb.state = .synsent ∨ after.tcb.state = .synrcvd →
        tokens = 0 ∧ opener = !s.conn.tcb.passive)
    (opened : after.tcb.error = none →
      after.tcb.state = .established ∨ after.tcb.state = .closewait →
        tokens = if opener then 1 else 0) :
    ({ s with conn := after, tokens := tokens, opener := opener } : Tenure).Kept := by
  have others : ∀ state, Shut state → after.tcb.state ≠ state := by
    intro state shut same
    exact unshut (same ▸ shut)
  constructor
  case active => exact fun found => passive.trans (kept.active (active found))
  case opening =>
    intro _ clean found
    dsimp only
    rw [passive]
    exact opening clean found
  case opened => exact fun _ clean found => opened clean found
  case unclosed => exact fun _ => unshut
  case clean =>
    rintro (found | found | found)
    all_goals exact absurd found (others _ (by simp [Shut]))
  case deleting => exact fun found => absurd found (others _ (by simp [Shut]))
  case waiting => exact fun waits => absurd (waits.symm.trans nobody) (by decide)
  case signalled => exact fun waits => absurd (waits.symm.trans nobody) (by decide)
  case returned => exact fun isReturned => absurd (isReturned.symm.trans nobody) (by decide)
  case first => exact fun _ => nobody

/-- The connection goes on behind `tcpclose`. -/
theorem Tenure.Kept.late {tokens : Nat} {closer : Closer} (somebody : closer ≠ .none)
    (first : s.opener = false)
    (shut : Shut after.tcb.state)
    (clean : after.tcb.state = .finwait1 ∨ after.tcb.state = .finwait2 ∨
      after.tcb.state = .closing → after.tcb.error = none)
    (deleting : after.tcb.state = .timewait → after.Due .delete)
    (signalled : closer = .waiting → 0 < tokens →
      after.tcb.state ≠ .finwait1 ∧ after.tcb.state ≠ .closing)
    (returned : closer = .returned →
      after.tcb.state = .finwait2 ∨ after.tcb.state = .timewait) :
    ({ s with conn := after, tokens := tokens, closer := closer } : Tenure).Kept := by
  have unopened : ∀ state, ¬ Shut state → after.tcb.state ≠ state := by
    intro state early same
    exact early (same ▸ shut)
  constructor
  case active => exact fun found => absurd found (unopened _ (by simp [Shut]))
  case opening => exact fun nobody => absurd nobody somebody
  case opened => exact fun nobody => absurd nobody somebody
  case unclosed => exact fun nobody => absurd nobody somebody
  case clean => exact clean
  case deleting => exact deleting
  case waiting => exact fun _ => Or.inl shut
  case signalled => exact signalled
  case returned => exact fun isReturned => (returned isReturned).imp id Or.inl
  case first => exact fun opens => absurd (opens.symm.trans first) (by decide)

theorem Tenure.Kept.somebody (kept : s.Kept) (shut : Shut s.conn.tcb.state) :
    s.closer ≠ .none :=
  fun nobody => kept.unclosed nobody shut

theorem Tenure.Kept.returned_shut (kept : s.Kept) (shut : Shut s.conn.tcb.state)
    (isReturned : s.closer = .returned) :
    s.conn.tcb.state = .finwait2 ∨ s.conn.tcb.state = .timewait := by
  rcases kept.returned isReturned with found | found | found
  · exact Or.inl found
  · exact Or.inr found
  · rw [found] at shut
    exact absurd shut (by simp [Shut])

theorem Tenure.Kept.steady (kept : s.Kept) {signals : Nat} (steady : Steady s.conn after)
    (awaited : signals = 0 ∨ s.conn.tcb.state = .lastack ∨ s.conn.tcb.error.isSome = true) :
    ({ s with conn := after, tokens := s.tokens + signals } : Tenure).Kept := by
  by_cases shut : Shut s.conn.tcb.state
  · have somebody := kept.somebody shut
    refine Tenure.Kept.late somebody (kept.unopening somebody) ?_ ?_ ?_ ?_ ?_
    · rw [steady.state]
      exact shut
    · rw [steady.state, steady.error]
      exact kept.clean
    · rw [steady.state]
      exact fun found => steady.delete (kept.deleting found)
    · rw [steady.state]
      intro waits some
      rcases awaited with none | found | failed
      · rw [none, Nat.add_zero] at some
        exact kept.signalled waits some
      · rw [found]
        decide
      · constructor
        · intro found
          rw [kept.clean (Or.inl found)] at failed
          cases failed
        · intro found
          rw [kept.clean (Or.inr (Or.inr found))] at failed
          cases failed
    · rw [steady.state]
      exact kept.returned_shut shut
  · by_cases isFree : s.conn.tcb.state = .free
    · exact Tenure.Kept.gone kept.first (Or.inl (steady.state.trans isFree))
    · have nobody := kept.nobody shut isFree
      have none : s.conn.tcb.error = none → signals = 0 := by
        intro clean
        rcases awaited with none | found | failed
        · exact none
        · exact absurd (by simp [Shut, found]) shut
        · rw [clean] at failed
          cases failed
      refine kept.early nobody steady.passive ?_ ?_ ?_ ?_
      · rw [steady.state]
        exact shut
      · rw [steady.state]
        exact id
      · rw [steady.state, steady.error]
        intro clean found
        rw [none clean, Nat.add_zero]
        exact kept.opening nobody clean found
      · rw [steady.state, steady.error]
        intro clean found
        rw [none clean, Nat.add_zero]
        exact kept.opened nobody clean found

theorem Tenure.Kept.failed (kept : s.Kept) {tokens : Nat} (failed : Failed s.conn after)
    (other : s.conn.tcb.state ≠ .finwait1 ∧ s.conn.tcb.state ≠ .finwait2 ∧
      s.conn.tcb.state ≠ .closing) :
    ({ s with conn := after, tokens := tokens } : Tenure).Kept := by
  have dirty : after.tcb.error ≠ none := by
    intro none
    have failure := failed.error
    rw [none] at failure
    cases failure
  by_cases shut : Shut s.conn.tcb.state
  · have somebody := kept.somebody shut
    refine Tenure.Kept.late somebody (kept.unopening somebody) ?_ ?_ ?_ ?_ ?_
    · rw [failed.state]
      exact shut
    · rw [failed.state]
      rintro (found | found | found)
      · exact absurd found other.1
      · exact absurd found other.2.1
      · exact absurd found other.2.2
    · rw [failed.state]
      exact fun found => failed.delete (kept.deleting found)
    · rw [failed.state]
      exact fun _ _ => ⟨other.1, other.2.2⟩
    · rw [failed.state]
      exact kept.returned_shut shut
  · by_cases isFree : s.conn.tcb.state = .free
    · exact Tenure.Kept.gone kept.first (Or.inl (failed.state.trans isFree))
    · refine kept.early (kept.nobody shut isFree) failed.passive ?_ ?_ ?_ ?_
      · rw [failed.state]
        exact shut
      · rw [failed.state]
        exact id
      · exact fun clean => absurd clean dirty
      · exact fun clean => absurd clean dirty

/-- The connection is open, and who waits in an active open is signalled. -/
theorem Tenure.Kept.opens (kept : s.Kept) {state : TcpState}
    (found : s.conn.tcb.state = .synsent ∨ s.conn.tcb.state = .synrcvd)
    (moved : Carried s.conn after state) (opens : state = .established ∨ state = .closewait) :
    ({ s with
        conn := after, tokens := s.tokens + if s.conn.tcb.passive then 0 else 1 } :
      Tenure).Kept := by
  have taken : s.conn.tcb.state ≠ .free := by
    rcases found with found | found
    · rw [found]
      decide
    · rw [found]
      decide
  have early : ¬ Shut s.conn.tcb.state := by
    rcases found with found | found
    · simp [Shut, found]
    · simp [Shut, found]
  have nobody := kept.nobody early taken
  have isOpen := moved.state
  refine kept.early nobody moved.passive ?_ ?_ ?_ ?_
  · rw [isOpen]
    rcases opens with rfl | rfl
    · simp [Shut]
    · simp [Shut]
  · rw [isOpen]
    rcases opens with rfl | rfl
    · exact fun impossible => by cases impossible
    · exact fun impossible => by cases impossible
  · rw [isOpen]
    rcases opens with rfl | rfl
    · rintro _ (impossible | impossible) <;> cases impossible
    · rintro _ (impossible | impossible) <;> cases impossible
  · rw [moved.error]
    intro clean _
    obtain ⟨zero, opener⟩ := kept.opening nobody clean found
    rw [zero, opener]
    cases s.conn.tcb.passive <;> rfl

theorem Tenure.Kept.turn (kept : s.Kept) {signals : Nat} (turn : Turn s.conn after signals) :
    ({ s with conn := after, tokens := s.tokens + signals } : Tenure).Kept := by
  have unshut : ∀ state, s.conn.tcb.state = state → ¬ Shut state → ¬ Shut s.conn.tcb.state :=
    fun _ same early => same ▸ early
  cases turn with
  | steady steady awaited => exact kept.steady steady awaited
  | failed failed other => exact kept.failed failed other
  | freed freed => exact Tenure.Kept.gone kept.first (Or.inl freed)
  | closed found closed =>
      have nobody : s.closer = .none := by
        rcases found with found | found
        · exact kept.nobody (unshut _ found (by simp [Shut])) (by rw [found]; decide)
        · exact kept.nobody (unshut _ found (by simp [Shut])) (by rw [found]; decide)
      exact Tenure.Kept.gone kept.first (Or.inr ⟨closed, nobody⟩)
  | synrcvd found moved =>
      have nobody := kept.nobody (unshut _ found (by simp [Shut])) (by rw [found]; decide)
      refine kept.early nobody moved.passive ?_ ?_ ?_ ?_
      · rw [moved.state]
        simp [Shut]
      · exact fun _ => found
      · rw [moved.error, Nat.add_zero]
        exact fun clean _ => kept.opening nobody clean (Or.inl found)
      · rw [moved.state]
        rintro _ (impossible | impossible)
        · cases impossible
        · cases impossible
  | opened found moved opens one =>
      rw [one]
      exact kept.opens found moved opens
  | closewait found moved =>
      have nobody := kept.nobody (unshut _ found (by simp [Shut])) (by rw [found]; decide)
      refine kept.early nobody moved.passive ?_ ?_ ?_ ?_
      · rw [moved.state]
        simp [Shut]
      · rw [moved.state]
        exact fun impossible => by cases impossible
      · rw [moved.state]
        rintro _ (impossible | impossible) <;> cases impossible
      · rw [moved.error, Nat.add_zero]
        exact fun clean _ => kept.opened nobody clean (Or.inl found)
  | finwait2 found moved =>
      have somebody := kept.somebody (by simp [Shut, found])
      refine Tenure.Kept.late somebody (kept.unopening somebody) ?_ ?_ ?_ ?_ ?_
      · rw [moved.state]
        simp [Shut]
      · exact fun _ => moved.error.trans (kept.clean (Or.inl found))
      · rw [moved.state]
        exact fun impossible => by cases impossible
      · rw [moved.state]
        exact fun _ _ => by decide
      · exact fun _ => Or.inl moved.state
  | closing found moved =>
      have somebody := kept.somebody (by simp [Shut, found])
      refine Tenure.Kept.late somebody (kept.unopening somebody) ?_ ?_ ?_ ?_ ?_
      · rw [moved.state]
        simp [Shut]
      · exact fun _ => moved.error.trans (kept.clean (Or.inl found))
      · rw [moved.state]
        exact fun impossible => by cases impossible
      · intro waits some
        exact absurd found (kept.signalled waits some).1
      · intro isReturned
        rcases kept.returned isReturned with other | other | other
        all_goals
          rw [found] at other
          cases other
  | timewait found moved due =>
      have shut : Shut s.conn.tcb.state := by
        rcases found with found | found | found | found
        all_goals simp [Shut, found]
      have somebody := kept.somebody shut
      refine Tenure.Kept.late somebody (kept.unopening somebody) ?_ ?_ ?_ ?_ ?_
      · rw [moved.state]
        simp [Shut]
      · rw [moved.state]
        rintro (impossible | impossible | impossible) <;> cases impossible
      · exact fun _ => due
      · rw [moved.state]
        exact fun _ _ => by decide
      · exact fun _ => Or.inr moved.state

/-! ## The users' calls -/

theorem tcpread_steady (conn : Conn) (len : Word) : Steady conn (tcpread conn len) := by
  have taken : Steady conn { conn with tcb := (tcpgetdata conn.tcb len).2.1 } :=
    steady_of_sending (tcpgetdata_sending conn.tcb len)
  unfold tcpread
  dsimp only
  split
  · exact taken.trans (tcpkick_steady _)
  · exact taken

theorem tcpwr_steady (conn : Conn) (octets : List Octet) (isurg : Bool) :
    Steady conn (tcpwr conn octets isurg) := by
  unfold tcpwr
  split
  · exact Steady.refl conn
  · dsimp only
    split
    · refine Steady.trans ?_ (tcpkick_steady _)
      exact ⟨rfl, rfl, rfl, id⟩
    · exact ⟨rfl, rfl, rfl, id⟩

theorem tcpgetspace_steady (conn : Conn) (index : Nat) :
    Steady conn (tcpgetspace conn index) := by
  unfold tcpgetspace
  split
  · exact Steady.refl conn
  · dsimp only
    split
    · exact ⟨rfl, rfl, rfl, id⟩
    · split
      · refine Steady.trans ?_ (tcpwr_steady _ _ _)
        exact ⟨rfl, rfl, rfl, id⟩
      · exact Steady.refl conn

theorem resume_turn (ocsem : Int) (conn : Conn) (index : Nat) :
    Turn conn (tcpgetspace conn index) (resumeSignals ocsem conn index) := by
  apply Turn.steady (tcpgetspace_steady conn index)
  unfold resumeSignals
  split
  · next woken => exact Or.inr (Or.inr woken.2.2)
  · exact Or.inl rfl

/-- The events that have nothing to do with `tcb_ocsem`. -/
def Event.Quiet : Event → Prop
  | .tick _ | .clock _ | .write _ _ | .read _ | .option _ _ _ | .otherKick _ _ | .otherSet _ _
  | .otherClear _ => True
  | _ => False

theorem quiet_steady (conn : Conn) (event : Event) (quiet : event.Quiet) :
    Steady conn (connStep conn event) := by
  cases event with
  | tick delta => exact ⟨rfl, rfl, rfl, tick_due conn delta .delete⟩
  | clock ctr100 => exact ⟨rfl, rfl, rfl, id⟩
  | write octets isurg =>
      change Steady conn (tcpwrcall conn octets isurg)
      unfold tcpwrcall
      split
      · exact Steady.refl conn
      · split
        · exact Steady.refl conn
        · exact ⟨rfl, rfl, rfl, id⟩
  | read len => exact tcpread_steady conn len
  | option set delack buffer => exact ⟨rfl, rfl, rfl, id⟩
  | otherKick event tcbnum =>
      rw [connStep]
      split
      · exact ⟨rfl, rfl, rfl, fun due => due.imp id (List.mem_append_left _)⟩
      · exact Steady.refl conn
  | otherSet key time =>
      rw [connStep]
      split
      · exact Steady.refl conn
      · refine ⟨rfl, rfl, rfl, fun due => due.imp ?_ id⟩
        exact fun running => (tmset_running _ _ _ _ _).mpr (Or.inr running)
  | otherClear key =>
      rw [connStep]
      split
      · exact Steady.refl conn
      · next foreign =>
          refine ⟨rfl, rfl, rfl, fun due => due.imp ?_ id⟩
          intro running
          refine (tmclear_running _ _ _ _ ?_).mpr running
          intro same
          have ours : conn.owns key = true := by
            rw [← same]
            simp [Conn.owns, Conn.key]
          exact foreign ours
  | _ => exact absurd quiet id

/-- `tcpcon` takes the signal of the opening and finds the block open or in error. -/
theorem Tenure.Kept.opened_step (kept : s.Kept) : (tenureStep s .opened).Kept := by
  unfold tenureStep
  dsimp only
  split
  · next ready =>
      obtain ⟨opens, released⟩ := ready
      have nobody := kept.first opens
      have unshut := kept.unclosed nobody
      cases failed : s.conn.tcb.error with
      | some error =>
          exact Tenure.Kept.gone (fun impossible => by cases impossible)
            (Or.inl (tcbdealloc_state s.conn))
      | none =>
          refine kept.early nobody rfl unshut id ?_ ?_
          · intro _ found
            exfalso
            rcases released with some | isFree
            · rw [(kept.opening nobody failed found).1] at some
              exact absurd some (Nat.lt_irrefl 0)
            · rcases found with found | found
              · exact absurd (found.symm.trans isFree) (by decide)
              · exact absurd (found.symm.trans isFree) (by decide)
          · intro _ found
            have one := kept.opened nobody failed found
            rw [opens] at one
            change s.tokens - 1 = 0
            rw [one]
            rfl
  · exact kept

/-- `tcpclose` finds no signal of the opening left. -/
theorem Tenure.Kept.close_step (kept : s.Kept) : (tenureStep s (.conn .close)).Kept := by
  unfold tenureStep
  dsimp only
  split
  · next ready =>
      obtain ⟨nobody, unopening⟩ := ready
      have first : s.opener = true → s.closer = .none := fun _ => nobody
      unfold tcpclose
      split
      · next refused =>
          have unshut := kept.unclosed nobody
          rw [if_neg (fun found => unshut (by
            rcases found with found | found
            all_goals simp [Shut, found]))]
          rw [← nobody]
          exact kept
      · next isOpen =>
          have found : s.conn.tcb.state = .established ∨ s.conn.tcb.state = .closewait := by
            by_contra other
            exact isOpen (not_or.mp other)
          split
          · have isFree := tcbdealloc_state s.conn
            rw [isFree, if_neg (by decide), ← nobody]
            exact Tenure.Kept.gone first (Or.inl isFree)
          · next clean =>
              have none : s.conn.tcb.error = none := by
                cases error : s.conn.tcb.error with
                | none => rfl
                | some value =>
                    rw [error] at clean
                    exact absurd rfl clean
              have zero := kept.opened nobody none found
              rw [unopening] at zero
              rw [tcpkick_tcb]
              have asked : (tcpclosedtcb s.conn.tcb).state = .finwait1 ∨
                  (tcpclosedtcb s.conn.tcb).state = .lastack := by
                rcases found with found | found
                all_goals simp [tcpclosedtcb, found]
              rw [if_pos asked]
              refine Tenure.Kept.late (by decide) unopening ?_ ?_ ?_ ?_ ?_
              · rw [tcpkick_tcb]
                rcases asked with asked | asked
                all_goals simp [Shut, asked]
              · rw [tcpkick_tcb]
                exact fun _ => none
              · rw [tcpkick_tcb]
                intro impossible
                rcases asked with asked | asked
                all_goals
                  change (tcpclosedtcb s.conn.tcb).state = _ at impossible
                  rw [asked] at impossible
                  cases impossible
              · intro _ some
                rw [zero] at some
                exact absurd some (Nat.lt_irrefl 0)
              · exact fun impossible => by cases impossible
  · exact kept

/-- The closer goes on: in LAST_ACK it gives the block back, elsewhere somebody else will. -/
theorem Tenure.Kept.closeEnd_step (kept : s.Kept) : (tenureStep s (.conn .closeEnd)).Kept := by
  unfold tenureStep
  dsimp only
  split
  · next ready =>
      obtain ⟨waits, released⟩ := ready
      have unopening := kept.unopening (by rw [waits]; decide)
      have somebody : Closer.returned ≠ .none := by decide
      have freed : ∀ after : Conn, after.tcb.state = .free →
          ({ s with conn := after, tokens := s.tokens - 1, closer := .returned } : Tenure).Kept := by
        intro after isFree
        have gone : ({ ({ s with closer := .returned } : Tenure) with
            conn := after, tokens := s.tokens - 1, opener := false } : Tenure).Kept :=
          Tenure.Kept.gone (fun impossible => by cases impossible) (Or.inl isFree)
        rw [unopening]
        exact gone
      unfold tcpcloseend
      split
      · exact freed _ (tcbdealloc_state s.conn)
      · next notLast =>
          rcases kept.waiting waits with shut | isFree
          · have some : 0 < s.tokens := by
              rcases released with some | isFree
              · exact some
              · rw [isFree] at shut
                exact absurd shut (by simp [Shut])
            have signalled := kept.signalled waits some
            refine Tenure.Kept.late somebody unopening shut kept.clean kept.deleting ?_ ?_
            · exact fun impossible => by cases impossible
            · intro _
              rcases shut with found | found | found | found | found
              · exact absurd found signalled.1
              · exact Or.inl found
              · exact absurd found notLast
              · exact absurd found signalled.2
              · exact Or.inr found
          · exact freed _ isFree
  · exact kept

theorem Tenure.Kept.step (kept : s.Kept) (event : TenureEvent) (spared : Spared s event) :
    (tenureStep s event).Kept := by
  have quiet : ∀ event : Event, event.Quiet →
      ({ s with conn := connStep s.conn event } : Tenure).Kept := by
    intro event quiet
    exact kept.turn (Turn.steady (quiet_steady s.conn event quiet) (Or.inl rfl))
  cases event with
  | opened => exact kept.opened_step
  | conn event =>
      cases event with
      | segment inbound => exact kept.turn (segment_turn s.ocsem kept.active spared)
      | output fuel =>
          apply kept.turn (output_turn fuel spared _)
          intro inTime
          rw [if_neg (by rw [inTime]; decide)]
      | resume index => exact kept.turn (resume_turn s.ocsem s.conn index)
      | close => exact kept.close_step
      | closeEnd => exact kept.closeEnd_step
      | _ => exact quiet _ trivial

theorem Tenure.Kept.ofOpened {start : Conn} (opened : Opened start) (ocsem : Int) :
    (Tenure.ofOpened start ocsem).Kept := by
  have state : start.tcb.state = .synsent ∧ start.tcb.passive = false ∨
      start.tcb.state = .synrcvd := by
    cases opened with
    | active => exact Or.inl (by rw [tcpkick_tcb]; exact ⟨rfl, rfl⟩)
    | passive => exact Or.inr (tcpdeliver_steady _ _).state
  have others : ∀ other, other ≠ .synsent → other ≠ .synrcvd → start.tcb.state ≠ other := by
    intro other notSent notRcvd same
    rcases state with ⟨found, _⟩ | found
    · exact notSent (same.symm.trans found)
    · exact notRcvd (same.symm.trans found)
  constructor
  case active =>
    intro found
    rcases state with ⟨_, active⟩ | other
    · exact active
    · exact absurd (found.symm.trans other) (by decide)
  case opening => exact fun _ _ _ => ⟨rfl, rfl⟩
  case opened =>
    rintro _ _ (found | found)
    all_goals exact absurd found (others _ (by decide) (by decide))
  case unclosed =>
    rintro _ (found | found | found | found | found)
    all_goals exact absurd found (others _ (by decide) (by decide))
  case clean =>
    rintro (found | found | found)
    all_goals exact absurd found (others _ (by decide) (by decide))
  case deleting => exact fun found => absurd found (others _ (by decide) (by decide))
  case waiting => exact fun impossible => by cases impossible
  case signalled => exact fun impossible => by cases impossible
  case returned => exact fun impossible => by cases impossible
  case first => exact fun _ => rfl

end Kept

/-- A server's connection is opened and closed, and its FIN has been sent when the peer
answers it. -/
def closingRun (answering : Event) : List TenureEvent :=
  [.conn (.output 4), .conn (answer 101), .conn .close, .conn (.output 4), .conn answering,
    .conn .closeEnd]

/-- The RST of a peer that takes no more data. -/
def resetAnswer : Event :=
  .segment { segment := { seq := 501, code := { rst := true } } }

end MvsXinu.Tcp
