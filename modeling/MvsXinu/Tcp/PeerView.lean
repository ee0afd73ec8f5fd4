import MvsXinu.Tcp.SendSide
import MvsXinu.Tcp.ReceiveWindow

/-!
# What the other end sees of a step

The segments that a step sends and replies with, the acknowledgement it takes, and what it
does to the receive side: nothing, or what `tcpdata` does with the segment. A block that is in
error or free stays so.
-/

namespace MvsXinu.Tcp

open MvsXinu.SeqSpace

set_option autoImplicit false

/-- What decides about receiving, and the error that ends it. -/
structure Intake where
  rbsize : Word
  rbstart : Word
  rbcount : Word
  rcvbuf : Nat → Octet
  rnext : Tcpseq
  finseq : Tcpseq
  rsegq : Option (Gpq.Queue Tcpfrag)
  rdone : Bool
  rupok : Bool
  error : Option TcpError

def Tcb.intake (tcb : Tcb) : Intake where
  rbsize := tcb.rbsize
  rbstart := tcb.rbstart
  rbcount := tcb.rbcount
  rcvbuf := tcb.rcvbuf
  rnext := tcb.rnext
  finseq := tcb.finseq
  rsegq := tcb.rsegq
  rdone := tcb.flags.rdone
  rupok := tcb.flags.rupok
  error := tcb.error

structure View where
  intake : Intake
  suna : Tcpseq
  sends : List (Tcb × Bool)
  replies : List Segment
  writes : List (Tcb × List Octet)

def Conn.view (conn : Conn) : View where
  intake := conn.tcb.intake
  suna := conn.tcb.suna
  sends := conn.trace.sends
  replies := conn.trace.replies
  writes := conn.trace.writes

section Quiet

variable (conn : Conn)

@[simp] theorem setTimer_view (event : OutEvent) (time : Int) :
    (conn.setTimer event time).view = conn.view := rfl

@[simp] theorem clearTimer_view (event : OutEvent) : (conn.clearTimer event).view = conn.view := rfl

@[simp] theorem tcpkilltimers_view : (tcpkilltimers conn).view = conn.view := rfl

@[simp] theorem tcpwait_view : (tcpwait conn).view = conn.view := rfl

@[simp] theorem enter_view (state : TcpState) : (conn.enter state).view = conn.view := rfl

@[simp] theorem tcpkick_view : (tcpkick conn).view = conn.view := by
  unfold tcpkick
  split <;> rfl

@[simp] theorem startTimer_view : conn.startTimer.view = conn.view := by
  unfold Conn.startTimer
  split <;> rfl

@[simp] theorem tcbdealloc_view : (tcbdealloc conn).view = conn.view := by
  simp only [tcbdealloc]
  split <;> rfl

@[simp] theorem tcprtt_conn_view : (tcprtt conn).view = conn.view := by
  unfold tcprtt
  simp only
  split
  · rfl
  · split <;> rfl

@[simp] theorem tcpostate_view (acked : Int) : (tcpostate conn acked).view = conn.view := by
  unfold tcpostate
  split
  · rfl
  · simp only
    split
    · split
      · rfl
      · rw [tcpkick_view]
        rfl
    · split
      · rfl
      · exact tcpkick_view conn

@[simp] theorem tcpswindow_view (segment : Segment) :
    (tcpswindow conn segment).view = conn.view := by
  unfold tcpswindow
  simp only
  split_ifs
  · rfl
  · rfl
  · rfl
  · rw [tcpkick_view]
    rfl
  · rw [tcpkick_view]
    rfl

end Quiet

theorem tcprwindow_intake (tcb : Tcb) : (tcprwindow tcb).2.intake = tcb.intake := by
  unfold tcprwindow
  split <;> rfl

/-! ## An inbound segment -/

/-- The segment that `tcpackit` answers with. -/
structure Plain (tcb : Tcb) (reply : Segment) : Prop where
  seq : reply.seq = tcb.snext
  ack : reply.ack = tcb.rnext
  code : reply.code = { ack := true }
  offset : reply.offset = tcphoffset
  data : reply.tcpData = []

/-- The replies of a step are resets and plain acknowledgements. -/
def Replied (conn after : Conn) : Prop :=
  ∃ more, after.trace.replies = conn.trace.replies ++ more ∧
    ∀ reply ∈ more, reply.code.rst = true ∧ reply.offset = tcphoffset ∨ Plain conn.tcb reply

/-- What a segment does to the receive side. -/
def Takes (conn after : Conn) (inbound : Inbound) : Prop :=
  after.tcb.error.isSome = true ∨ after.tcb.intake = conn.tcb.intake ∨
    inbound.segment.code.rst = false ∧ inbound.segment.code.syn = false ∧
      ∃ tcb : Tcb, tcb.intake = conn.tcb.intake ∧ tcb.state = conn.tcb.state ∧
        after.tcb.intake = (tcpdata tcb inbound.segment inbound.newqOk).intake

structure Served (conn after : Conn) (inbound : Inbound) : Prop where
  sends : after.trace.sends = conn.trace.sends
  writes : after.trace.writes = conn.trace.writes
  replies : Replied conn after
  suna : after.tcb.suna = conn.tcb.suna ∨ inbound.segment.code.rst = false ∧
    inbound.segment.code.ack = true ∧ after.tcb.suna = inbound.segment.ack
  intake : Takes conn after inbound

section Handlers

variable {conn mid after : Conn} {inbound : Inbound}

theorem Served.of_view (served : Served conn mid inbound) (same : after.view = mid.view) :
    Served conn after inbound := by
  have intake : after.tcb.intake = mid.tcb.intake := congrArg View.intake same
  have error : after.tcb.error = mid.tcb.error := congrArg Intake.error intake
  have suna : after.tcb.suna = mid.tcb.suna := congrArg View.suna same
  have replies : after.trace.replies = mid.trace.replies := congrArg View.replies same
  constructor
  · exact (congrArg View.sends same).trans served.sends
  · exact (congrArg View.writes same).trans served.writes
  · rw [Replied, replies]
    exact served.replies
  · rw [suna]
    exact served.suna
  · rw [Takes, intake, error]
    exact served.intake

theorem served_of_view (same : after.view = conn.view) : Served conn after inbound := by
  have unchanged : Served conn conn inbound :=
    ⟨rfl, rfl, ⟨[], by simp, by simp⟩, Or.inl rfl, Or.inr (Or.inl rfl)⟩
  exact unchanged.of_view same

theorem tcpreset_view (segment : Segment) :
    (tcpreset conn segment).view = conn.view ∨ ∃ reply : Segment,
      (reply.code.rst = true ∧ reply.offset = tcphoffset) ∧
        (tcpreset conn segment).view =
          { conn.view with replies := conn.trace.replies ++ [reply] } := by
  unfold tcpreset
  split
  · exact Or.inl rfl
  · exact Or.inr ⟨_, ⟨rfl, rfl⟩, rfl⟩

theorem tcpackit_view (segment : Segment) :
    (tcpackit conn segment).view = conn.view ∨ ∃ reply : Segment, Plain conn.tcb reply ∧
      (tcpackit conn segment).view =
        { conn.view with replies := conn.trace.replies ++ [reply] } := by
  unfold tcpackit
  split
  · exact Or.inl rfl
  · split
    · exact Or.inl rfl
    · have intake := tcprwindow_intake conn.tcb
      have suna : (tcprwindow conn.tcb).2.suna = conn.tcb.suna := by
        unfold tcprwindow
        split <;> rfl
      refine Or.inr ⟨{
        src := segment.dst
        dst := segment.src
        sport := segment.dport
        dport := segment.sport
        seq := conn.tcb.snext
        ack := conn.tcb.rnext
        code := { ack := true }
        window := BitVec.ofInt 16 (tcprwindow conn.tcb).1 }, ⟨rfl, rfl, rfl, rfl, rfl⟩, ?_⟩
      change View.mk (tcprwindow conn.tcb).2.intake (tcprwindow conn.tcb).2.suna _ _ _ = _
      rw [intake, suna]
      rfl

/-- A reply changes nothing but the record. -/
theorem handled_of_reply {reply : Segment}
    (kind : reply.code.rst = true ∧ reply.offset = tcphoffset ∨ Plain conn.tcb reply)
    (same : after.view = { conn.view with replies := conn.trace.replies ++ [reply] }) :
    Served conn after inbound := by
  have intake : after.tcb.intake = conn.tcb.intake := congrArg View.intake same
  have suna : after.tcb.suna = conn.tcb.suna := congrArg View.suna same
  refine ⟨congrArg View.sends same, congrArg View.writes same,
    ⟨[reply], congrArg View.replies same, ?_⟩, Or.inl suna,
    Or.inr (Or.inl intake)⟩
  intro other member
  rw [List.mem_singleton.mp member]
  exact kind

theorem tcpreset_served (segment : Segment) : Served conn (tcpreset conn segment) inbound := by
  rcases @tcpreset_view conn segment with same | ⟨reply, reset, same⟩
  · exact served_of_view same
  · exact handled_of_reply (Or.inl reset) same

theorem tcpackit_served (segment : Segment) : Served conn (tcpackit conn segment) inbound := by
  rcases @tcpackit_view conn segment with same | ⟨reply, plain, same⟩
  · exact served_of_view same
  · exact handled_of_reply (Or.inr plain) same

theorem Served.of_tcb {other : Conn} (served : Served other after inbound)
    (tcb : other.tcb = conn.tcb) (sends : other.trace.sends = conn.trace.sends)
    (writes : other.trace.writes = conn.trace.writes)
    (replies : other.trace.replies = conn.trace.replies) : Served conn after inbound := by
  constructor
  · exact served.sends.trans sends
  · exact served.writes.trans writes
  · rw [Replied, ← replies, ← tcb]
    exact served.replies
  · rw [← tcb]
    exact served.suna
  · rw [Takes, ← tcb]
    exact served.intake

theorem tcpacked_served (reset : inbound.segment.code.rst = false) :
    Served conn (tcpacked conn inbound.segment).2 inbound := by
  unfold tcpacked
  split
  · exact served_of_view rfl
  · rename_i flag
    have acks : inbound.segment.code.ack = true := by simpa using flag
    set looked : Conn := { conn with trace := { conn.trace with
      acks := conn.trace.acks ++ [(conn.tcb, inbound.segment)] } } with looked_eq
    simp only
    split
    · exact served_of_view rfl
    split
    · split
      · exact (@tcpreset_served looked _ inbound.segment).of_tcb rfl rfl rfl rfl
      · exact (@tcpackit_served looked _ inbound.segment).of_tcb rfl rfl rfl rfl
    · have timed : (tcprtt looked).view = looked.view := tcprtt_conn_view looked
      have intake : (tcprtt looked).tcb.intake = conn.tcb.intake := congrArg View.intake timed
      have accepted : Served conn { tcprtt looked with
          tcb := tcpaccepted (tcprtt looked).tcb inbound.segment.ack } inbound := by
        refine ⟨congrArg View.sends timed, congrArg View.writes timed, ⟨[], ?_, by simp⟩,
          Or.inr ⟨reset, acks, rfl⟩,
          Or.inr (Or.inl intake)⟩
        rw [List.append_nil]
        exact congrArg View.replies timed
      exact accepted.of_view (tcpostate_view _ _)

theorem tcpacked_intake (segment : Segment) :
    (tcpacked conn segment).2.tcb.intake = conn.tcb.intake := by
  unfold tcpacked
  split
  · rfl
  · simp only
    split
    · rfl
    split
    · split
      · unfold tcpreset
        split <;> rfl
      · unfold tcpackit
        split_ifs
        · rfl
        · rfl
        · exact tcprwindow_intake conn.tcb
    · refine (congrArg View.intake (tcpostate_view _ _)).trans ?_
      exact congrArg View.intake (tcprtt_conn_view _)

/-- The part of a handler that takes the data. -/
theorem delivered_served (reset : inbound.segment.code.rst = false)
    (opens : inbound.segment.code.syn = false) :
    Served conn (tcpdeliver (tcpacked conn inbound.segment).2 inbound) inbound := by
  set acked := (tcpacked conn inbound.segment).2 with acked_eq
  have served : Served conn acked inbound := tcpacked_served reset
  have intake : acked.tcb.intake = conn.tcb.intake := tcpacked_intake inbound.segment
  have state : acked.tcb.state = conn.tcb.state := tcpacked_state conn inbound.segment
  have sending := tcpdata_sending acked.tcb inbound.segment inbound.newqOk
  have taken : Served conn { acked with
      tcb := tcpdata acked.tcb inbound.segment inbound.newqOk } inbound := by
    refine ⟨served.sends, served.writes, served.replies, ?_, Or.inr (Or.inr ⟨reset, opens,
      acked.tcb, intake, state, rfl⟩)⟩
    have suna : (tcpdata acked.tcb inbound.segment inbound.newqOk).suna = acked.tcb.suna :=
      congrArg Core.suna (core_of_sending sending)
    rw [suna]
    exact served.suna
  rw [tcpdeliver]
  simp only
  split
  · exact taken.of_view (tcpkick_view _)
  · exact taken

theorem tcpaborts_none {segment : Segment} (goes : tcpaborts conn segment = none) :
    segment.code.rst = false ∧ segment.code.syn = false := by
  unfold tcpaborts at goes
  split_ifs at goes with reset opens
  exact ⟨by simpa using reset, by simpa using opens⟩

theorem tcpfrees_none {segment : Segment} (goes : tcpfrees conn segment = none) :
    segment.code.rst = false ∧ segment.code.syn = false := by
  unfold tcpfrees at goes
  split_ifs at goes with reset opens
  exact ⟨by simpa using reset, by simpa using opens⟩

theorem tcpaborts_served (aborts : tcpaborts conn inbound.segment = some after) :
    Served conn after inbound := by
  unfold tcpaborts at aborts
  split_ifs at aborts
  · cases aborts
    exact ⟨rfl, rfl, ⟨[], by simp [tcpabort, tcpkilltimers, Conn.clearTimer], by simp⟩, Or.inl rfl,
      Or.inl rfl⟩
  · cases aborts
    have replied : Served conn (tcpreset conn inbound.segment) inbound :=
      tcpreset_served inbound.segment
    exact ⟨replied.sends, replied.writes, replied.replies, replied.suna, Or.inl rfl⟩

theorem tcpfrees_served (frees : tcpfrees conn inbound.segment = some after) :
    Served conn after inbound := by
  unfold tcpfrees at frees
  split_ifs at frees
  · cases frees
    exact served_of_view (tcbdealloc_view conn)
  · cases frees
    exact (tcpreset_served inbound.segment).of_view (tcbdealloc_view _)

theorem aborts_or_served {rest : Conn}
    (served : inbound.segment.code.rst = false → inbound.segment.code.syn = false →
      Served conn rest inbound) :
    Served conn ((tcpaborts conn inbound.segment).getD rest) inbound := by
  cases goes : tcpaborts conn inbound.segment with
  | none => exact served (tcpaborts_none goes).1 (tcpaborts_none goes).2
  | some after => exact tcpaborts_served goes

theorem frees_or_served {rest : Conn}
    (served : inbound.segment.code.rst = false → inbound.segment.code.syn = false →
      Served conn rest inbound) :
    Served conn ((tcpfrees conn inbound.segment).getD rest) inbound := by
  cases goes : tcpfrees conn inbound.segment with
  | none => exact served (tcpfrees_none goes).1 (tcpfrees_none goes).2
  | some after => exact tcpfrees_served goes

theorem tcpestablished_served : Served conn (tcpestablished conn inbound) inbound := by
  apply aborts_or_served
  intro reset opens
  simp only
  split
  · exact tcpacked_served reset
  · have delivered := (@delivered_served conn inbound reset opens).of_view
      (tcpswindow_view _ inbound.segment)
    split
    · exact delivered.of_view (enter_view _ _)
    · exact delivered

theorem tcpfin1_served : Served conn (tcpfin1 conn inbound) inbound := by
  apply aborts_or_served
  intro reset opens
  simp only
  split
  · exact tcpacked_served reset
  · have delivered := (@delivered_served conn inbound reset opens).of_view
      (tcpswindow_view _ inbound.segment)
    split
    · split
      · exact delivered.of_view (enter_view _ _)
      · exact delivered.of_view (tcpwait_view _)
    · split
      · exact delivered
      · exact delivered.of_view (enter_view _ _)

theorem tcpfin2_served : Served conn (tcpfin2 conn inbound) inbound := by
  apply aborts_or_served
  intro reset opens
  simp only
  split
  · exact tcpacked_served reset
  · have delivered : Served conn _ inbound := delivered_served reset opens
    split
    · exact delivered.of_view (tcpwait_view _)
    · exact delivered

theorem tcpclosewait_served : Served conn (tcpclosewait conn inbound) inbound := by
  apply aborts_or_served
  intro reset _
  exact (tcpacked_served reset).of_view (tcpswindow_view _ _)

theorem tcpclosing_served : Served conn (tcpclosing conn inbound) inbound := by
  apply frees_or_served
  intro reset _
  simp only
  split
  · exact tcpacked_served reset
  · exact (tcpacked_served reset).of_view (tcpwait_view _)

theorem tcplastack_served : Served conn (tcplastack conn inbound) inbound := by
  apply aborts_or_served
  intro reset _
  exact tcpacked_served reset

theorem tcptimewait_served : Served conn (tcptimewait conn inbound) inbound := by
  apply frees_or_served
  intro reset opens
  exact (delivered_served reset opens).of_view (tcpwait_view _)

theorem tcpswitch_served (synchronised : TcpState.established.number ≤ conn.tcb.state.number) :
    Served conn (tcpswitch conn inbound) inbound := by
  unfold tcpswitch
  split
  case h_6 => exact tcpestablished_served
  case h_7 => exact tcpfin1_served
  case h_8 => exact tcpfin2_served
  case h_9 => exact tcpclosewait_served
  case h_10 => exact tcplastack_served
  case h_11 => exact tcpclosing_served
  case h_12 => exact tcptimewait_served
  all_goals
    rename_i state
    simp [state, TcpState.number] at synchronised

/-- A segment without options. Refused by `tcpok` it leaves the receive side alone. -/
theorem segment_served (synchronised : TcpState.established.number ≤ conn.tcb.state.number)
    (bare : inbound.segment.offset = tcphoffset) :
    Served conn (connStep conn (.segment inbound))
        { inbound with segment := (tcpok conn.tcb inbound.segment).2 } ∧
      ((tcpok conn.tcb inbound.segment).1 = true ∨
        (connStep conn (.segment inbound)).tcb.intake = conn.tcb.intake) := by
  have alive : conn.tcb.state ≠ .free := by
    intro free
    simp [free, TcpState.number] at synchronised
  have offset : (tcpok conn.tcb inbound.segment).2.offset = tcphoffset := by
    rw [← bare]
    unfold tcpok
    simp only
    split_ifs <;> rfl
  have header : (tcpok conn.tcb inbound.segment).2.hlen = tcpmhlen := by
    rw [Segment.hlen, offset]
    decide
  rw [connStep, tcpinp, if_neg alive]
  simp only
  split
  · rename_i accepted
    rw [tcpopts, if_pos header]
    exact ⟨tcpswitch_served synchronised, Or.inl accepted⟩
  · refine ⟨tcpackit_served _, Or.inr ?_⟩
    rcases @tcpackit_view conn (tcpok conn.tcb inbound.segment).2 with
      same | ⟨reply, _, same⟩
    · exact congrArg View.intake same
    · exact congrArg View.intake same

end Handlers

/-! ## What an end does by itself -/

/-- What is sent is sent from the receive side as it is. -/
structure Own (conn after : Conn) : Prop where
  replies : after.trace.replies = conn.trace.replies
  suna : after.tcb.suna = conn.tcb.suna
  sends : ∃ more, after.trace.sends = conn.trace.sends ++ more ∧
    ∀ send ∈ more, send.1.intake = conn.tcb.intake
  intake : after.tcb.error.isSome = true ∨ after.tcb.intake = conn.tcb.intake

section Output

variable {conn mid after : Conn}

theorem own_of_view (same : after.view = conn.view) : Own conn after where
  replies := congrArg View.replies same
  suna := congrArg View.suna same
  sends := ⟨[], (congrArg View.sends same).trans (List.append_nil _).symm, by simp⟩
  intake := Or.inr (congrArg View.intake same)

theorem Own.of_view (own : Own conn mid) (same : after.view = mid.view) : Own conn after := by
  have intake : after.tcb.intake = mid.tcb.intake := congrArg View.intake same
  have error : after.tcb.error = mid.tcb.error := congrArg Intake.error intake
  constructor
  · exact (congrArg View.replies same).trans own.replies
  · exact (congrArg View.suna same).trans own.suna
  · rw [show after.trace.sends = mid.trace.sends from congrArg View.sends same]
    exact own.sends
  · rw [intake, error]
    exact own.intake

theorem Own.trans (own : Own conn mid) (same : mid.tcb.intake = conn.tcb.intake)
    (further : Own mid after) : Own conn after := by
  rcases own.sends with ⟨first, sent, known⟩
  rcases further.sends with ⟨second, later, others⟩
  refine ⟨further.replies.trans own.replies, further.suna.trans own.suna,
    ⟨first ++ second, ?_, ?_⟩, ?_⟩
  · rw [later, sent, List.append_assoc]
  · intro send member
    rcases List.mem_append.mp member with early | late
    · exact known send early
    · exact (others send late).trans same
  · rw [← same]
    exact further.intake

theorem tcpsent_intake (tcb : Tcb) (rexmt : Bool) : (tcpsent tcb rexmt).intake = tcb.intake := by
  unfold tcpsent tcprwindow
  split <;> rfl

theorem tcpsent_suna (tcb : Tcb) (rexmt : Bool) : (tcpsent tcb rexmt).suna = tcb.suna := by
  unfold tcpsent tcprwindow
  split <;> rfl

theorem tcpsend_own (rexmt : Bool) :
    Own conn (tcpsend conn rexmt) ∧ (tcpsend conn rexmt).tcb.intake = conn.tcb.intake := by
  have intake : (tcpsend conn rexmt).tcb.intake = conn.tcb.intake := by
    rw [tcpsend_tcb]
    exact tcpsent_intake conn.tcb rexmt
  refine ⟨⟨?_, ?_, ⟨_, tcpsend_sends conn rexmt, by simp⟩, Or.inr intake⟩, intake⟩
  · unfold tcpsend
    simp only
    split <;> rfl
  · rw [tcpsend_tcb]
    exact tcpsent_suna conn.tcb rexmt

/-- Only what the view shows of the start counts. -/
theorem Own.from_view (own : Own mid after) (same : mid.view = conn.view) : Own conn after := by
  have replies : mid.trace.replies = conn.trace.replies := congrArg View.replies same
  have suna : mid.tcb.suna = conn.tcb.suna := congrArg View.suna same
  have sends : mid.trace.sends = conn.trace.sends := congrArg View.sends same
  have intake : mid.tcb.intake = conn.tcb.intake := congrArg View.intake same
  constructor
  · exact own.replies.trans replies
  · exact own.suna.trans suna
  · rw [← sends, ← intake]
    exact own.sends
  · rw [← intake]
    exact own.intake

theorem tcprexmt_own (event : OutEvent) : Own conn (tcprexmt conn event) := by
  unfold tcprexmt
  simp only
  split_ifs
  · exact own_of_view rfl
  · exact ⟨rfl, rfl, ⟨[], (List.append_nil _).symm, by simp⟩, Or.inl rfl⟩
  · set counted : Conn := { conn with
      tcb := { conn.tcb with rexmtcount := conn.tcb.rexmtcount + 1 } }
    have sent : Own conn (tcpsend counted true) := (tcpsend_own true).1.from_view rfl
    exact sent.of_view rfl

theorem tcpxmitloop_own (window : Int) (fuel : Nat)
    (ended : tcpxmitloop window fuel conn = some after) : Own conn after := by
  induction fuel generalizing conn with
  | zero => simp [tcpxmitloop] at ended
  | succ fuel ih =>
      rw [tcpxmitloop] at ended
      split at ended
      · have sent := @tcpsend_own conn false
        exact sent.1.trans sent.2 (ih ended)
      · cases ended
        exact own_of_view rfl

theorem tcpxmitidle_own : Own conn (tcpxmitidle conn) := by
  have sent : Own conn (if conn.tcb.flags.needout then tcpsend conn false else conn) := by
    split
    · exact (tcpsend_own false).1
    · exact own_of_view rfl
  unfold tcpxmitidle
  simp only
  generalize (if conn.tcb.flags.needout then tcpsend conn false else conn) = next at sent ⊢
  split
  · exact sent
  · exact sent.of_view (startTimer_view next)

theorem tcpxmit_own (fuel : Nat) (event : OutEvent)
    (ended : tcpxmit fuel conn event = some after) : Own conn after := by
  unfold tcpxmit at ended
  simp only at ended
  split_ifs at ended
  · cases ended
    have sent : Own conn (tcprexmt (conn.clearTimer .send) event) :=
      (tcprexmt_own event).from_view (clearTimer_view conn .send)
    exact sent.of_view rfl
  · cases ended
    exact tcpxmitidle_own
  · cases ended
    have sent : Own conn (tcpsend { conn with tcb := { conn.tcb with
        ostate := .persist
        persist := conn.tcb.rexmt } } false) := (tcpsend_own false).1.from_view rfl
    exact sent.of_view rfl
  · rw [Option.map_eq_some_iff] at ended
    obtain ⟨last, loop, rfl⟩ := ended
    have sent : Own conn last := (tcpxmitloop_own _ fuel loop).from_view rfl
    exact sent.of_view (startTimer_view last)

theorem tcppersist_own (event : OutEvent) : Own conn (tcppersist conn event) := by
  unfold tcppersist
  simp only
  split
  · exact own_of_view rfl
  · exact (tcpsend_own true).1.of_view rfl

theorem tcposwitch_own (fuel : Nat) (event : OutEvent)
    (ended : tcposwitch fuel conn event = some after) : Own conn after := by
  unfold tcposwitch at ended
  split at ended
  · unfold tcpidle at ended
    split at ended
    · exact tcpxmit_own fuel event ended
    · cases ended
      exact own_of_view rfl
  · cases ended
    exact tcppersist_own event
  · exact tcpxmit_own fuel event ended
  · cases ended
    exact tcprexmt_own event

theorem tcpout_own (fuel : Nat) (ended : tcpout fuel conn = some after) : Own conn after := by
  unfold tcpout at ended
  split at ended
  · cases ended
    exact own_of_view rfl
  · rename_i event tcbnum rest _
    simp only at ended
    split_ifs at ended
    · cases ended
      exact own_of_view rfl
    · cases ended
      exact own_of_view rfl
    · cases ended
      exact own_of_view (tcbdealloc_view { conn with oport := rest })
    · exact (tcposwitch_own fuel event ended).from_view rfl

theorem tcpgetspace_own (index : Nat) : Own conn (tcpgetspace conn index) := by
  unfold tcpgetspace
  split
  · exact own_of_view rfl
  · rename_i octets isurg _
    simp only
    split_ifs
    · exact own_of_view rfl
    · have stored : Own conn { conn with
          writers := conn.writers.eraseIdx index
          tcb := tcpstored conn.tcb octets isurg
          trace := { conn.trace with writes := conn.trace.writes ++ [(conn.tcb, octets)] } } :=
        ⟨rfl, rfl, ⟨[], (List.append_nil _).symm, by simp⟩, Or.inr rfl⟩
      unfold tcpwr
      simp only
      split_ifs
      · exact own_of_view rfl
      · exact stored.of_view (tcpkick_view _)
      · exact stored
    · exact own_of_view rfl

theorem tcpclose_view : (tcpclose conn).view = conn.view := by
  unfold tcpclose
  split_ifs
  · rfl
  · exact tcbdealloc_view conn
  · exact tcpkick_view _

/-- The events that bring no segment and take no data. -/
def Event.inner : Event → Bool
  | .segment _ => false
  | .read _ => false
  | _ => true

def Event.isRead : Event → Bool
  | .read _ => true
  | _ => false

theorem step_own (event : Event) (inner : event.inner = true) : Own conn (connStep conn event) := by
  cases event with
  | segment inbound => cases inner
  | read len => cases inner
  | output fuel =>
      rw [connStep]
      cases ended : tcpout fuel conn with
      | none => exact own_of_view rfl
      | some after => exact tcpout_own fuel ended
  | tick delta => exact own_of_view rfl
  | clock ctr100 => exact own_of_view rfl
  | write octets isurg =>
      apply own_of_view
      rw [connStep, tcpwrcall]
      split_ifs <;> rfl
  | resume index => exact tcpgetspace_own index
  | close => exact own_of_view tcpclose_view
  | closeEnd =>
      apply own_of_view
      rw [connStep, tcpcloseend]
      split
      · exact tcbdealloc_view conn
      · rfl
  | option set delack buffer => exact own_of_view rfl
  | otherKick event tcbnum =>
      apply own_of_view
      rw [connStep]
      split <;> rfl
  | otherSet key time =>
      apply own_of_view
      rw [connStep]
      split <;> rfl
  | otherClear key =>
      apply own_of_view
      rw [connStep]
      split <;> rfl

theorem tcpread_tcb (conn : Conn) (len : Word) :
    (tcpread conn len).tcb = (tcpgetdata conn.tcb len).2.1 ∧
      (tcpread conn len).trace.sends = conn.trace.sends ∧
      (tcpread conn len).trace.replies = conn.trace.replies := by
  unfold tcpread
  simp only
  split
  · unfold tcpkick
    split <;> exact ⟨rfl, rfl, rfl⟩
  · exact ⟨rfl, rfl, rfl⟩

end Output

end MvsXinu.Tcp
