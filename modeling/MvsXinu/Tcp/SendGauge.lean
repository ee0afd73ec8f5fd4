import MvsXinu.Tcp.Handshake

/-!
# Windows, timeouts and the urgent pointer

What a step does to the rest of the send side: the windows and the segment size, the round trip
estimate, and the urgent pointer. Segments change it in a fixed order (the options, then an
acceptable acknowledgement, then the window), the output process only after a timeout.
-/

namespace MvsXinu.Tcp

open MvsXinu.SeqSpace

set_option autoImplicit false

structure Gauge where
  supok : Bool
  supseq : Tcpseq
  suna : Tcpseq
  smss : Word
  cwnd : Word
  ssthresh : Word
  swindow : Word
  srt : Int
  rtde : Int
  rexmt : Int
  rexmtcount : Nat
  ostate : OutState

def Tcb.gauge (tcb : Tcb) : Gauge where
  supok := tcb.flags.supok
  supseq := tcb.supseq
  suna := tcb.suna
  smss := tcb.smss
  cwnd := tcb.cwnd
  ssthresh := tcb.ssthresh
  swindow := tcb.swindow
  srt := tcb.srt
  rtde := tcb.rtde
  rexmt := tcb.rexmt
  rexmtcount := tcb.rexmtcount
  ostate := tcb.ostate

/-- The gauges with the record of the sends and of the acknowledgements looked at. -/
structure Readings where
  gauge : Gauge
  sends : List (Tcb × Bool)
  acks : List (Tcb × Segment)

def Conn.readings (conn : Conn) : Readings where
  gauge := conn.tcb.gauge
  sends := conn.trace.sends
  acks := conn.trace.acks

theorem gauge_of_sending {tcb other : Tcb} (same : tcb.sending = other.sending) :
    tcb.gauge = other.gauge := by
  change tcb.sending.gauge = other.sending.gauge
  rw [same]

section Quiet

variable (conn : Conn)

@[simp] theorem setTimer_readings (event : OutEvent) (time : Int) :
    (conn.setTimer event time).readings = conn.readings := rfl

@[simp] theorem clearTimer_readings (event : OutEvent) :
    (conn.clearTimer event).readings = conn.readings := rfl

@[simp] theorem startTimer_readings : conn.startTimer.readings = conn.readings := by
  simp only [Conn.startTimer]
  split <;> rfl

@[simp] theorem tcpkick_readings : (tcpkick conn).readings = conn.readings := by
  simp only [tcpkick]
  split <;> rfl

@[simp] theorem tcpkilltimers_readings : (tcpkilltimers conn).readings = conn.readings := rfl

@[simp] theorem tcpwait_readings : (tcpwait conn).readings = conn.readings := rfl

@[simp] theorem tcpabort_readings (error : TcpError) :
    (tcpabort conn error).readings = conn.readings := rfl

@[simp] theorem tcbdealloc_readings : (tcbdealloc conn).readings = conn.readings := by
  simp only [tcbdealloc]
  split <;> rfl

@[simp] theorem enter_readings (state : TcpState) :
    (conn.enter state).readings = conn.readings := rfl

@[simp] theorem reply_readings (segment : Segment) :
    (conn.reply segment).readings = conn.readings := rfl

@[simp] theorem tcpreset_readings (segment : Segment) :
    (tcpreset conn segment).readings = conn.readings := by
  simp only [tcpreset]
  split <;> rfl

theorem readings_with_tcb {tcb : Tcb} (same : tcb.sending = conn.tcb.sending) :
    ({ conn with tcb := tcb } : Conn).readings = conn.readings := by
  simp only [Conn.readings, gauge_of_sending same]

@[simp] theorem tcpackit_readings (segment : Segment) :
    (tcpackit conn segment).readings = conn.readings := by
  simp only [tcpackit]
  split
  · rfl
  · split
    · rfl
    · exact readings_with_tcb conn (tcprwindow_sending conn.tcb)

@[simp] theorem tcpdeliver_readings (inbound : Inbound) :
    (tcpdeliver conn inbound).readings = conn.readings := by
  have delivered := readings_with_tcb conn
    (tcpdata_sending conn.tcb inbound.segment inbound.newqOk)
  simp only [tcpdeliver]
  split
  · rw [tcpkick_readings, delivered]
  · exact delivered

@[simp] theorem tcpread_readings (len : Word) : (tcpread conn len).readings = conn.readings := by
  have copied := readings_with_tcb conn (tcpgetdata_sending conn.tcb len)
  simp only [tcpread]
  split
  · rw [tcpkick_readings, copied]
  · exact copied

end Quiet

/-! ## Segments -/

/-- The window is the peer's, and the output state may follow it. -/
def Windowed (before after : Readings) : Prop :=
  ∃ swindow ostate, after =
      { before with gauge := { before.gauge with swindow := swindow, ostate := ostate } } ∧
    (swindow = before.gauge.swindow ∨ swindow.toNat ≤ 65535)

theorem Windowed.of_eq {before after : Readings} (same : after = before) :
    Windowed before after := by
  rw [same]
  exact ⟨_, _, rfl, Or.inl rfl⟩

theorem Windowed.trans {before middle after : Readings} (first : Windowed before middle)
    (second : Windowed middle after) : Windowed before after := by
  rcases first with ⟨swindow, ostate, rfl, source⟩
  rcases second with ⟨last, final, rfl, further⟩
  refine ⟨last, final, rfl, ?_⟩
  rcases further with same | small
  · rcases source with kept | below
    · exact Or.inl (same.trans kept)
    · right
      rw [same]
      exact below
  · exact Or.inr small

theorem window_small (segment : Segment) : (segment.window.setWidth 32).toNat ≤ 65535 := by
  have bound := segment.window.isLt
  rw [BitVec.toNat_setWidth]
  omega

theorem tcpswindow_windowed (conn : Conn) (segment : Segment) :
    Windowed conn.readings (tcpswindow conn segment).readings := by
  have small := window_small segment
  simp only [tcpswindow]
  split_ifs
  · exact Windowed.of_eq rfl
  · exact Windowed.of_eq rfl
  · exact ⟨_, _, rfl, Or.inr small⟩
  · rw [tcpkick_readings]
    exact ⟨_, _, rfl, Or.inr small⟩
  · rw [tcpkick_readings]
    exact ⟨_, _, rfl, Or.inr small⟩

/-- The time that the retransmission timer has run, if it runs. -/
def Conn.roundTrip (conn : Conn) : Option Int :=
  (tmclear conn.ctr100 (conn.key .retransmit) conn.timers).1

/-- The control block after `tcprtt`. -/
def Tcb.timed (tcb : Tcb) (roundTrip : Option Int) : Tcb :=
  let sampled := match roundTrip with
    | none => tcb
    | some rrt => if tcb.ostate = OutState.rexmt then tcb else tcprttsample tcb rrt
  { sampled with cwnd := tcpcwnd sampled }

theorem timed_rexmtcount (tcb : Tcb) (roundTrip : Option Int) :
    (tcb.timed roundTrip).rexmtcount = tcb.rexmtcount := by
  simp only [Tcb.timed]
  split
  · rfl
  · split <;> rfl

/-- Acknowledged octets end a retransmission. -/
theorem tcpostate_readings (conn : Conn) (acked : Int) :
    ∃ ostate rexmtcount, (rexmtcount = conn.tcb.rexmtcount ∨ rexmtcount = 0) ∧
      (tcpostate conn acked).readings = { conn.readings with
        gauge := { conn.tcb.gauge with ostate := ostate, rexmtcount := rexmtcount } } := by
  simp only [tcpostate]
  split
  · exact ⟨_, _, Or.inl rfl, rfl⟩
  · split
    · split
      · exact ⟨_, _, Or.inr rfl, rfl⟩
      · rw [tcpkick_readings]
        exact ⟨_, _, Or.inr rfl, rfl⟩
    · split
      · exact ⟨_, _, Or.inl rfl, rfl⟩
      · rw [tcpkick_readings]
        exact ⟨_, _, Or.inl rfl, rfl⟩

/-- An acknowledgement of something sent and not yet acknowledged. -/
def AcksNew (tcb : Tcb) (segment : Segment) : Prop :=
  0 < seqcmp segment.ack tcb.suna ∧ seqcmp segment.ack tcb.snext ≤ 0

instance (tcb : Tcb) (segment : Segment) : Decidable (AcksNew tcb segment) :=
  inferInstanceAs (Decidable (_ ∧ _))

/-- What an acknowledgement does once it is looked at. -/
structure Acked (conn : Conn) (segment : Segment) (readings : Readings) : Prop where
  sends : readings.sends = conn.trace.sends
  acks : readings.acks = conn.trace.acks ++ [(conn.tcb, segment)]
  other : ¬ AcksNew conn.tcb segment → readings.gauge = conn.tcb.gauge
  accepted : AcksNew conn.tcb segment → ∃ ostate rexmtcount,
    (rexmtcount = conn.tcb.rexmtcount ∨ rexmtcount = 0) ∧
      readings.gauge = { (tcpaccepted (conn.tcb.timed conn.roundTrip) segment.ack).gauge with
        ostate := ostate, rexmtcount := rexmtcount }

/-- `tcpacked` on a segment with the ACK bit. -/
theorem tcpacked_looked (conn : Conn) (segment : Segment) (flag : segment.code.ack = true) :
    (tcpacked conn segment).2 =
      let conn := { conn with trace := { conn.trace with
        acks := conn.trace.acks ++ [(conn.tcb, segment)] } }
      if seqcmp segment.ack conn.tcb.suna ≤ 0 then conn
      else if 0 < seqcmp segment.ack conn.tcb.snext then
        if conn.tcb.state = .synrcvd then tcpreset conn segment else tcpackit conn segment
      else
        let conn := tcprtt conn
        let controls : Int := (if tcpackedsyn conn.tcb then 1 else 0) +
          (if tcpackedfin conn.tcb segment.ack then 1 else 0)
        tcpostate { conn with tcb := tcpaccepted conn.tcb segment.ack }
          (tcpackedlen conn.tcb segment.ack + controls) := by
  simp only [tcpacked, flag, Bool.not_true, Bool.false_eq_true, if_false]
  split
  · rfl
  · split <;> rfl

theorem tcpacked_acked (conn : Conn) (segment : Segment) (flag : segment.code.ack = true) :
    Acked conn segment (tcpacked conn segment).2.readings := by
  have looked := tcpacked_looked conn segment flag
  by_cases old : seqcmp segment.ack conn.tcb.suna ≤ 0
  · have same : (tcpacked conn segment).2.readings =
        { conn.readings with acks := conn.trace.acks ++ [(conn.tcb, segment)] } := by
      rw [looked, if_pos old]
      rfl
    have notNew : ¬ AcksNew conn.tcb segment := by
      rintro ⟨new, _⟩
      omega
    rw [same]
    exact ⟨rfl, rfl, fun _ => rfl, fun acceptable => absurd acceptable notNew⟩
  · by_cases new : 0 < seqcmp segment.ack conn.tcb.snext
    · have same : (tcpacked conn segment).2.readings =
          { conn.readings with acks := conn.trace.acks ++ [(conn.tcb, segment)] } := by
        rw [looked, if_neg old, if_pos new]
        split
        · rw [tcpreset_readings]
          rfl
        · rw [tcpackit_readings]
          rfl
      have notKnown : ¬ AcksNew conn.tcb segment := by
        rintro ⟨_, known⟩
        omega
      rw [same]
      exact ⟨rfl, rfl, fun _ => rfl, fun acceptable => absurd acceptable notKnown⟩
    · have acceptable : AcksNew conn.tcb segment := ⟨by omega, by omega⟩
      set timed := tcprtt { conn with trace := { conn.trace with
        acks := conn.trace.acks ++ [(conn.tcb, segment)] } } with isTimed
      have block : timed.tcb = conn.tcb.timed conn.roundTrip := rfl
      rcases tcpostate_readings { timed with tcb := tcpaccepted timed.tcb segment.ack }
        (tcpackedlen timed.tcb segment.ack + ((if tcpackedsyn timed.tcb then 1 else 0) +
          (if tcpackedfin timed.tcb segment.ack then 1 else 0)))
        with ⟨ostate, rexmtcount, source, readings⟩
      have same : (tcpacked conn segment).2.readings =
          { sends := conn.trace.sends
            acks := conn.trace.acks ++ [(conn.tcb, segment)]
            gauge := { (tcpaccepted (conn.tcb.timed conn.roundTrip) segment.ack).gauge with
              ostate := ostate, rexmtcount := rexmtcount } } := by
        rw [looked, if_neg old, if_neg new]
        exact readings
      have counted : (tcpaccepted timed.tcb segment.ack).rexmtcount = conn.tcb.rexmtcount := by
        show timed.tcb.rexmtcount = _
        rw [block]
        exact timed_rexmtcount conn.tcb conn.roundTrip
      rw [same]
      refine ⟨rfl, rfl, fun other => absurd acceptable other, ?_⟩
      intro _
      exact ⟨ostate, rexmtcount, by rw [← counted]; exact source, rfl⟩

def newAcks (conn : Conn) (event : Event) : List (Tcb × Segment) :=
  (connStep conn event).trace.acks.drop conn.trace.acks.length

theorem no_new_acks {conn : Conn} {event : Event}
    (same : (connStep conn event).trace.acks = conn.trace.acks) : newAcks conn event = [] := by
  rw [newAcks, same, List.drop_length]

/-! ## The handlers -/

/-- A segment is put aside, or its acknowledgement is looked at once, between two changes of the
window. -/
inductive Handled (conn : Conn) (segment : Segment) (after : Conn) : Prop where
  | aside (same : Windowed conn.readings after.readings)
  | acked (start middle : Conn) (opened : Windowed conn.readings start.readings)
      (ostate : start.tcb.ostate = conn.tcb.ostate) (clock : start.roundTrip = conn.roundTrip)
      (flag : segment.code.ack = true) (looked : Acked start segment middle.readings)
      (closed : Windowed middle.readings after.readings)

section Handlers

variable {conn : Conn} {inbound : Inbound}

theorem Handled.of_eq {segment : Segment} {after : Conn} (same : after.readings = conn.readings) :
    Handled conn segment after :=
  Handled.aside (Windowed.of_eq same)

/-- What follows the acknowledgement changes the window only. -/
theorem handled_rest {after : Conn}
    (rest : Windowed (tcpacked conn inbound.segment).2.readings after.readings) :
    Handled conn inbound.segment after := by
  cases flag : inbound.segment.code.ack with
  | false =>
      rw [tcpacked_without_flag conn inbound.segment flag] at rest
      exact Handled.aside rest
  | true =>
      exact Handled.acked conn _ (Windowed.of_eq rfl) rfl rfl flag
        (tcpacked_acked conn inbound.segment flag) rest

theorem aborts_handled {rest : Conn} (handled : Handled conn inbound.segment rest) :
    Handled conn inbound.segment ((tcpaborts conn inbound.segment).getD rest) := by
  simp only [tcpaborts]
  split
  · exact Handled.of_eq rfl
  · split
    · apply Handled.of_eq
      simp only [Option.getD_some, tcpabort_readings, tcpreset_readings]
    · exact handled

theorem frees_handled {rest : Conn} (handled : Handled conn inbound.segment rest) :
    Handled conn inbound.segment ((tcpfrees conn inbound.segment).getD rest) := by
  simp only [tcpfrees]
  split
  · apply Handled.of_eq
    simp only [Option.getD_some, tcbdealloc_readings]
  · split
    · apply Handled.of_eq
      simp only [Option.getD_some, tcbdealloc_readings, tcpreset_readings]
    · exact handled

/-- The part that the handlers of the synchronised states share. -/
theorem handled_window : Windowed (tcpacked conn inbound.segment).2.readings
    (tcpswindow (tcpdeliver (tcpacked conn inbound.segment).2 inbound)
      inbound.segment).readings := by
  have window := tcpswindow_windowed (tcpdeliver (tcpacked conn inbound.segment).2 inbound)
    inbound.segment
  rw [tcpdeliver_readings] at window
  exact window

variable (conn inbound)

theorem tcpsynsent_handled : Handled conn inbound.segment (tcpsynsent conn inbound) := by
  simp only [tcpsynsent]
  split
  · apply Handled.of_eq
    exact tcpreset_readings conn inbound.segment
  · split
    · exact Handled.of_eq rfl
    · split
      · exact Handled.of_eq rfl
      · set start : Conn := { conn with tcb := { conn.tcb with
          swindow := inbound.segment.window.setWidth 32
          lwseq := inbound.segment.seq
          rnext := inbound.segment.seq
          cwin := inbound.segment.seq + conn.tcb.rbsize } }
        have opened : Windowed conn.readings start.readings :=
          ⟨_, _, rfl, Or.inr (window_small inbound.segment)⟩
        have same : ((tcpdeliver (tcpacked start inbound.segment).2 inbound).enter
            (if (tcpdeliver (tcpacked start inbound.segment).2 inbound).tcb.code.syn
              then .synrcvd else .established)).readings =
            (tcpacked start inbound.segment).2.readings := by
          rw [enter_readings, tcpdeliver_readings]
        cases flag : inbound.segment.code.ack with
        | false =>
            rw [tcpacked_without_flag start inbound.segment flag] at same ⊢
            apply Handled.aside
            rw [same]
            exact opened
        | true =>
            exact Handled.acked start _ opened rfl rfl flag
              (tcpacked_acked start inbound.segment flag) (Windowed.of_eq same)

theorem tcpsynopened_readings : (tcpsynopened conn inbound).readings = conn.readings := by
  simp only [tcpsynopened]
  split
  · rw [enter_readings, tcpdeliver_readings, enter_readings]
  · rw [tcpdeliver_readings, enter_readings]

theorem tcpsynrcvd_handled : Handled conn inbound.segment (tcpsynrcvd conn inbound) := by
  simp only [tcpsynrcvd]
  split_ifs
  · exact Handled.of_eq (tcbdealloc_readings conn)
  · exact Handled.of_eq rfl
  · apply Handled.of_eq
    rw [tcpabort_readings, tcpreset_readings]
  · exact handled_rest (Windowed.of_eq rfl)
  · apply handled_rest
    apply Windowed.of_eq
    rw [tcbdealloc_readings, tcpreset_readings]
  · apply handled_rest
    apply Windowed.of_eq
    rw [tcpsynopened_readings]

theorem tcpestablished_handled : Handled conn inbound.segment (tcpestablished conn inbound) := by
  simp only [tcpestablished]
  apply aborts_handled
  apply handled_rest
  split_ifs
  · exact Windowed.of_eq rfl
  · exact handled_window
  · exact handled_window

theorem tcpfin1_handled : Handled conn inbound.segment (tcpfin1 conn inbound) := by
  simp only [tcpfin1]
  apply aborts_handled
  apply handled_rest
  split_ifs
  · exact Windowed.of_eq rfl
  · exact handled_window
  · exact handled_window
  · exact handled_window
  · exact handled_window

theorem tcpfin2_handled : Handled conn inbound.segment (tcpfin2 conn inbound) := by
  simp only [tcpfin2]
  apply aborts_handled
  apply handled_rest
  apply Windowed.of_eq
  split_ifs
  · rfl
  · rw [tcpwait_readings, enter_readings, tcpdeliver_readings]
  · rw [tcpdeliver_readings]

theorem tcpclosewait_handled : Handled conn inbound.segment (tcpclosewait conn inbound) := by
  simp only [tcpclosewait]
  apply aborts_handled
  apply handled_rest
  exact tcpswindow_windowed (tcpacked conn inbound.segment).2 inbound.segment

theorem tcpclosing_handled : Handled conn inbound.segment (tcpclosing conn inbound) := by
  simp only [tcpclosing]
  apply frees_handled
  apply handled_rest
  apply Windowed.of_eq
  split
  · rfl
  · rw [tcpwait_readings, enter_readings]

theorem tcplastack_handled : Handled conn inbound.segment (tcplastack conn inbound) := by
  simp only [tcplastack]
  apply aborts_handled
  exact handled_rest (Windowed.of_eq rfl)

theorem tcptimewait_handled : Handled conn inbound.segment (tcptimewait conn inbound) := by
  simp only [tcptimewait]
  apply frees_handled
  apply handled_rest
  apply Windowed.of_eq
  rw [tcpwait_readings, tcpdeliver_readings]

theorem tcpswitch_handled : Handled conn inbound.segment (tcpswitch conn inbound) := by
  simp only [tcpswitch]
  split
  · exact Handled.of_eq rfl
  · exact Handled.of_eq (tcpreset_readings conn inbound.segment)
  · exact Handled.of_eq rfl
  · exact tcpsynsent_handled conn inbound
  · exact tcpsynrcvd_handled conn inbound
  · exact tcpestablished_handled conn inbound
  · exact tcpfin1_handled conn inbound
  · exact tcpfin2_handled conn inbound
  · exact tcpclosewait_handled conn inbound
  · exact tcplastack_handled conn inbound
  · exact tcpclosing_handled conn inbound
  · exact tcptimewait_handled conn inbound

/-- A segment is not taken, or it is acceptable, its options are read and the handler of the
state runs. -/
theorem segment_taken : (connStep conn (.segment inbound)).readings = conn.readings ∨
    (conn.tcb.state ≠ .free ∧ (tcpok conn.tcb inbound.segment).1 = true) ∧
    ∃ read : Tcb × Inbound,
      tcpopts conn.tcb { inbound with segment := (tcpok conn.tcb inbound.segment).2 } =
        some read ∧
      Handled { conn with tcb := read.1 } read.2.segment (connStep conn (.segment inbound)) := by
  simp only [connStep, tcpinp]
  split
  · exact Or.inl rfl
  · rename_i alive
    split
    · rename_i accepted
      cases ended : tcpopts conn.tcb { inbound with
        segment := (tcpok conn.tcb inbound.segment).2 } with
      | none => exact Or.inl rfl
      | some read =>
          exact Or.inr ⟨⟨alive, accepted⟩, read, rfl,
            tcpswitch_handled { conn with tcb := read.1 } read.2⟩
    · exact Or.inl (tcpackit_readings conn _)

theorem segment_handled : (connStep conn (.segment inbound)).readings = conn.readings ∨
    ∃ read : Tcb × Inbound,
      tcpopts conn.tcb { inbound with segment := (tcpok conn.tcb inbound.segment).2 } =
        some read ∧
      Handled { conn with tcb := read.1 } read.2.segment (connStep conn (.segment inbound)) :=
  (segment_taken conn inbound).imp_right And.right

end Handlers

/-! ## The output process -/

/-- A timeout shrinks the congestion window to a segment. -/
def Paced (before after : Gauge) : Prop :=
  ∃ ostate rexmtcount cwnd ssthresh,
    after = { before with
      ostate := ostate, rexmtcount := rexmtcount, cwnd := cwnd, ssthresh := ssthresh } ∧
    (cwnd = before.cwnd ∧ ssthresh = before.ssthresh ∨
      cwnd = before.smss ∧
        (ssthresh = before.smss ∨ ssthresh.toNat ≤ before.swindow.toNat))

theorem Paced.refl (gauge : Gauge) : Paced gauge gauge :=
  ⟨_, _, _, _, rfl, Or.inl ⟨rfl, rfl⟩⟩

theorem Paced.trans {before middle after : Gauge} (first : Paced before middle)
    (second : Paced middle after) : Paced before after := by
  rcases first with ⟨_, _, cwnd, ssthresh, rfl, source⟩
  rcases second with ⟨ostate, rexmtcount, last, limit, rfl, further⟩
  refine ⟨ostate, rexmtcount, last, limit, rfl, ?_⟩
  rcases further with ⟨sameWindow, sameLimit⟩ | slowed
  · rw [sameWindow, sameLimit]
    exact source
  · exact Or.inr slowed

/-- Segments are sent, and the rest of the send side is paced at most. -/
structure Emitting (conn after : Conn) : Prop where
  acks : after.trace.acks = conn.trace.acks
  sends : ∃ new, after.trace.sends = conn.trace.sends ++ new ∧
    ∀ send ∈ new, Paced conn.tcb.gauge send.1.gauge
  gauge : Paced conn.tcb.gauge after.tcb.gauge

theorem Emitting.silent {conn after : Conn} (acks : after.trace.acks = conn.trace.acks)
    (sends : after.trace.sends = conn.trace.sends)
    (gauge : Paced conn.tcb.gauge after.tcb.gauge) : Emitting conn after := by
  refine ⟨acks, ⟨[], ?_, ?_⟩, gauge⟩
  · rw [sends, List.append_nil]
  · intro send none
    exact absurd none List.not_mem_nil

theorem Emitting.of_readings {conn after : Conn} (same : after.readings = conn.readings) :
    Emitting conn after := by
  have gauge : after.tcb.gauge = conn.tcb.gauge := congrArg Readings.gauge same
  apply Emitting.silent (congrArg Readings.acks same) (congrArg Readings.sends same)
  rw [gauge]
  exact Paced.refl _

theorem Emitting.trans {conn middle after : Conn} (first : Emitting conn middle)
    (second : Emitting middle after) : Emitting conn after := by
  rcases first.sends with ⟨new, sent, paced⟩
  rcases second.sends with ⟨more, further, other⟩
  refine ⟨second.acks.trans first.acks, ⟨new ++ more, ?_, ?_⟩, first.gauge.trans second.gauge⟩
  · rw [further, sent, List.append_assoc]
  · intro send member
    rcases List.mem_append.mp member with old | late
    · exact paced send old
    · exact first.gauge.trans (other send late)

section Output

variable (conn : Conn)

theorem tcpsent_gauge (tcb : Tcb) (rexmt : Bool) : (tcpsent tcb rexmt).gauge = tcb.gauge := by
  simp only [tcpsent, tcprwindow]
  split <;> rfl

theorem tcpsend_emitting (rexmt : Bool) : Emitting conn (tcpsend conn rexmt) := by
  have gauge : (tcpsend conn rexmt).tcb.gauge = conn.tcb.gauge := by
    rw [tcpsend_tcb, tcpsent_gauge]
  have acks : (tcpsend conn rexmt).trace.acks = conn.trace.acks := by
    simp only [tcpsend]
    split <;> rfl
  refine ⟨acks, ⟨[(conn.tcb, rexmt)], tcpsend_sends conn rexmt, ?_⟩, ?_⟩
  · intro send member
    rw [List.mem_singleton.mp member]
    exact Paced.refl _
  · rw [gauge]
    exact Paced.refl _

/-- A change of the output state and the count of timeouts. -/
theorem counted_emitting (ostate : OutState) (rexmtcount : Nat) (persist : Int) :
    Emitting conn { conn with tcb := { conn.tcb with
      ostate := ostate, rexmtcount := rexmtcount, persist := persist } } :=
  Emitting.silent rfl rfl ⟨_, _, _, _, rfl, Or.inl ⟨rfl, rfl⟩⟩

theorem tcpcongested_paced (tcb : Tcb) : Paced tcb.gauge (tcpcongested tcb).gauge := by
  have least : ∀ limit : Word, (wordMin tcb.swindow limit / 2).toNat ≤ tcb.swindow.toNat := by
    intro limit
    have half := Nat.div_le_self (wordMin tcb.swindow limit).toNat 2
    rw [BitVec.toNat_udiv]
    refine half.trans ?_
    rw [wordMin]
    split <;> omega
  refine ⟨_, _, _, _, rfl, Or.inr ⟨rfl, ?_⟩⟩
  simp only [tcpcongested]
  split_ifs
  · exact Or.inl rfl
  · exact Or.inr (least _)
  · exact Or.inl rfl
  · exact Or.inr (least _)

theorem tcprexmt_emitting (event : OutEvent) : Emitting conn (tcprexmt conn event) := by
  simp only [tcprexmt]
  split_ifs
  · exact Emitting.of_readings rfl
  · exact (counted_emitting conn conn.tcb.ostate (conn.tcb.rexmtcount + 1) conn.tcb.persist).trans
      (Emitting.of_readings rfl)
  · have counted := counted_emitting conn conn.tcb.ostate (conn.tcb.rexmtcount + 1)
      conn.tcb.persist
    apply (counted.trans (tcpsend_emitting _ true)).trans
    exact Emitting.silent rfl rfl (tcpcongested_paced _)

theorem tcpxmitloop_emitting (window : Int) (fuel : Nat) (after : Conn)
    (ended : tcpxmitloop window fuel conn = some after) : Emitting conn after := by
  induction fuel generalizing conn with
  | zero => cases ended
  | succ fuel ih =>
      rw [tcpxmitloop] at ended
      split at ended
      · exact (tcpsend_emitting conn false).trans (ih _ ended)
      · cases ended
        exact Emitting.of_readings rfl

theorem tcpxmitidle_emitting : Emitting conn (tcpxmitidle conn) := by
  have sent : Emitting conn (if conn.tcb.flags.needout then tcpsend conn false else conn) := by
    split
    · exact tcpsend_emitting conn false
    · exact Emitting.of_readings rfl
  simp only [tcpxmitidle]
  generalize (if conn.tcb.flags.needout then tcpsend conn false else conn) = next at sent ⊢
  split
  · exact sent
  · exact sent.trans (Emitting.of_readings (startTimer_readings _))

theorem tcpxmitshut_emitting : Emitting conn (tcpxmitshut conn) := by
  have entered := counted_emitting conn .persist conn.tcb.rexmtcount conn.tcb.rexmt
  exact (entered.trans (tcpsend_emitting _ false)).trans (Emitting.of_readings rfl)

theorem tcpxmit_emitting (fuel : Nat) (event : OutEvent) (after : Conn)
    (ended : tcpxmit fuel conn event = some after) : Emitting conn after := by
  simp only [tcpxmit] at ended
  split_ifs at ended
  · cases ended
    have cleared : Emitting conn (conn.clearTimer .send) := Emitting.of_readings rfl
    exact (cleared.trans (tcprexmt_emitting _ event)).trans (counted_emitting _ _ _ _)
  · cases ended
    exact tcpxmitidle_emitting conn
  · cases ended
    exact tcpxmitshut_emitting conn
  · rw [Option.map_eq_some_iff] at ended
    rcases ended with ⟨last, loop, rfl⟩
    have entered := counted_emitting conn .xmit conn.tcb.rexmtcount conn.tcb.persist
    exact (entered.trans (tcpxmitloop_emitting _ _ fuel last loop)).trans
      (Emitting.of_readings (startTimer_readings last))

theorem tcppersist_emitting (event : OutEvent) : Emitting conn (tcppersist conn event) := by
  simp only [tcppersist]
  split
  · exact Emitting.of_readings rfl
  · exact ((tcpsend_emitting conn true).trans (counted_emitting _ _ _ _)).trans
      (Emitting.of_readings rfl)

theorem tcposwitch_emitting (fuel : Nat) (event : OutEvent) (after : Conn)
    (ended : tcposwitch fuel conn event = some after) : Emitting conn after := by
  simp only [tcposwitch, tcpidle] at ended
  split at ended
  · split at ended
    · exact tcpxmit_emitting conn fuel event after ended
    · cases ended
      exact Emitting.of_readings rfl
  · cases ended
    exact tcppersist_emitting conn event
  · exact tcpxmit_emitting conn fuel event after ended
  · cases ended
    exact tcprexmt_emitting conn event

theorem output_emitting (fuel : Nat) : Emitting conn (connStep conn (.output fuel)) := by
  simp only [connStep, tcpout]
  split
  · exact Emitting.of_readings rfl
  · rename_i event tcbnum rest _
    split_ifs
    · exact Emitting.of_readings rfl
    · exact Emitting.of_readings rfl
    · exact Emitting.of_readings (tcbdealloc_readings { conn with oport := rest })
    · cases ended : tcposwitch fuel { conn with oport := rest } event with
      | none => exact Emitting.of_readings rfl
      | some after =>
          have taken : Emitting conn { conn with oport := rest } := Emitting.of_readings rfl
          exact taken.trans (tcposwitch_emitting _ fuel event after ended)

end Output

/-! ## The other events -/

theorem tcpwrcall_readings (conn : Conn) (octets : List Octet) (isurg : Bool) :
    (tcpwrcall conn octets isurg).readings = conn.readings := by
  simp only [tcpwrcall]
  split_ifs <;> rfl

theorem tcpclose_readings (conn : Conn) : (tcpclose conn).readings = conn.readings := by
  simp only [tcpclose]
  split_ifs
  · rfl
  · exact tcbdealloc_readings conn
  · rw [tcpkick_readings]
    rfl

theorem tcpcloseend_readings (conn : Conn) : (tcpcloseend conn).readings = conn.readings := by
  simp only [tcpcloseend]
  split
  · exact tcbdealloc_readings conn
  · rfl

/-- The octets that the waiting call stores if it looks now, and whether they are urgent. -/
def Conn.stores (conn : Conn) (index : Nat) : Option (List Octet × Bool) :=
  match conn.writers[index]? with
  | none => none
  | some (octets, isurg) =>
      if conn.tcb.state = .free ∨ conn.tcb.error.isSome then none
      else if octets.length ≤ (conn.tcb.sbsize - conn.tcb.sbcount).toNat ∧ octets ≠ [] then
        some (octets, isurg)
      else none

theorem stores_step (conn : Conn) (index : Nat) :
    (connStep conn (.resume index)).tcb =
        (match conn.stores index with
        | none => conn.tcb
        | some (octets, isurg) => tcpstored conn.tcb octets isurg) ∧
      (connStep conn (.resume index)).trace.sends = conn.trace.sends ∧
      (connStep conn (.resume index)).trace.acks = conn.trace.acks := by
  simp only [connStep, tcpgetspace, Conn.stores]
  cases conn.writers[index]? with
  | none => exact ⟨rfl, rfl, rfl⟩
  | some writer =>
      rcases writer with ⟨octets, isurg⟩
      simp only
      split
      · exact ⟨rfl, rfl, rfl⟩
      · by_cases fits : octets.length ≤ (conn.tcb.sbsize - conn.tcb.sbcount).toNat
        · rw [if_pos fits]
          by_cases empty : octets = []
          · rw [if_neg (fun both => both.2 empty), tcpwr, if_pos empty]
            exact ⟨rfl, rfl, rfl⟩
          · rw [if_pos ⟨fits, empty⟩, tcpwr, if_neg empty]
            simp only [tcpkick]
            split_ifs <;> exact ⟨rfl, rfl, rfl⟩
        · rw [if_neg fits, if_neg (fun both => fits both.1)]
          exact ⟨rfl, rfl, rfl⟩

theorem stores_readings (conn : Conn) (index : Nat) :
    (connStep conn (.resume index)).readings =
      match conn.stores index with
      | none => conn.readings
      | some (octets, isurg) =>
          { conn.readings with gauge := { conn.tcb.gauge with
            supok := conn.tcb.flags.supok || isurg
            supseq := if isurg then conn.tcb.snext + BitVec.ofNat 32 octets.length - 1
              else conn.tcb.supseq } } := by
  rcases stores_step conn index with ⟨block, sends, acks⟩
  rw [Conn.readings, block, sends, acks]
  cases conn.stores index with
  | none => rfl
  | some write => rfl

/-- Events that neither bring a segment nor send nor store octets. -/
def Event.Idle : Event → Prop
  | .segment _ => False
  | .output _ => False
  | .resume _ => False
  | _ => True

theorem idle_readings (conn : Conn) (event : Event) (idle : event.Idle) :
    (connStep conn event).readings = conn.readings := by
  cases event with
  | segment inbound => exact absurd idle id
  | output fuel => exact absurd idle id
  | tick delta => rfl
  | clock ctr100 => rfl
  | write octets isurg => exact tcpwrcall_readings conn octets isurg
  | resume index => exact absurd idle id
  | close => exact tcpclose_readings conn
  | closeEnd => exact tcpcloseend_readings conn
  | read len => exact tcpread_readings conn len
  | option set delack buffer => rfl
  | otherKick event tcbnum =>
      rw [connStep]
      split <;> rfl
  | otherSet key time =>
      rw [connStep]
      split <;> rfl
  | otherClear key =>
      rw [connStep]
      split <;> rfl

end MvsXinu.Tcp
