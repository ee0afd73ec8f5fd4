import MvsXinu.Tcp.Flight

/-!
# The acknowledgement of the FIN

From `tcpclose` on: as long as the FIN is attached by the new-data path first, `snext`
counts it, and then `tcpacked` clears it on the acknowledgement of `slast + 1` and on no
other.
-/

namespace MvsXinu.Tcp

open MvsXinu.SeqSpace

set_option autoImplicit false

/-- No retransmission reached `slast` before the FIN was sent. -/
def FinByNewdata (sends : List (Tcb × Bool)) : Prop :=
  ∀ send ∈ sends, send.2 = true → send.1.flags.sndfin = true → send.1.code.fin = false →
    send.1.swindow.toNat < send.1.sbcount.toNat ∨ send.1.smss.toNat < send.1.sbcount.toNat

/-- Every acknowledgement looked at in FIN_WAIT_1 met a FIN that was sent. -/
def FinAwaited (acks : List (Tcb × Segment)) : Prop :=
  ∀ look ∈ acks, look.1.state = .finwait1 → look.1.code.fin = true

instance (sends : List (Tcb × Bool)) : Decidable (FinByNewdata sends) :=
  inferInstanceAs (Decidable (∀ send ∈ sends, _ → _ → _ → _))

instance (acks : List (Tcb × Segment)) : Decidable (FinAwaited acks) :=
  inferInstanceAs (Decidable (∀ look ∈ acks, _ → _))

/-- A segment with a FIN was emitted. -/
def FinSent (sends : List (Tcb × Bool)) : Prop :=
  ∃ send ∈ sends, (tcpsegment send.1 send.2).code.fin = true

/-- Behind `tcpclose`: the FIN is not acknowledged, or nothing is left to be. -/
structure Ending (main : Main) (count : Nat) : Prop where
  flight : Flight main.core count
  closed : ¬ Unclosed main.core.state
  counted : main.core.code.fin = true → count = main.core.sbcount.toNat + 1
  ended : main.core.sndfin = false →
    main.core.suna = main.core.slast + 1 ∧ main.core.sbcount.toNat = 0
  sent : FinSent main.sends → main.core.code.fin = true ∨ main.core.sndfin = false

theorem ended_count {main : Main} {count : Nat} (ending : Ending main count)
    (clear : main.core.sndfin = false) : count = 0 := by
  have empty := (ending.ended clear).2
  rcases ending.flight.within with some | ⟨fin, _⟩
  · omega
  · exact absurd (clear.symm.trans (ending.flight.asked fin)) (by decide)

theorem sendcode_keeps_fin (tcb : Tcb) (seq : Tcpseq) (len : Word) (fin : tcb.code.fin = true) :
    (tcpsendcode tcb seq len).fin = true := by
  unfold tcpsendcode
  split
  · rfl
  · exact fin

section Steps

variable {main : Main} {count : Nat}

/-- The count after a send, and that it holds the FIN if there is one. -/
theorem sent_counted {tcb : Tcb} (flight : Flight tcb.core count) (rexmt : Bool)
    (inside : rexmt = false → tcb.pending.toNat ≤ tcb.sbcount.toNat)
    (first : rexmt = true → tcb.flags.sndfin = true → tcb.code.fin = false →
      tcb.swindow.toNat < tcb.sbcount.toNat ∨ tcb.smss.toNat < tcb.sbcount.toNat)
    (counted : tcb.code.fin = true → count = tcb.sbcount.toNat + 1) :
    ∃ after, Flight (tcpsent tcb rexmt).core after ∧
      ((tcpsent tcb rexmt).core.code.fin = true → after = tcb.sbcount.toNat + 1) := by
  have fits := (sndlen_eq flight rexmt inside).2
  have fin := sendcode_fin flight _ _ _ (sendseq_eq flight rexmt) fits
  rw [tcpsent_core]
  cases rexmt with
  | false =>
      have sent := newdata_sent flight (inside rfl)
      rw [tcpsent_core] at sent
      refine ⟨_, sent, ?_⟩
      intro attached
      have offset : sendOffset false count = count := rfl
      change (tcpsendcode tcb tcb.snext (tcpsndlen tcb false).2).fin = true at attached
      rw [newdataCount, if_pos attached]
      rcases fin.mp attached with before | ⟨_, all⟩
      · have outstanding := counted before
        omega
      · omega
  | true =>
      have sent := rexmt_sent flight
      rw [tcpsent_core] at sent
      refine ⟨_, sent, ?_⟩
      intro attached
      have len := rexmt_len tcb
      have before : tcb.code.fin = true := by
        rcases fin.mp attached with before | ⟨sndfin, all⟩
        · exact before
        · by_contra clear
          have short := first rfl sndfin (eq_false_of_ne_true clear)
          rw [sndlen_to_nat] at all
          change 0 + _ = _ at all
          omega
      have outstanding := counted before
      rw [rexmtCount]
      omega

theorem ending_sent (ending : Ending main count) (tcb : Tcb) (found : tcb.core = main.core)
    (rexmt : Bool) (inside : rexmt = false → tcb.pending.toNat ≤ tcb.sbcount.toNat)
    (first : rexmt = true → tcb.flags.sndfin = true → tcb.code.fin = false →
      tcb.swindow.toNat < tcb.sbcount.toNat ∨ tcb.smss.toNat < tcb.sbcount.toNat) :
    ∃ after, Ending { main with
      core := (tcpsent tcb rexmt).core
      sends := main.sends ++ [(tcb, rexmt)] } after := by
  have flight := ending.flight
  have counted := ending.counted
  rw [← found] at flight counted
  obtain ⟨after, sent, attached⟩ := sent_counted flight rexmt inside first counted
  have core := tcpsent_core tcb rexmt
  rw [found] at core
  refine ⟨after, sent, ?_, ?_, ?_, ?_⟩
  · rw [core]
    exact ending.closed
  · intro fin
    have all := attached fin
    rw [core]
    exact all.trans (congrArg (fun core => core.sbcount.toNat + 1) found)
  · rw [core]
    exact ending.ended
  · rintro ⟨send, member, fin⟩
    rw [core]
    rcases List.mem_append.mp member with before | new
    · refine (ending.sent ⟨send, before, fin⟩).imp ?_ id
      intro outstanding
      have code : tcb.code = main.core.code := congrArg Core.code found
      exact sendcode_keeps_fin tcb _ _ (by rw [code]; exact outstanding)
    · rw [List.mem_singleton] at new
      subst new
      exact Or.inl fin

/-- With the FIN counted, everything sent ends behind `slast`. -/
theorem snext_of_fin {tcb : Tcb} (flight : Flight tcb.core count) (fin : tcb.code.fin = true)
    (counted : tcb.code.fin = true → count = tcb.sbcount.toNat + 1) :
    tcb.snext = tcb.slast + 1 := by
  have snext : tcb.snext = seqAt tcb.suna count := flight.snext
  have slast := slast_eq flight (flight.asked fin)
  have next := seq_at_add tcb.suna tcb.sbcount.toNat 1
  rw [snext, slast, counted fin]
  exact next.symm

theorem fin_counted {tcb : Tcb} {ack : Tcpseq} (flight : Flight tcb.core count)
    (counted : tcb.code.fin = true → count = tcb.sbcount.toNat + 1) :
    tcb.code.fin = true → ack = tcb.snext → tcb.snext ≠ tcb.slast := by
  intro fin _ same
  have next := snext_of_fin flight fin counted
  rw [same] at next
  have one : (1 : Word) = 0 := by
    have zero := (add_eq_left (a := tcb.slast)).mp next.symm
    exact zero
  exact absurd one (by decide)

theorem ending_accepted (ending : Ending main count) (tcb : Tcb) (found : tcb.core = main.core)
    (ack : Tcpseq) (new : 0 < seqcmp ack main.core.suna)
    (known : seqcmp ack main.core.snext ≤ 0) :
    ∃ after, Ending { main with core := (tcpaccepted tcb ack).core } after := by
  have flight := ending.flight
  have counted := ending.counted
  rw [← found] at flight counted new known
  obtain ⟨acked, octets, covers⟩ := covers_of_counted flight new known
    (fin_counted flight counted)
  have left := accepted_sbcount covers
  have stored := covers.stored
  have asked : tcb.flags.sndfin = true := by
    by_contra clear
    have none : main.core.sndfin = false :=
      (congrArg Core.sndfin found).symm.trans (eq_false_of_ne_true clear)
    have zero := ended_count ending none
    have positive := covers.positive
    have sent := covers.sent
    omega
  refine ⟨count - acked, accepted_flight flight covers, ?_, ?_, ?_, ?_⟩
  · have state : tcb.state = main.core.state := congrArg Core.state found
    change ¬ Unclosed tcb.state
    rw [state]
    exact ending.closed
  · change (tcpaccepted tcb ack).code.fin = true → _ = (tcpaccepted tcb ack).sbcount.toNat + 1
    intro fin
    rcases covers.cover with ⟨data, packed⟩ | ⟨_, _, _, packed⟩
    · have outstanding := counted ((accepted_nofin tcb ack packed).1.symm.trans fin)
      change _ = tcb.sbcount.toNat + 1 at outstanding
      omega
    · exact absurd ((accepted_fin tcb ack packed).1.symm.trans fin) (by decide)
  · change (tcpaccepted tcb ack).flags.sndfin = false → ack = tcb.slast + 1 ∧
      (tcpaccepted tcb ack).sbcount.toNat = 0
    intro clear
    rcases covers.cover with ⟨_, packed⟩ | ⟨_, all, last, packed⟩
    · have kept := (accepted_nofin tcb ack packed).2.symm.trans clear
      exact absurd (kept.symm.trans asked) (by decide)
    · have fin : tcb.code.fin = true := by
        simp only [tcpackedfin, Bool.and_eq_true] at packed
        exact packed.1
      have snext : tcb.snext = seqAt tcb.suna count := flight.snext
      refine ⟨?_, by omega⟩
      rw [covers.place, last, ← snext]
      exact snext_of_fin flight fin counted
  · change FinSent main.sends → (tcpaccepted tcb ack).code.fin = true ∨
      (tcpaccepted tcb ack).flags.sndfin = false
    intro sent
    rcases covers.cover with ⟨_, packed⟩ | ⟨_, _, _, packed⟩
    · rw [(accepted_nofin tcb ack packed).1, (accepted_nofin tcb ack packed).2]
      have before := ending.sent sent
      rw [← found] at before
      exact before
    · exact Or.inr (accepted_fin tcb ack packed).2

end Steps

/-- The conditions on what was done so far. -/
structure Main.Finishing (main : Main) : Prop where
  sends : NewdataInside main.sends
  first : FinByNewdata main.sends
  writes : WritesOpen main.writes

theorem finishing_before {main after : Main} (step : Micro main after)
    (finishing : after.Finishing) : main.Finishing := by
  obtain ⟨⟨sends, grownSends⟩, _, ⟨writes, grownWrites⟩⟩ := micro_grows step
  constructor
  · intro send member
    exact finishing.sends send (by simp [grownSends, member])
  · intro send member
    exact finishing.first send (by simp [grownSends, member])
  · intro write member
    exact finishing.writes write (by simp [grownWrites, member])

theorem ending_micro (main after : Main) (ending : main.Finishing → ∃ count, Ending main count)
    (step : Micro main after) (finishing : after.Finishing) : ∃ count, Ending after count := by
  obtain ⟨count, ending⟩ := ending (finishing_before step finishing)
  have unopened : ∀ tcb : Tcb, tcb.core = main.core →
      ¬ (tcb.state = .established ∨ tcb.state = .closewait) := by
    intro tcb found opened
    have state : tcb.state = main.core.state := congrArg Core.state found
    rw [state] at opened
    exact ending.closed (Or.inr (Or.inr opened))
  cases step with
  | sent tcb found rexmt =>
      exact ending_sent ending tcb found rexmt (finishing.sends (tcb, rexmt) (by simp))
        (finishing.first (tcb, rexmt) (by simp))
  | looked tcb found segment flag =>
      exact ⟨count, ending.flight, ending.closed, ending.counted, ending.ended, ending.sent⟩
  | accepted tcb found segment logged new known =>
      exact ending_accepted ending tcb found segment.ack new known
  | wrote tcb found octets isurg nonempty space =>
      exact absurd (finishing.writes (tcb, octets) (by simp)) (unopened tcb found)
  | closed tcb found opened => exact absurd opened (unopened tcb found)
  | entered state enters =>
      refine ⟨count, entered_flight ending.flight state enters, ?_, ending.counted, ending.ended,
        ending.sent⟩
      intro unclosed
      exact ending.closed (unclosed_before enters unclosed)

/-- A connection that `tcpclose` has just closed, with data in the buffer and in flight. The
record starts here. -/
structure JustClosed (conn : Conn) : Prop where
  state : conn.tcb.state = .finwait1 ∨ conn.tcb.state = .lastack
  syn : conn.tcb.code.syn = false
  fin : conn.tcb.code.fin = false
  sndfin : conn.tcb.flags.sndfin = true
  slast : conn.tcb.slast = conn.tcb.suna + conn.tcb.sbcount
  pending : conn.tcb.pending.toNat ≤ conn.tcb.sbcount.toNat
  sbsize : conn.tcb.sbsize = BitVec.ofNat 32 tcpsbs
  sbstart : conn.tcb.sbstart.toNat < tcpsbs
  sbcount : conn.tcb.sbcount.toNat ≤ tcpsbs
  trace : conn.trace = {}

/-- `tcpclose` leaves such a connection when no FIN was asked for before. -/
theorem tcpclose_just_closed (conn : Conn) (count : Nat) (flight : Flight conn.tcb.core count)
    (state : conn.tcb.state = .established ∨ conn.tcb.state = .closewait)
    (alive : conn.tcb.error = none) :
    JustClosed { tcpclose conn with trace := {} } := by
  have sndfin : conn.tcb.flags.sndfin = false := flight.unclosed (Or.inr (Or.inr state))
  have fin : conn.tcb.code.fin = false := by
    apply eq_false_of_ne_true
    intro fin
    exact absurd (sndfin.symm.trans (flight.asked fin)) (by decide)
  have pending : conn.tcb.pending.toNat ≤ conn.tcb.sbcount.toNat := by
    rw [pending_nat flight]
    rcases flight.within with some | ⟨attached, _⟩
    · exact some
    · exact absurd (fin.symm.trans attached) (by decide)
  have closing : (tcpclose conn).tcb = tcpclosedtcb conn.tcb := by
    unfold tcpclose
    rw [if_neg (by tauto), if_neg (by simp [alive]), tcpkick]
    split <;> rfl
  have moved : (tcpclosedtcb conn.tcb).state = .finwait1 ∨
      (tcpclosedtcb conn.tcb).state = .lastack := by
    unfold tcpclosedtcb
    simp only
    split
    · exact Or.inl rfl
    · exact Or.inr rfl
  constructor
  case trace => rfl
  all_goals simp only [closing]
  case state => exact moved
  case syn => exact flight.syn
  case fin => exact fin
  case sndfin => rfl
  case slast => rfl
  case pending => exact pending
  case sbsize => exact flight.sbsize
  case sbstart => exact flight.sbstart
  case sbcount => exact flight.sbcount

theorem just_closed_ending {conn : Conn} (closed : JustClosed conn) :
    Ending conn.main conn.tcb.pending.toNat := by
  have sends : conn.main.sends = [] := congrArg Trace.sends closed.trace
  have fin : conn.main.core.code.fin = false := closed.fin
  have sndfin : conn.main.core.sndfin = true := closed.sndfin
  have unclosed : ¬ Unclosed conn.tcb.state := by
    rcases closed.state with state | state <;> simp [Unclosed, state]
  constructor
  · constructor
    case syn => exact closed.syn
    case snext =>
      change conn.tcb.snext = seqAt conn.tcb.suna conn.tcb.pending.toNat
      have add := seq_at_add_word conn.tcb.suna 0 conn.tcb.pending
      rw [seq_at_zero, Int.zero_add] at add
      rw [← add, Tcb.pending]
      ring
    case sbsize => exact closed.sbsize
    case sbstart => exact closed.sbstart
    case sbcount => exact closed.sbcount
    case within => exact Or.inl closed.pending
    case asked => exact fun _ => sndfin
    case behind => simp [fin]
    case slast => exact fun _ => closed.slast
    case unclosed => exact fun state => absurd state unclosed
    case shut => simp [sndfin]
  · exact unclosed
  · simp [fin]
  · simp [sndfin]
  · simp [sends, FinSent]

/-- `tcpacked` takes the acknowledgement of `slast + 1` once a FIN was emitted. -/
def FinAccepted (conn : Conn) : Prop :=
  ∀ segment : Segment, segment.code.ack = true → segment.ack = conn.tcb.slast + 1 →
    FinSent conn.trace.sends →
    (tcpacked conn segment).2.tcb.suna = conn.tcb.slast + 1 ∧
      (tcpacked conn segment).2.tcb.code.fin = false ∧
      (tcpacked conn segment).2.tcb.flags.sndfin = false

/-- It clears nothing on one at or below `slast`. -/
def FinKept (conn : Conn) : Prop :=
  ∀ segment : Segment, seqcmp segment.ack conn.tcb.slast ≤ 0 →
    (tcpacked conn segment).2.tcb.code.fin = conn.tcb.code.fin ∧
      (tcpacked conn segment).2.tcb.flags.sndfin = conn.tcb.flags.sndfin

/-- And such a segment does not take FIN_WAIT_1 further. -/
def FinWaits (conn : Conn) (inbound : Inbound) : Prop :=
  conn.tcb.state = .finwait1 → seqcmp inbound.segment.ack conn.tcb.slast ≤ 0 →
    (connStep conn (.segment inbound)).tcb.state ≠ .finwait2 ∧
      (connStep conn (.segment inbound)).tcb.state ≠ .timewait

theorem main_fin {conn : Conn} {main : Main} (same : conn.main = main) :
    conn.tcb.suna = main.core.suna ∧ conn.tcb.code.fin = main.core.code.fin ∧
      conn.tcb.flags.sndfin = main.core.sndfin := by
  subst same
  exact ⟨rfl, rfl, rfl⟩

theorem fin_accepted {conn : Conn} {count : Nat} (ending : Ending conn.main count) :
    FinAccepted conn := by
  intro segment flag last sent
  have flight : Flight conn.tcb.core count := ending.flight
  rcases ending.sent sent with fin | clear
  · have fin : conn.tcb.code.fin = true := fin
    have counted := ending.counted
    have snext := snext_of_fin flight fin counted
    have whole : conn.tcb.snext = seqAt conn.tcb.suna count := flight.snext
    have few := flight_count flight
    have positive := counted fin
    have distance : seqcmp segment.ack conn.tcb.suna = count := by
      have apart := signed_dist_seq_at conn.tcb.suna count 0 (by omega) (by omega)
      rw [seq_at_zero] at apart
      rw [last, ← snext, whole, seqcmp, apart]
      omega
    have matched : seqcmp segment.ack conn.tcb.snext = 0 := by
      rw [last, ← snext]
      exact signed_dist_self _
    rcases tcpacked_with_flag conn segment flag with
      ⟨old, _⟩ | ⟨_, new, _⟩ | ⟨_, _, _, main⟩
    · omega
    · omega
    · obtain ⟨suna, cleared, asked⟩ := main_fin main
      have packed : tcpackedfin conn.tcb segment.ack = true := by
        simp [tcpackedfin, fin, matched]
      have after := accepted_fin conn.tcb segment.ack packed
      exact ⟨suna.trans last, cleared.trans after.1, asked.trans after.2⟩
  · have clear : conn.tcb.flags.sndfin = false := clear
    have suna : conn.tcb.suna = conn.tcb.slast + 1 := (ending.ended clear).1
    have fin : conn.tcb.code.fin = false := by
      apply eq_false_of_ne_true
      intro fin
      exact absurd (clear.symm.trans (flight.asked fin)) (by decide)
    have old : seqcmp segment.ack conn.tcb.suna = 0 := by
      rw [last, suna]
      exact signed_dist_self _
    rcases tcpacked_with_flag conn segment flag with
      ⟨_, _, main⟩ | ⟨new, _⟩ | ⟨new, _⟩
    · obtain ⟨same, cleared, asked⟩ := main_fin main
      exact ⟨same.trans suna, cleared.trans fin, asked.trans clear⟩
    · omega
    · omega

theorem fin_kept {conn : Conn} {count : Nat} (ending : Ending conn.main count) :
    FinKept conn := by
  intro segment low
  have flight : Flight conn.tcb.core count := ending.flight
  have same : ∀ main : Main, (tcpacked conn segment).2.main = main →
      main.core.code.fin = conn.tcb.code.fin → main.core.sndfin = conn.tcb.flags.sndfin →
      (tcpacked conn segment).2.tcb.code.fin = conn.tcb.code.fin ∧
        (tcpacked conn segment).2.tcb.flags.sndfin = conn.tcb.flags.sndfin := by
    intro main after fin sndfin
    have fields := main_fin after
    exact ⟨fields.2.1.trans fin, fields.2.2.trans sndfin⟩
  cases flag : segment.code.ack with
  | false =>
      rw [tcpacked_without_flag conn segment flag]
      exact ⟨rfl, rfl⟩
  | true =>
      rcases tcpacked_with_flag conn segment flag with
        ⟨_, _, main⟩ | ⟨_, _, _, main⟩ | ⟨_, _, _, main⟩
      · exact same _ main rfl rfl
      · exact same _ main rfl rfl
      · have packed : tcpackedfin conn.tcb segment.ack = false := by
          apply eq_false_of_ne_true
          intro packed
          simp only [tcpackedfin, Bool.and_eq_true, decide_eq_true_eq] at packed
          have last : segment.ack = conn.tcb.snext := (signed_dist_eq_zero _ _).mp packed.2
          have apart := signed_dist_seq_at conn.tcb.slast 1 0 (by omega) (by omega)
          rw [last, snext_of_fin flight packed.1 ending.counted, seqcmp] at low
          rw [seq_at_zero] at apart
          change signedDist (conn.tcb.slast + 1) conn.tcb.slast = 1 - 0 at apart
          omega
        have kept := accepted_nofin conn.tcb segment.ack packed
        exact same _ main kept.1 kept.2

/-- FIN_WAIT_1 is left for FIN_WAIT_2 or TIME_WAIT when `tcpacked` leaves no FIN. -/
theorem tcpfin1_moves (conn : Conn) (inbound : Inbound) (state : conn.tcb.state = .finwait1)
    (moved : (tcpfin1 conn inbound).tcb.state = .finwait2 ∨
      (tcpfin1 conn inbound).tcb.state = .timewait) :
    (conn.tcb, inbound.segment) ∈ (tcpfin1 conn inbound).trace.acks ∧
      (tcpacked conn inbound.segment).2.tcb.code.fin = false := by
  have stays := (tcpacked_state conn inbound.segment).trans state
  have handled := handled_main conn inbound
  have found := (main_state handled).trans stays
  have code := main_code handled
  unfold tcpfin1 at moved ⊢
  cases aborts : tcpaborts conn inbound.segment with
  | some after =>
      have same := main_state (tcpaborts_main conn after inbound.segment aborts)
      rw [aborts, Option.getD_some, same, state] at moved
      simp at moved
  | none =>
      rw [aborts, Option.getD_none] at moved
      rw [Option.getD_none]
      simp only at moved ⊢
      have looked : (tcpacked conn inbound.segment).1 ≠ sysErr →
          (conn.tcb, inbound.segment) ∈ (tcpswindow (tcpdeliver
            (tcpacked conn inbound.segment).2 inbound) inbound.segment).trace.acks := by
        intro taken
        have flag : inbound.segment.code.ack = true := by
          by_contra clear
          rw [tcpacked_without_flag conn inbound.segment (eq_false_of_ne_true clear)] at taken
          exact taken rfl
        have acks : (tcpswindow (tcpdeliver (tcpacked conn inbound.segment).2 inbound)
            inbound.segment).trace.acks = (tcpacked conn inbound.segment).2.main.acks :=
          congrArg Main.acks handled
        rw [acks]
        exact (tcpacked_syn conn inbound.segment flag).1
      split_ifs at moved ⊢ with refused done fin fin
      · simp [stays] at moved
      · simp [Conn.enter] at moved
      · exact ⟨looked refused, code ▸ eq_false_of_ne_true fin⟩
      · simp [found] at moved
      · exact ⟨looked refused, code ▸ eq_false_of_ne_true fin⟩

theorem fin_waits {conn : Conn} {count : Nat} (ending : Ending conn.main count)
    (inbound : Inbound)
    (awaited : FinAwaited (connStep conn (.segment inbound)).trace.acks) :
    FinWaits conn inbound := by
  intro state low
  have alive : conn.tcb.state ≠ .free := by simp [state]
  rcases segment_cases conn inbound alive with same | ⟨read, core, ack, _, after⟩
  · have stays := main_state same
    rw [stays, state]
    simp
  · have found : read.1.state = .finwait1 := (congrArg Core.state core).trans state
    have switched : tcpswitch { conn with tcb := read.1 } read.2 =
        tcpfin1 { conn with tcb := read.1 } read.2 := by
      simp [tcpswitch, found]
    rw [switched] at after
    rw [after] at awaited ⊢
    by_contra moved
    rw [← not_or, not_not] at moved
    obtain ⟨looked, cleared⟩ := tcpfin1_moves { conn with tcb := read.1 } read.2 found moved
    have main : ({ conn with tcb := read.1 } : Conn).main = conn.main :=
      congrArg (Main.mk · _ _ _) core
    rw [← main] at ending
    have fin : read.1.code.fin = true := awaited (read.1, read.2.segment) looked found
    have slast : read.1.slast = conn.tcb.slast := congrArg Core.slast core
    have kept := (fin_kept ending read.2.segment (by rw [ack, slast]; exact low)).1
    exact absurd (cleared.symm.trans (kept.trans fin)) (by decide)

theorem fin_acknowledged (start conn : Conn) (closed : JustClosed start)
    (reached : Runs.Reach connStep (fun _ _ => True) start conn)
    (inside : NewdataInside conn.trace.sends) (first : FinByNewdata conn.trace.sends)
    (writes : WritesOpen conn.trace.writes) :
    FinAccepted conn ∧ FinKept conn ∧
      ∀ inbound, FinAwaited (connStep conn (.segment inbound)).trace.acks →
        FinWaits conn inbound := by
  have kept := invariant_of_micro ending_micro reached
    (fun _ => ⟨_, just_closed_ending closed⟩)
  obtain ⟨count, ending⟩ := kept ⟨inside, first, writes⟩
  exact ⟨fin_accepted ending, fin_kept ending, fun inbound => fin_waits ending inbound⟩

/-- A closed connection with one octet in flight and `event` waiting for the output
process. -/
def closingConn (event : OutEvent) : Conn where
  tcb := {
    state := .finwait1
    ostate := .xmit
    flags := { sndfin := true, needout := true }
    iss := 100
    suna := 101
    snext := 102
    slast := 102
    lwseq := 500
    lwack := 101
    swindow := 100
    cwnd := 512
    ssthresh := 65535
    smss := 512
    rmss := 512
    rnext := 501
    cwin := 8693
    sbcount := 1 }
  tcbnum := 3
  oport := [(event, 3)]

theorem closing_just_closed (event : OutEvent) : JustClosed (closingConn event) := by
  constructor <;> simp [closingConn, tcpsbs, Tcb.pending]

/-- The output process sends the FIN as new data. -/
theorem newdata_fin_acknowledged :
    FinAccepted (connStep (closingConn .send) (.output 4)) ∧
      FinKept (connStep (closingConn .send) (.output 4)) ∧
      (connStep (connStep (closingConn .send) (.output 4)) (.segment { segment := {
        seq := 501
        ack := 103
        code := { ack := true } } })).tcb.state = .finwait2 := by
  have reached : Runs.Reach connStep (fun _ _ => True) (closingConn .send)
      (connStep (closingConn .send) (.output 4)) := Runs.Reach.step _ Runs.Reach.start trivial
  have acknowledged := fin_acknowledged _ _ (closing_just_closed .send) reached (by decide)
    (by decide) (by decide)
  exact ⟨acknowledged.1, acknowledged.2.1, by decide⟩

/-- A retransmission sends it first: `snext` does not count it, and the acknowledgement of
the FIN is taken for one that is too new. -/
theorem rexmt_fin_not_acknowledged :
    ¬ ∀ start conn : Conn, JustClosed start →
      Runs.Reach connStep (fun _ _ => True) start conn →
      FinAccepted conn ∧ FinKept conn ∧ ∀ inbound, FinWaits conn inbound := by
  intro claimed
  have reached : Runs.Reach connStep (fun _ _ => True) (closingConn .retransmit)
      (connStep (closingConn .retransmit) (.output 4)) :=
    Runs.Reach.step _ Runs.Reach.start trivial
  have accepted := (claimed _ _ (closing_just_closed .retransmit) reached).1
    { seq := 501, ack := 103, code := { ack := true } } rfl (by decide)
  have sent : FinSent (connStep (closingConn .retransmit) (.output 4)).trace.sends := by
    unfold FinSent
    decide
  have wrong := (accepted sent).2.1
  revert wrong
  decide

end MvsXinu.Tcp
