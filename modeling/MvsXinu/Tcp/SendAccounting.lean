import MvsXinu.Tcp.Flight

/-!
# Accounting of the send buffer

`Ledger` ties the send buffer to the octets written so far: the buffer holds those that
are not acknowledged, `suna` is the sequence number of the first of them, and each segment
carried the octets that belong at its sequence number. Once a FIN is acknowledged `suna`
is one number behind the stream.
-/

namespace MvsXinu.Tcp

open MvsXinu.SeqSpace

set_option autoImplicit false

/-- The octets that `tcpwr` has stored. -/
def written (writes : List (Tcb × List Octet)) : List Octet := (writes.map Prod.snd).flatten

theorem written_append (writes : List (Tcb × List Octet)) (tcb : Tcb) (octets : List Octet) :
    written (writes ++ [(tcb, octets)]) = written writes ++ octets := by
  simp [written]

/-- The octets of a segment are those of the stream at its sequence number. -/
def Placed (base : Tcpseq) (stream : List Octet) (send : Tcb × Bool) : Prop :=
  ∃ index : Nat, tcpsendseq send.1 send.2 = seqAt base index ∧
    tcpsenddata send.1 send.2 <+: stream.drop index

structure Ledger (base : Tcpseq) (main : Main) (acked count : Nat) : Prop where
  flight : Flight main.core count
  suna : main.core.suna = seqAt base acked
  stored : main.core.sbcount.toNat = (written main.writes).length - acked
  ring : Ring.load tcpsbs main.core.sndbuf main.core.sbstart.toNat main.core.sbcount.toNat =
    (written main.writes).drop acked
  within : acked ≤ (written main.writes).length ∨
    acked = (written main.writes).length + 1 ∧ main.core.sndfin = false ∧
      ¬ Unclosed main.core.state
  sends : ∀ send ∈ main.sends, Placed base (written main.writes) send

theorem placed_append {base : Tcpseq} {stream : List Octet} {send : Tcb × Bool}
    (placed : Placed base stream send) (more : List Octet) : Placed base (stream ++ more) send := by
  obtain ⟨index, seq, data⟩ := placed
  refine ⟨index, seq, data.trans ?_⟩
  rw [List.drop_append]
  exact List.prefix_append _ _

section Send

variable {tcb : Tcb} {count : Nat}

/-- `tcpsend` copies from the buffer, from the offset of the segment on. -/
theorem senddata_prefix_of (flight : Flight tcb.core count) (rexmt : Bool)
    (inside : rexmt = false → tcb.pending.toNat ≤ tcb.sbcount.toNat) :
    tcpsenddata tcb rexmt <+: (Ring.load tcpsbs tcb.sndbuf tcb.sbstart.toNat
      tcb.sbcount.toNat).drop (sendOffset rexmt count) := by
  obtain ⟨offset, fits⟩ := sndlen_eq flight rexmt inside
  have start : tcb.sbstart.toNat < 4096 := flight.sbstart
  have bound : tcb.sbcount.toNat ≤ 4096 := flight.sbcount
  have size : tcb.sbsize.toNat = 4096 := sbsize_nat flight.sbsize
  have small : (BitVec.ofNat 32 (sendOffset rexmt count)).toNat = sendOffset rexmt count := by
    rw [BitVec.toNat_ofNat]
    omega
  have slot : tcb.sbstart.toNat = tcb.sbstart.toNat % 4096 := (Nat.mod_eq_of_lt start).symm
  unfold tcpsenddata
  rw [offset, word_add_to_nat _ _ (by omega), small, size, tcpsbs]
  rw [slot, Ring.load_drop _ _ _ _ _ (by decide) (by omega), Nat.mod_eq_of_lt start,
    ← Ring.load_take 4096 tcb.sndbuf _ (tcb.sbcount.toNat - sendOffset rexmt count) _ (by decide)
      (by omega)]
  exact List.take_prefix _ _

end Send

section Steps

variable {base : Tcpseq} {main : Main} {acked count : Nat}

theorem seq_at_seq_at (base : Tcpseq) (left right : Nat) :
    seqAt (seqAt base left) right = seqAt base (left + right : Nat) := by
  rw [seqAt, seq_at_add]
  rfl

theorem ledger_sent (ledger : Ledger base main acked count) (tcb : Tcb)
    (found : tcb.core = main.core) (rexmt : Bool)
    (inside : rexmt = false → tcb.pending.toNat ≤ tcb.sbcount.toNat) :
    ∃ after, Ledger base { main with
      core := (tcpsent tcb rexmt).core
      sends := main.sends ++ [(tcb, rexmt)] } acked after := by
  have flight := ledger.flight
  rw [← found] at flight
  obtain ⟨after, sent⟩ := sent_flight flight rexmt inside
  have core := tcpsent_core tcb rexmt
  rw [found] at core
  refine ⟨after, sent, ?_, ?_, ?_, ?_, ?_⟩
  · rw [core]
    exact ledger.suna
  · rw [core]
    exact ledger.stored
  · rw [core]
    exact ledger.ring
  · rw [core]
    exact ledger.within
  · intro send member
    rcases List.mem_append.mp member with before | new
    · exact ledger.sends send before
    · rw [List.mem_singleton] at new
      subst new
      have suna : tcb.suna = seqAt base acked := (congrArg Core.suna found).trans ledger.suna
      have data := senddata_prefix_of flight rexmt inside
      have ring : Ring.load tcpsbs tcb.sndbuf tcb.sbstart.toNat tcb.sbcount.toNat =
          (written main.writes).drop acked := by
        have sndbuf : tcb.sndbuf = main.core.sndbuf := congrArg Core.sndbuf found
        have sbstart : tcb.sbstart = main.core.sbstart := congrArg Core.sbstart found
        have sbcount : tcb.sbcount = main.core.sbcount := congrArg Core.sbcount found
        rw [sndbuf, sbstart, sbcount]
        exact ledger.ring
      rw [ring, List.drop_drop] at data
      refine ⟨acked + sendOffset rexmt count, ?_, data⟩
      rw [sendseq_eq flight, suna, seq_at_seq_at]

theorem ledger_accepted (ledger : Ledger base main acked count) (tcb : Tcb)
    (found : tcb.core = main.core) (ack : Tcpseq) (new : 0 < seqcmp ack main.core.suna)
    (known : seqcmp ack main.core.snext ≤ 0)
    (counted : tcb.code.fin = true → ack = tcb.snext → tcb.snext ≠ tcb.slast) :
    ∃ later after, Ledger base { main with core := (tcpaccepted tcb ack).core } later after := by
  have flight := ledger.flight
  rw [← found] at flight new known
  obtain ⟨numbers, octets, covers⟩ := covers_of_counted flight new known counted
  have suna : tcb.suna = seqAt base acked := (congrArg Core.suna found).trans ledger.suna
  have sndbuf : tcb.sndbuf = main.core.sndbuf := congrArg Core.sndbuf found
  have sbstart : tcb.sbstart = main.core.sbstart := congrArg Core.sbstart found
  have sbcount : tcb.sbcount = main.core.sbcount := congrArg Core.sbcount found
  have stored := ledger.stored
  rw [← sbcount] at stored
  have held := covers.stored
  have positive := covers.positive
  have inside : acked ≤ (written main.writes).length := by
    rcases ledger.within with inside | ⟨past, sndfin, _⟩
    · exact inside
    · have asked : tcb.code.fin = true → tcb.flags.sndfin = true := flight.asked
      have none : tcb.flags.sndfin = false := (congrArg Core.sndfin found).trans sndfin
      rcases flight.within with some | ⟨fin, _⟩
      · have empty : count ≤ tcb.sbcount.toNat := some
        have sent := covers.sent
        omega
      · exact absurd (none.symm.trans (asked fin)) (by decide)
  have ring : Ring.load tcpsbs tcb.sndbuf tcb.sbstart.toNat tcb.sbcount.toNat =
      (written main.writes).drop acked := by
    rw [sndbuf, sbstart, sbcount]
    exact ledger.ring
  have left : (tcpaccepted tcb ack).sbcount.toNat =
      (written main.writes).length - (acked + numbers) := by
    have cover := covers.cover
    rw [accepted_sbcount covers]
    omega
  refine ⟨acked + numbers, count - numbers, accepted_flight flight covers, ?_, left, ?_, ?_,
    ledger.sends⟩
  · change ack = _
    rw [covers.place, suna, seq_at_seq_at]
  · change Ring.load tcpsbs tcb.sndbuf (tcpaccepted tcb ack).sbstart.toNat
      (tcpaccepted tcb ack).sbcount.toNat = (written main.writes).drop (acked + numbers)
    rw [accepted_sbstart flight covers, accepted_sbcount covers]
    have start : tcb.sbstart.toNat = tcb.sbstart.toNat % tcpsbs :=
      (Nat.mod_eq_of_lt flight.sbstart).symm
    rw [start] at ring
    rw [← Ring.load_drop tcpsbs tcb.sndbuf tcb.sbstart.toNat _ _ (by decide) held, ring,
      List.drop_drop]
    rcases covers.cover with ⟨data, _⟩ | ⟨fin, all, _, _⟩
    · rw [data]
    · rw [List.drop_eq_nil_of_le (by omega), List.drop_eq_nil_of_le (by omega)]
  · change acked + numbers ≤ (written main.writes).length ∨
      acked + numbers = (written main.writes).length + 1 ∧
        (tcpaccepted tcb ack).flags.sndfin = false ∧ ¬ Unclosed tcb.state
    rcases covers.cover with ⟨data, _⟩ | ⟨fin, all, _, packed⟩
    · exact Or.inl (by omega)
    · have cleared := accepted_fin tcb ack packed
      have asked : tcb.flags.sndfin = true := by
        apply flight.asked
        change tcb.code.fin = true
        simp only [tcpackedfin, Bool.and_eq_true] at packed
        exact packed.1
      refine Or.inr ⟨by omega, cleared.2, ?_⟩
      intro state
      exact absurd ((flight.unclosed state).symm.trans asked) (by decide)

theorem ledger_wrote (ledger : Ledger base main acked count) (tcb : Tcb)
    (found : tcb.core = main.core) (octets : List Octet) (isurg : Bool)
    (space : octets.length ≤ (tcb.sbsize - tcb.sbcount).toNat)
    (state : tcb.state = .established ∨ tcb.state = .closewait) :
    Ledger base { main with
      core := (tcpstored tcb octets isurg).core
      writes := main.writes ++ [(tcb, octets)] } acked count := by
  have flight := ledger.flight
  rw [← found] at flight
  obtain ⟨sbcount, fits⟩ := stored_sbcount flight octets isurg space
  have suna : tcb.suna = seqAt base acked := (congrArg Core.suna found).trans ledger.suna
  have stored : tcb.sbcount.toNat = (written main.writes).length - acked :=
    (congrArg (fun core => core.sbcount.toNat) found).trans ledger.stored
  have ring : Ring.load tcpsbs tcb.sndbuf tcb.sbstart.toNat tcb.sbcount.toNat =
      (written main.writes).drop acked :=
    (congrArg (fun core => Ring.load tcpsbs core.sndbuf core.sbstart.toNat core.sbcount.toNat)
      found).trans ledger.ring
  have inside : acked ≤ (written main.writes).length := by
    rcases ledger.within with inside | ⟨_, _, closed⟩
    · exact inside
    · have same : tcb.state = main.core.state := congrArg Core.state found
      rw [same] at state
      exact absurd (Or.inr (Or.inr state)) closed
  constructor
  · exact stored_flight flight octets isurg space state
  · exact suna
  · change (tcpstored tcb octets isurg).sbcount.toNat = _
    rw [sbcount, written_append, List.length_append]
    omega
  · have size : tcb.sbsize.toNat = tcpsbs := sbsize_nat flight.sbsize
    have start : tcb.sbstart.toNat < 4096 := flight.sbstart
    have slot : tcb.sbstart.toNat % tcpsbs = tcb.sbstart.toNat := Nat.mod_eq_of_lt flight.sbstart
    simp only [tcpsbs] at fits
    change Ring.load tcpsbs (Ring.store tcb.sbsize.toNat tcb.sndbuf
      ((tcb.sbstart + tcb.sbcount).toNat % tcb.sbsize.toNat) octets) tcb.sbstart.toNat
        (tcpstored tcb octets isurg).sbcount.toNat = _
    rw [sbcount, size, word_add_to_nat _ _ (by omega), ← slot, Nat.mod_add_mod,
      Ring.load_store tcpsbs _ _ _ octets (by decide) fits, slot, ring, written_append,
      List.drop_append_of_le_length inside]
  · left
    rw [written_append, List.length_append]
    omega
  · intro send member
    rw [written_append]
    exact placed_append (ledger.sends send member) octets

theorem ledger_closed (ledger : Ledger base main acked count) (tcb : Tcb)
    (found : tcb.core = main.core) (opened : tcb.state = .established ∨ tcb.state = .closewait) :
    Ledger base { main with core := (tcpclosedtcb tcb).core } acked count := by
  have flight := ledger.flight
  rw [← found] at flight
  have same : tcb.state = main.core.state := congrArg Core.state found
  constructor
  · exact closed_flight flight
  · exact (congrArg Core.suna found).trans ledger.suna
  · exact (congrArg (fun core => core.sbcount.toNat) found).trans ledger.stored
  · exact (congrArg (fun core => Ring.load tcpsbs core.sndbuf core.sbstart.toNat
      core.sbcount.toNat) found).trans ledger.ring
  · rcases ledger.within with inside | ⟨_, _, closed⟩
    · exact Or.inl inside
    · rw [same] at opened
      exact absurd (Or.inr (Or.inr opened)) closed
  · exact ledger.sends

theorem ledger_entered (ledger : Ledger base main acked count) (state : TcpState)
    (enters : Enters main state) :
    Ledger base { main with core := { main.core with state := state } } acked count := by
  constructor
  · exact entered_flight ledger.flight state enters
  · exact ledger.suna
  · exact ledger.stored
  · exact ledger.ring
  · rcases ledger.within with inside | ⟨past, sndfin, closed⟩
    · exact Or.inl inside
    · refine Or.inr ⟨past, sndfin, ?_⟩
      intro unclosed
      exact closed (unclosed_before enters unclosed)
  · exact ledger.sends

end Steps

theorem ledger_micro (base : Tcpseq) (main after : Main)
    (ledger : main.Careful → ∃ acked count, Ledger base main acked count)
    (step : Micro main after) (careful : after.Careful) :
    ∃ acked count, Ledger base after acked count := by
  obtain ⟨acked, count, ledger⟩ := ledger (careful_before step careful)
  cases step with
  | sent tcb found rexmt =>
      have inside := careful.sends (tcb, rexmt) (by simp)
      obtain ⟨later, ledger⟩ := ledger_sent ledger tcb found rexmt inside
      exact ⟨acked, later, ledger⟩
  | looked tcb found segment flag =>
      exact ⟨acked, count, ledger.flight, ledger.suna, ledger.stored, ledger.ring, ledger.within,
        ledger.sends⟩
  | accepted tcb found segment logged new known =>
      exact ledger_accepted ledger tcb found segment.ack new known
        (careful.acks (tcb, segment) logged)
  | wrote tcb found octets isurg nonempty space =>
      have state := careful.writes (tcb, octets) (by simp)
      exact ⟨acked, count, ledger_wrote ledger tcb found octets isurg space state⟩
  | closed tcb found opened => exact ⟨acked, count, ledger_closed ledger tcb found opened⟩
  | entered state enters => exact ⟨acked, count, ledger_entered ledger state enters⟩

/-- A connection whose SYN is acknowledged, before anything is written. The record starts
here. -/
structure Synced (conn : Conn) : Prop where
  state : conn.tcb.state = .established ∨ conn.tcb.state = .closewait
  syn : conn.tcb.code.syn = false
  fin : conn.tcb.code.fin = false
  sndfin : conn.tcb.flags.sndfin = false
  snext : conn.tcb.snext = conn.tcb.suna
  sbsize : conn.tcb.sbsize = BitVec.ofNat 32 tcpsbs
  sbstart : conn.tcb.sbstart.toNat < tcpsbs
  sbcount : conn.tcb.sbcount = 0
  trace : conn.trace = {}

theorem synced_flight {conn : Conn} (synced : Synced conn) : Flight conn.main.core 0 := by
  have sbcount : conn.main.core.sbcount = 0 := synced.sbcount
  have fin : conn.main.core.code.fin = false := synced.fin
  have sndfin : conn.main.core.sndfin = false := synced.sndfin
  constructor
  case syn => exact synced.syn
  case snext => exact synced.snext.trans (seq_at_zero _).symm
  case sbsize => exact synced.sbsize
  case sbstart => exact synced.sbstart
  case sbcount => simp [sbcount]
  case within => simp
  case asked => simp [fin]
  case behind => simp [fin]
  case slast => simp [sndfin]
  case unclosed => exact fun _ => sndfin
  case shut =>
    change Shut conn.tcb.state → _
    rcases synced.state with state | state <;> simp [Shut, state]

theorem synced_ledger {conn : Conn} (synced : Synced conn) :
    Ledger conn.tcb.suna conn.main 0 0 := by
  have sbcount : conn.main.core.sbcount = 0 := synced.sbcount
  have writes : conn.main.writes = [] := congrArg Trace.writes synced.trace
  have sends : conn.main.sends = [] := congrArg Trace.sends synced.trace
  constructor
  · exact synced_flight synced
  · exact (seq_at_zero _).symm
  · simp [sbcount]
    simp [writes, written]
  · simp [sbcount, writes, written, Ring.load]
  · exact Or.inl (Nat.zero_le _)
  · simp [sends]

/-- The send side agrees with the octets written, the first of which has the sequence
number `base`. -/
structure Accounted (base : Tcpseq) (conn : Conn) : Prop where
  ordered : 0 ≤ seqcmp conn.tcb.snext conn.tcb.suna
  stored : ∃ index : Nat, conn.tcb.suna = seqAt base index ∧
    conn.tcb.sbcount.toNat = (written conn.trace.writes).length - index ∧
    Ring.load conn.tcb.sbsize.toNat conn.tcb.sndbuf conn.tcb.sbstart.toNat
      conn.tcb.sbcount.toNat = (written conn.trace.writes).drop index
  fits : conn.tcb.sbcount.toNat ≤ conn.tcb.sbsize.toNat
  sends : ∀ send ∈ conn.trace.sends, Placed base (written conn.trace.writes) send

/-- An idle connection in ESTABLISHED whose peer offers `window` octets. -/
def establishedConn (window : Word) : Conn where
  tcb := {
    state := .established
    iss := 100
    suna := 101
    snext := 101
    lwseq := 500
    lwack := 101
    swindow := window
    cwnd := 512
    ssthresh := 65535
    smss := 512
    rmss := 512
    rnext := 501
    cwin := 8693 }
  tcbnum := 3

theorem established_synced (window : Word) : Synced (establishedConn window) := by
  constructor <;> simp [establishedConn, tcpsbs]

/-- Three octets are written and sent, two of them and then the rest acknowledged, and the
connection is closed. -/
def writeRun : List Event :=
  [.write [7, 8, 9] false, .resume 0, .output 4,
    .segment { segment := { seq := 501, ack := 103, code := { ack := true }, window := 100 } },
    .close, .output 4,
    .segment { segment := { seq := 501, ack := 105, code := { ack := true }, window := 100 } }]

/-- The FIN is outstanding when an octet arrives that has to be acknowledged: the segment
that does it carries four octets nobody wrote. -/
def forcedAckRun : List Event :=
  [.close, .output 4,
    .segment { segment := {
      seq := 501
      ack := 101
      code := { ack := true }
      window := 4
      tcpData := [7] } },
    .output 4]

end MvsXinu.Tcp
