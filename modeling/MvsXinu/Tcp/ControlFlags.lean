import MvsXinu.Tcp.Flight

/-!
# Where SYN and FIN are placed

A connection is in one of two phases. While its SYN is not acknowledged nothing is stored
and `snext` is `iss` or one more; from then on `Flight` holds. In both the control bits of
a segment sit where they belong.
-/

namespace MvsXinu.Tcp

open MvsXinu.SeqSpace

set_option autoImplicit false

/-- The SYN is not acknowledged. -/
structure Opening (core : Core) : Prop where
  syn : core.code.syn = true
  fin : core.code.fin = false
  sndfin : core.sndfin = false
  suna : core.suna = core.iss
  snext : core.snext = core.iss ∨ core.snext = core.iss + 1
  sbcount : core.sbcount = 0
  sbsize : core.sbsize = BitVec.ofNat 32 tcpsbs
  sbstart : core.sbstart.toNat < tcpsbs
  state : core.state = .synsent ∨ core.state = .synrcvd ∨ core.state = .closed ∨
    core.state = .free

def Phase (core : Core) : Prop := Opening core ∨ ∃ count, Flight core count

/-- The segment that `tcpsend` emits from `tcb` has its control bits and its data at their
places. -/
structure Emitted (tcb : Tcb) (rexmt : Bool) : Prop where
  syn : (tcpsegment tcb rexmt).code.syn = true → (tcpsegment tcb rexmt).seq = tcb.iss
  fin : (tcpsegment tcb rexmt).code.fin = true →
    (tcpsegment tcb rexmt).seq + BitVec.ofInt 32 (tcpsegment tcb rexmt).datalen = tcb.slast
  last : tcb.flags.sndfin = true ∨ Shut tcb.state →
    ∀ offset : Nat, (offset : Int) < (tcpsegment tcb rexmt).datalen →
      seqcmp ((tcpsegment tcb rexmt).seq + BitVec.ofNat 32 offset) tcb.slast < 0
  quiet : rexmt = false → tcb.code.fin = true → (tcpsegment tcb rexmt).datalen = 0

theorem segment_datalen (tcb : Tcb) (rexmt : Bool) :
    (tcpsegment tcb rexmt).datalen = (tcpsndlen tcb rexmt).2.toNat := by
  have octets : (tcpsenddata tcb rexmt).length = (tcpsndlen tcb rexmt).2.toNat :=
    Ring.load_length _ _ _ _
  have short : ((0x60 &&& 0xf0 : BitVec 8) >>> 2).toNat = 24 := by decide
  have bare : ((tcphoffset &&& 0xf0 : BitVec 8) >>> 2).toNat = 20 := by decide
  unfold Segment.datalen Segment.hlen tcpsegment
  simp only
  split
  · rw [short]
    simp only [tcprmss, List.length_append, List.length_cons, List.length_nil, octets, tcpmhlen]
    omega
  · rw [bare]
    simp only [List.nil_append, octets, tcpmhlen]
    omega

theorem segment_syn (tcb : Tcb) (rexmt : Bool) :
    (tcpsegment tcb rexmt).code.syn = tcb.code.syn :=
  sendcode_syn tcb _ _

section Opening

variable {tcb : Tcb}

theorem opening_len (opening : Opening tcb.core) (rexmt : Bool) :
    (tcpsndlen tcb rexmt).2 = 0 := by
  have syn : tcb.code.syn = true := opening.syn
  have sbcount : tcb.sbcount = 0 := opening.sbcount
  apply BitVec.eq_of_toNat_eq
  rw [sndlen_to_nat]
  have offset : (tcpsndlen tcb rexmt).1 = 0 := by simp [tcpsndlen, syn]
  rw [offset, sbcount]
  simp

theorem opening_code (opening : Opening tcb.core) (seq : Tcpseq) (len : Word) :
    tcpsendcode tcb seq len = tcb.code := by
  have sndfin : tcb.flags.sndfin = false := opening.sndfin
  simp [tcpsendcode, sndfin]

theorem opening_pending (opening : Opening tcb.core)
    (inside : tcb.pending.toNat ≤ tcb.sbcount.toNat) : tcb.snext = tcb.iss := by
  have sbcount : tcb.sbcount = 0 := opening.sbcount
  have suna : tcb.suna = tcb.iss := opening.suna
  rcases opening.snext with unsent | sent
  · exact unsent
  · have snext : tcb.snext = tcb.iss + 1 := sent
    have one : tcb.pending = 1 := by
      rw [Tcb.pending, snext, suna]
      ring
    rw [one, sbcount] at inside
    exact absurd inside (by decide)

theorem opening_sent (opening : Opening tcb.core) (rexmt : Bool)
    (inside : rexmt = false → tcb.pending.toNat ≤ tcb.sbcount.toNat) :
    Opening (tcpsent tcb rexmt).core := by
  have len := opening_len opening rexmt
  have syn : tcb.code.syn = true := opening.syn
  have fin : tcb.code.fin = false := opening.fin
  have suna : tcb.suna = tcb.iss := opening.suna
  have moved : tcb.snext + tcpnewdata tcb rexmt = tcb.iss ∨
      tcb.snext + tcpnewdata tcb rexmt = tcb.iss + 1 := by
    cases rexmt with
    | false =>
        right
        rw [opening_pending opening (inside rfl)]
        simp [tcpnewdata, len, opening_code opening, syn, fin]
    | true =>
        have still : tcpnewdata tcb true = 0 := by
          unfold tcpnewdata
          simp only [if_true, len, suna, add_zero]
          rcases opening.snext with unsent | sent
          · have snext : tcb.snext = tcb.iss := unsent
            rw [snext, BitVec.sub_self]
            decide
          · have snext : tcb.snext = tcb.iss + 1 := sent
            have back : tcb.iss - (tcb.iss + 1) = -1 := by ring
            rw [snext, back]
            decide
        rw [still, add_zero]
        exact opening.snext
  rw [tcpsent_core, opening_code opening]
  exact ⟨opening.syn, opening.fin, opening.sndfin, opening.suna, moved, opening.sbcount,
    opening.sbsize, opening.sbstart, opening.state⟩

theorem opening_not_shut (opening : Opening tcb.core) : ¬ Shut tcb.state := by
  have state : tcb.state = .synsent ∨ tcb.state = .synrcvd ∨ tcb.state = .closed ∨
    tcb.state = .free := opening.state
  rcases state with state | state | state | state <;> simp [Shut, state]

theorem opening_emitted (opening : Opening tcb.core) (rexmt : Bool)
    (inside : rexmt = false → tcb.pending.toNat ≤ tcb.sbcount.toNat) : Emitted tcb rexmt := by
  have fin : tcb.code.fin = false := opening.fin
  have sndfin : tcb.flags.sndfin = false := opening.sndfin
  constructor
  · intro _
    cases rexmt with
    | false => exact opening_pending opening (inside rfl)
    | true => exact opening.suna
  · intro sent
    change (tcpsendcode tcb _ _).fin = true at sent
    rw [opening_code opening, fin] at sent
    cases sent
  · rintro (asked | shut)
    · rw [sndfin] at asked
      cases asked
    · exact absurd shut (opening_not_shut opening)
  · intro _ sent
    rw [fin] at sent
    cases sent

/-- Only the SYN can be acknowledged. -/
theorem opening_accepted (opening : Opening tcb.core) (ack : Tcpseq)
    (new : 0 < seqcmp ack tcb.suna) (known : seqcmp ack tcb.snext ≤ 0) :
    Flight (tcpaccepted tcb ack).core 0 := by
  have syn : tcb.code.syn = true := opening.syn
  have fin : tcb.code.fin = false := opening.fin
  have sndfin : tcb.flags.sndfin = false := opening.sndfin
  have suna : tcb.suna = tcb.iss := opening.suna
  have sbcount : tcb.sbcount = 0 := opening.sbcount
  have size : tcb.sbsize.toNat = 4096 := sbsize_nat opening.sbsize
  have bounds := signed_dist_bounds ack tcb.iss
  have place := seq_at_signed_dist tcb.iss ack
  rw [suna, seqcmp] at new
  have snext : tcb.snext = seqAt tcb.iss 1 := by
    rcases opening.snext with unsent | sent
    · have same : tcb.snext = tcb.iss := unsent
      rw [same, seqcmp] at known
      exact absurd new (by omega)
    · exact sent
  have one : seqcmp ack tcb.iss = 1 := by
    rw [snext, ← place, seqcmp, signed_dist_seq_at _ _ _ (by omega) (by omega)] at known
    rw [seqcmp]
    omega
  have all : ack = tcb.snext := by
    rw [snext, ← place]
    congr 1
  have len : tcpackedlen tcb ack = 0 := by
    simp [tcpackedlen, tcpackedsyn, tcpackedfin, syn, fin, suna, one]
  have stored : (tcpaccepted tcb ack).sbcount = 0 := by
    change tcb.sbcount - BitVec.ofInt 32 (tcpackedlen tcb ack) = 0
    rw [len, sbcount]
    decide
  constructor
  case syn => rfl
  case snext => exact all.symm.trans (seq_at_zero ack).symm
  case sbsize => exact opening.sbsize
  case sbstart =>
    change (BitVec.ofNat 32 (_ % tcb.sbsize.toNat)).toNat < 4096
    rw [size, BitVec.toNat_ofNat]
    omega
  case sbcount =>
    change (tcpaccepted tcb ack).sbcount.toNat ≤ tcpsbs
    simp [stored]
  case within => exact Or.inl (Nat.zero_le _)
  case asked =>
    change (tcb.code.fin && _) = true → _
    simp [fin]
  case behind =>
    change (tcb.code.fin && _) = true → _
    simp [fin]
  case slast =>
    change (tcb.flags.sndfin && _) = true → _
    simp [sndfin]
  case unclosed =>
    change _ → (tcb.flags.sndfin && _) = false
    simp [sndfin]
  case shut =>
    intro shut
    change Shut tcb.state at shut
    exact absurd shut (opening_not_shut opening)

end Opening

section Data

variable {tcb : Tcb} {count : Nat}

/-- A retransmission that carries a FIN must have room for the whole buffer. -/
theorem fin_ends_buffer (flight : Flight tcb.core count) (rexmt : Bool)
    (inside : rexmt = false → tcb.pending.toNat ≤ tcb.sbcount.toNat)
    (whole : rexmt = true → tcb.code.fin = true →
      tcb.sbcount.toNat ≤ tcb.swindow.toNat ∧ tcb.sbcount.toNat ≤ tcb.smss.toNat)
    (sent : (tcpsendcode tcb (tcpsendseq tcb rexmt) (tcpsndlen tcb rexmt).2).fin = true) :
    sendOffset rexmt count + (tcpsndlen tcb rexmt).2.toNat = tcb.sbcount.toNat ∧
      tcb.flags.sndfin = true := by
  have fits := (sndlen_eq flight rexmt inside).2
  have asked : tcb.code.fin = true → tcb.flags.sndfin = true := flight.asked
  rcases (sendcode_fin flight _ _ _ (sendseq_eq flight rexmt) fits).mp sent with
    before | ⟨sndfin, all⟩
  · refine ⟨?_, asked before⟩
    cases rexmt with
    | false =>
        have behind : tcb.sbcount.toNat ≤ count := flight.behind before
        have offset : sendOffset false count = count := rfl
        omega
    | true =>
        have room := whole rfl before
        rw [sndlen_to_nat, rexmt_offset, sub_zero]
        change 0 + _ = _
        omega
  · exact ⟨all, sndfin⟩

theorem flight_emitted (flight : Flight tcb.core count) (rexmt : Bool)
    (inside : rexmt = false → tcb.pending.toNat ≤ tcb.sbcount.toNat)
    (whole : rexmt = true → tcb.code.fin = true →
      tcb.sbcount.toNat ≤ tcb.swindow.toNat ∧ tcb.sbcount.toNat ≤ tcb.smss.toNat) :
    Emitted tcb rexmt := by
  have fits := (sndlen_eq flight rexmt inside).2
  have seq : (tcpsegment tcb rexmt).seq = seqAt tcb.suna (sendOffset rexmt count) :=
    sendseq_eq flight rexmt
  have bound : tcb.sbcount.toNat ≤ 4096 := flight.sbcount
  constructor
  case syn =>
    intro sent
    rw [segment_syn] at sent
    exact absurd (sent.symm.trans flight.syn) (by decide)
  case fin =>
    intro sent
    obtain ⟨all, sndfin⟩ := fin_ends_buffer flight rexmt inside whole sent
    rw [segment_datalen, seq, slast_eq flight sndfin, seq_at_add]
    congr 1
    omega
  case last =>
    intro closed offset before
    rw [segment_datalen] at before
    cases sndfin : tcb.flags.sndfin with
    | true =>
        rw [seq, slast_eq flight sndfin, seq_at_add_nat, seqcmp,
          signed_dist_seq_at _ _ _ (by omega) (by omega)]
        omega
    | false =>
        have shut : Shut tcb.state := by
          rcases closed with asked | shut
          · exact absurd (sndfin.symm.trans asked) (by decide)
          · exact shut
        have empty : tcb.sbcount.toNat = 0 := flight.shut shut sndfin
        omega
  case quiet =>
    rintro rfl fin
    have behind : tcb.sbcount.toNat ≤ count := flight.behind fin
    have offset : sendOffset false count = count := rfl
    rw [segment_datalen]
    omega

end Data

/-- Every retransmission with an outstanding FIN had room for the whole buffer. -/
def RexmtWhole (sends : List (Tcb × Bool)) : Prop :=
  ∀ send ∈ sends, send.2 = true → send.1.code.fin = true →
    send.1.sbcount.toNat ≤ send.1.swindow.toNat ∧ send.1.sbcount.toNat ≤ send.1.smss.toNat

/-- Every acknowledgement looked at in SYN_RCVD was one of the SYN. -/
def SynAnswered (acks : List (Tcb × Segment)) : Prop :=
  ∀ look ∈ acks, look.1.state = .synrcvd →
    0 < seqcmp look.2.ack look.1.suna ∧ seqcmp look.2.ack look.1.snext ≤ 0

instance (sends : List (Tcb × Bool)) : Decidable (RexmtWhole sends) :=
  inferInstanceAs (Decidable (∀ send ∈ sends, _ → _ → _))

instance (acks : List (Tcb × Segment)) : Decidable (SynAnswered acks) :=
  inferInstanceAs (Decidable (∀ look ∈ acks, _ → _))

theorem opening_entered {main : Main} (opening : Opening main.core) (answered : SynAnswered main.acks)
    (state : TcpState) (enters : Enters main state) :
    Opening { main.core with state := state } := by
  have kept : state = .synsent ∨ state = .synrcvd ∨ state = .closed ∨ state = .free := by
    have found := opening.state
    have syn := opening.syn
    cases state with
    | free => simp
    | closed => simp
    | synrcvd => simp
    | listen => exact absurd enters id
    | synsent => exact absurd enters id
    | established =>
        rcases enters with ⟨_, cleared⟩ | ⟨_, tcb, segment, logged, state, cleared⟩
        · exact absurd (cleared.symm.trans syn) (by decide)
        · have answer := answered (tcb, segment) logged state
          exact absurd ((cleared answer.1 answer.2).symm.trans syn) (by decide)
    | finwait1 => exact absurd enters id
    | finwait2 => simp [enters.1] at found
    | closewait =>
        change main.core.state = .established at enters
        simp [enters] at found
    | lastack => exact absurd enters id
    | closing => simp [enters.1] at found
    | timewait => rcases enters with ⟨before | before, _⟩ | before <;> simp [before] at found
  exact ⟨opening.syn, opening.fin, opening.sndfin, opening.suna, opening.snext, opening.sbcount,
    opening.sbsize, opening.sbstart, kept⟩

/-- The conditions on what was done so far. -/
structure Main.Tidy (main : Main) : Prop extends main.Careful where
  answered : SynAnswered main.acks

theorem tidy_before {main after : Main} (step : Micro main after) (tidy : after.Tidy) :
    main.Tidy := by
  obtain ⟨_, ⟨acks, grownAcks⟩, _⟩ := micro_grows step
  refine ⟨careful_before step tidy.toCareful, ?_⟩
  intro look member
  exact tidy.answered look (by simp [grownAcks, member])

theorem tidy_before_chain {main after : Main} (chain : Chain main after) (tidy : after.Tidy) :
    main.Tidy := by
  induction chain with
  | refl => exact tidy
  | tail _ step ih => exact ih (tidy_before step tidy)

def Emissions (main : Main) : Prop :=
  Phase main.core ∧ (RexmtWhole main.sends → ∀ send ∈ main.sends, Emitted send.1 send.2)

theorem phase_sent {tcb : Tcb} (phase : Phase tcb.core) (rexmt : Bool)
    (inside : rexmt = false → tcb.pending.toNat ≤ tcb.sbcount.toNat) :
    Phase (tcpsent tcb rexmt).core := by
  rcases phase with opening | ⟨count, flight⟩
  · exact Or.inl (opening_sent opening rexmt inside)
  · exact Or.inr (sent_flight flight rexmt inside)

theorem phase_emitted {tcb : Tcb} (phase : Phase tcb.core) (rexmt : Bool)
    (inside : rexmt = false → tcb.pending.toNat ≤ tcb.sbcount.toNat)
    (whole : rexmt = true → tcb.code.fin = true →
      tcb.sbcount.toNat ≤ tcb.swindow.toNat ∧ tcb.sbcount.toNat ≤ tcb.smss.toNat) :
    Emitted tcb rexmt := by
  rcases phase with opening | ⟨count, flight⟩
  · exact opening_emitted opening rexmt inside
  · exact flight_emitted flight rexmt inside whole

theorem phase_accepted {tcb : Tcb} (phase : Phase tcb.core) (ack : Tcpseq)
    (new : 0 < seqcmp ack tcb.suna) (known : seqcmp ack tcb.snext ≤ 0)
    (counted : tcb.code.fin = true → ack = tcb.snext → tcb.snext ≠ tcb.slast) :
    Phase (tcpaccepted tcb ack).core := by
  right
  rcases phase with opening | ⟨count, flight⟩
  · exact ⟨0, opening_accepted opening ack new known⟩
  · obtain ⟨acked, octets, covers⟩ := covers_of_counted flight new known counted
    exact ⟨count - acked, accepted_flight flight covers⟩

theorem opening_unopened {tcb : Tcb} (opening : Opening tcb.core) :
    ¬ (tcb.state = .established ∨ tcb.state = .closewait) := by
  have state : tcb.state = .synsent ∨ tcb.state = .synrcvd ∨ tcb.state = .closed ∨
    tcb.state = .free := opening.state
  rcases state with state | state | state | state <;> simp [state]

theorem emissions_micro (main after : Main) (emissions : main.Tidy → Emissions main)
    (step : Micro main after) (tidy : after.Tidy) : Emissions after := by
  obtain ⟨phase, emitted⟩ := emissions (tidy_before step tidy)
  cases step with
  | sent tcb found rexmt =>
      rw [← found] at phase
      have inside := tidy.sends (tcb, rexmt) (by simp)
      refine ⟨phase_sent phase rexmt inside, ?_⟩
      intro whole send member
      rcases List.mem_append.mp member with before | last
      · exact emitted (fun old listed => whole old (List.mem_append_left _ listed)) send before
      · rw [List.mem_singleton] at last
        rw [last]
        exact phase_emitted phase rexmt inside (whole (tcb, rexmt) (by simp))
  | looked tcb found segment flag => exact ⟨phase, emitted⟩
  | accepted tcb found segment logged new known =>
      rw [← found] at phase new known
      exact ⟨phase_accepted phase segment.ack new known (tidy.acks (tcb, segment) logged), emitted⟩
  | wrote tcb found octets isurg nonempty space =>
      have state := tidy.writes (tcb, octets) (by simp)
      rw [← found] at phase
      rcases phase with opening | ⟨count, flight⟩
      · exact absurd state (opening_unopened opening)
      · exact ⟨Or.inr ⟨count, stored_flight flight octets isurg space state⟩, emitted⟩
  | closed tcb found opened =>
      rw [← found] at phase
      rcases phase with opening | ⟨count, flight⟩
      · exact absurd opened (opening_unopened opening)
      · exact ⟨Or.inr ⟨count, closed_flight flight⟩, emitted⟩
  | entered state enters =>
      rcases phase with opening | ⟨count, flight⟩
      · exact ⟨Or.inl (opening_entered opening tidy.answered state enters), emitted⟩
      · exact ⟨Or.inr ⟨count, entered_flight flight state enters⟩, emitted⟩

theorem opened_main {start : Conn} (opened : Opened start) :
    Opening start.main.core ∧ start.main.sends = [] := by
  cases opened with
  | active iss mss lip rip lport rport tcbnum timers oport ctr100 others foreign =>
      rw [tcpkick_main]
      refine ⟨⟨rfl, rfl, rfl, rfl, Or.inl rfl, rfl, rfl, ?_, Or.inl rfl⟩, rfl⟩
      change (0 : Word).toNat < tcpsbs
      decide
  | passive iss mss parentSmss inbound tcbnum timers oport ctr100 syn others foreign =>
      rw [tcpdeliver_main]
      refine ⟨⟨rfl, rfl, rfl, rfl, Or.inl rfl, rfl, rfl, ?_, Or.inr (Or.inl rfl)⟩, rfl⟩
      change (0 : Word).toNat < tcpsbs
      decide

theorem control_flags_placed (start conn : Conn) (opened : Opened start)
    (reached : Runs.Reach connStep (fun _ _ => True) start conn)
    (inside : NewdataInside conn.trace.sends) (whole : RexmtWhole conn.trace.sends)
    (counted : FinCounted conn.trace.acks) (answered : SynAnswered conn.trace.acks)
    (writes : WritesOpen conn.trace.writes) :
    ∀ send ∈ conn.trace.sends, Emitted send.1 send.2 := by
  obtain ⟨opening, none⟩ := opened_main opened
  have kept := invariant_of_micro emissions_micro reached
    (fun _ => ⟨Or.inl opening, by simp [none]⟩)
  exact (kept ⟨⟨inside, counted, writes⟩, answered⟩).2 whole

/-- An active open with `iss` 100. -/
def activeConn : Conn := tcpkick { tcb := tcpcon 100 512 1 2 1024 23, tcbnum := 3 }

theorem active_opened : Opened activeConn :=
  Opened.active 100 512 1 2 1024 23 3 [] [] 0 (by simp [Running]) (by simp)

/-- The handshake, then the calls of a user. -/
def openedRun (calls : List Event) : List Event :=
  [.output 4,
    .segment { segment := {
      seq := 500
      ack := 101
      code := { syn := true, ack := true }
      window := 100 } },
    .output 4] ++ calls

/-- The handshake, three octets, and the close. -/
def wholeRun : List Event :=
  [.output 4,
    .segment { segment := {
      seq := 500
      ack := 101
      code := { syn := true, ack := true }
      window := 100 } },
    .output 4, .write [7, 8, 9] false, .resume 0, .output 4, .close, .output 4,
    .segment { segment := { seq := 501, ack := 105, code := { ack := true }, window := 100 } }]

theorem whole_run_placed :
    (∀ send ∈ (wholeRun.foldl connStep activeConn).trace.sends, Emitted send.1 send.2) ∧
      (wholeRun.foldl connStep activeConn).trace.sends.map
        (fun send => ((tcpsegment send.1 send.2).code.syn, (tcpsegment send.1 send.2).code.fin)) =
        [(true, false), (false, false), (false, false), (false, true)] := by
  have reached : Runs.Reach connStep (fun _ _ => True) activeConn
      (wholeRun.foldl connStep activeConn) := by
    apply Runs.reach_of_permitted wholeRun Runs.Reach.start
    simp [wholeRun, Runs.Permitted]
  constructor
  · exact control_flags_placed _ _ active_opened reached (by decide) (by decide) (by decide)
      (by decide) (by decide)
  · decide

/-- A simultaneous open: the peer's SYN arrives while ours is outstanding, and is
acknowledged by a second SYN. -/
def simultaneousRun : List Event :=
  [.output 4,
    .segment { segment := { seq := 500, code := { syn := true }, window := 100 } },
    .output 4]

theorem simultaneous_open_moves_syn :
    ¬ ∀ start conn : Conn, Opened start → Runs.Reach connStep (fun _ _ => True) start conn →
      ∀ send ∈ conn.trace.sends, Emitted send.1 send.2 := by
  intro claimed
  have reached : Runs.Reach connStep (fun _ _ => True) activeConn
      (simultaneousRun.foldl connStep activeConn) := by
    apply Runs.reach_of_permitted simultaneousRun Runs.Reach.start
    simp [simultaneousRun, Runs.Permitted]
  have placed := claimed _ _ active_opened reached
  have wrong : ∃ send ∈ (simultaneousRun.foldl connStep activeConn).trace.sends,
      (tcpsegment send.1 send.2).code.syn = true ∧
        (tcpsegment send.1 send.2).seq ≠ send.1.iss := by
    decide
  obtain ⟨send, listed, syn, moved⟩ := wrong
  exact moved ((placed send listed).syn syn)

end MvsXinu.Tcp
