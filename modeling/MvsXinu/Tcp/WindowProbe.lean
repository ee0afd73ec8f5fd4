import MvsXinu.Tcp.ControlFlags

/-!
# Probes of a closed window

`tcpxmit` and `tcppersist` probe with `tcpsend`, and `tcpsndlen` cuts the length of a probe to
the window, which is closed. A probe therefore has no data, whatever there is to send.
-/

namespace MvsXinu.Tcp

open MvsXinu.SeqSpace

set_option autoImplicit false

/-- The output process enters the persist state on the event, or takes it there. -/
def Probes (conn : Conn) (event : OutEvent) : Prop :=
  match conn.tcb.ostate with
  | .idle => event = .send ∧ tcphowmuch conn.tcb ≠ 0
  | .xmit => event ≠ .retransmit ∧ tcphowmuch conn.tcb ≠ 0
  | .persist => event = .persist ∨ event = .send
  | .rexmt => False

/-- Octets, or a FIN, that the peer has not acknowledged. -/
def Tcb.Unanswered (tcb : Tcb) : Prop := tcb.sbcount ≠ 0 ∨ tcb.flags.sndfin = true

/-- The event is taken and sends one segment, to which the peer has to reply. -/
def ProbeOccupies (fuel : Nat) (conn : Conn) (event : OutEvent) : Prop :=
  ∃ after send, tcposwitch fuel conn event = some after ∧
    after.trace.sends = conn.trace.sends ++ [send] ∧ 1 ≤ (tcpsegment send.1 send.2).seglen

/-- Probes of the persist state start at `suna`, the first one at `snext`. -/
def Tcb.probeRexmt (tcb : Tcb) : Bool := decide (tcb.ostate = .persist)

/-- The SYN or the FIN has been sent and is not acknowledged, or the FIN is due where the probe
starts. -/
def Tcb.ControlDue (tcb : Tcb) : Prop :=
  tcb.code.syn = true ∨ tcb.code.fin = true ∨
    (tcb.flags.sndfin = true ∧ tcpsendseq tcb tcb.probeRexmt = tcb.slast)

section Closed

variable {conn : Conn}

theorem closed_window_len {tcb : Tcb} (shut : tcb.swindow = 0) (rexmt : Bool) :
    (tcpsndlen tcb rexmt).2 = 0 := by
  have least : ∀ word : Word, wordMin word 0 = 0 := by
    intro word
    have none : ¬ word.toNat < (0 : Word).toNat := Nat.not_lt_zero _
    rw [wordMin, if_neg none]
  have atMost : ∀ word : Word, wordMin 0 word = 0 := by
    intro word
    rw [wordMin]
    split
    · rfl
    · rename_i empty
      bv_omega
  simp only [tcpsndlen, shut, least, atMost]

theorem closed_window_data {tcb : Tcb} (shut : tcb.swindow = 0) (rexmt : Bool) :
    (tcpsegment tcb rexmt).datalen = 0 := by
  rw [segment_datalen, closed_window_len shut]
  rfl

/-- Without data a segment takes a number only for its SYN or its FIN. -/
theorem probe_seglen {tcb : Tcb} (shut : tcb.swindow = 0) (rexmt : Bool) :
    1 ≤ (tcpsegment tcb rexmt).seglen ↔
      tcb.code.syn = true ∨ tcb.code.fin = true ∨
        (tcb.flags.sndfin = true ∧ tcpsendseq tcb rexmt = tcb.slast) := by
  have ending : seqcmp (tcpsendseq tcb rexmt + 0) tcb.slast = 0 ↔
      tcpsendseq tcb rexmt = tcb.slast := by
    have same : tcpsendseq tcb rexmt + 0 = tcpsendseq tcb rexmt := BitVec.add_zero _
    rw [same]
    exact signed_dist_eq_zero _ _
  have fin : (tcpsegment tcb rexmt).code.fin = true ↔
      tcb.code.fin = true ∨ (tcb.flags.sndfin = true ∧ tcpsendseq tcb rexmt = tcb.slast) := by
    simp only [tcpsegment, tcpsendcode, closed_window_len shut, ending]
    split
    · rename_i due
      simp only [due, and_self, or_true]
    · rename_i notDue
      simp only [notDue, or_false]
  rw [← fin, ← segment_syn tcb rexmt, Segment.seglen, closed_window_data shut]
  cases (tcpsegment tcb rexmt).code.syn <;> cases (tcpsegment tcb rexmt).code.fin <;> simp

/-- The first probe. -/
theorem tcpxmitshut_sends (conn : Conn) : (tcpxmitshut conn).trace.sends =
    conn.trace.sends ++
      [({ conn.tcb with ostate := .persist, persist := conn.tcb.rexmt }, false)] :=
  tcpsend_sends _ _

theorem tcpxmit_probes (fuel : Nat) (event : OutEvent) (shut : conn.tcb.swindow = 0)
    (other : event ≠ .retransmit) (waiting : tcphowmuch conn.tcb ≠ 0) :
    tcpxmit fuel conn event = some (tcpxmitshut conn) := by
  simp only [tcpxmit]
  rw [if_neg other, if_neg waiting, if_pos shut]

theorem tcppersist_sends (event : OutEvent) (taken : event = .persist ∨ event = .send) :
    (tcppersist conn event).trace.sends = conn.trace.sends ++ [(conn.tcb, true)] := by
  have notIgnored : ¬ (event ≠ .persist ∧ event ≠ .send) := by
    rintro ⟨notPersist, notSend⟩
    exact taken.elim notPersist notSend
  simp only [tcppersist]
  rw [if_neg notIgnored]
  exact tcpsend_sends conn true

/-- A probe is one segment, sent from `probe`. -/
structure ProbedFrom (fuel : Nat) (conn : Conn) (event : OutEvent) (probe : Tcb × Bool) :
    Prop where
  sends : ∃ after, tcposwitch fuel conn event = some after ∧
    after.trace.sends = conn.trace.sends ++ [probe]
  shut : probe.1.swindow = 0
  due : probe.1.code.syn = true ∨ probe.1.code.fin = true ∨
    (probe.1.flags.sndfin = true ∧ tcpsendseq probe.1 probe.2 = probe.1.slast) ↔
      conn.tcb.ControlDue

theorem probed_from (fuel : Nat) (event : OutEvent) (shut : conn.tcb.swindow = 0)
    (probes : Probes conn event) : ∃ probe, ProbedFrom fuel conn event probe := by
  have first : conn.tcb.ostate ≠ .persist →
      tcposwitch fuel conn event = some (tcpxmitshut conn) →
      ProbedFrom fuel conn event
        ({ conn.tcb with ostate := .persist, persist := conn.tcb.rexmt }, false) := by
    intro entering step
    have newdata : conn.tcb.probeRexmt = false := decide_eq_false entering
    constructor
    · exact ⟨_, step, tcpxmitshut_sends conn⟩
    · exact shut
    · rw [Tcb.ControlDue, newdata]
      rfl
  cases state : conn.tcb.ostate with
  | idle =>
      simp only [Probes, state] at probes
      constructor
      apply first
      · rw [state]
        exact OutState.noConfusion
      · simp only [tcposwitch, state, tcpidle, if_pos probes.1]
        apply tcpxmit_probes fuel event shut _ probes.2
        rw [probes.1]
        exact OutEvent.noConfusion
  | persist =>
      simp only [Probes, state] at probes
      have again : conn.tcb.probeRexmt = true := decide_eq_true state
      constructor
      constructor
      · simp only [tcposwitch, state]
        exact ⟨_, rfl, tcppersist_sends event probes⟩
      · exact shut
      · rw [Tcb.ControlDue, again]
  | xmit =>
      simp only [Probes, state] at probes
      constructor
      apply first
      · rw [state]
        exact OutState.noConfusion
      · simp only [tcposwitch, state]
        exact tcpxmit_probes fuel event shut probes.1 probes.2
  | rexmt =>
      simp only [Probes, state] at probes

end Closed

/-- A probe occupies a sequence number when a control bit is due, and data that wait do not
count. -/
theorem probe_occupies_iff (fuel : Nat) (conn : Conn) (event : OutEvent)
    (shut : conn.tcb.swindow = 0) (probes : Probes conn event) :
    ProbeOccupies fuel conn event ↔ conn.tcb.ControlDue := by
  rcases probed_from fuel event shut probes with ⟨probe, probed⟩
  rcases probed.sends with ⟨after, step, sends⟩
  rw [← probed.due, ← probe_seglen probed.shut]
  constructor
  · rintro ⟨other, send, found, sent, occupies⟩
    rw [step, Option.some.injEq] at found
    rw [← found, sends, List.append_cancel_left_eq, List.singleton_inj] at sent
    rw [sent]
    exact occupies
  · intro occupies
    exact ⟨after, probe, step, sends, occupies⟩

/-- The peer answers the SYN of `activeConn` and offers no window. -/
def shutRun : List Event :=
  [.output 4,
    .segment { segment := { seq := 500, ack := 101, code := { syn := true, ack := true } } },
    .output 4]

theorem shut_reached (later : List Event) : Runs.Reach connStep (fun _ _ => True) activeConn
    ((shutRun ++ later).foldl connStep activeConn) :=
  Runs.reach_of_permitted (shutRun ++ later) Runs.Reach.start
    (Runs.unguarded_permitted (shutRun ++ later) activeConn)

/-- The probe of a connection that has only its FIN to send. -/
theorem fin_probe_occupies :
    ProbeOccupies 4 ((shutRun ++ [Event.close]).foldl connStep activeConn) .send := by
  have probes : Probes ((shutRun ++ [Event.close]).foldl connStep activeConn) .send := by
    show _ ∧ _
    decide
  apply (probe_occupies_iff 4 _ .send (by decide) probes).mpr
  exact Or.inr (Or.inr (by decide))

/-- The probe of a connection with one octet to send is empty. -/
theorem data_probe_empty :
    ¬ ∀ (start conn : Conn) (event : OutEvent), Opened start →
      Runs.Reach connStep (fun _ _ => True) start conn → conn.tcb.swindow = 0 →
      conn.tcb.Unanswered → Probes conn event → ∃ fuel, ProbeOccupies fuel conn event := by
  intro claimed
  have probes : Probes ((shutRun ++ [Event.write [7] false, .resume 0]).foldl connStep activeConn)
      .send := by
    show _ ∧ _
    decide
  rcases claimed _ _ .send active_opened (shut_reached [Event.write [7] false, .resume 0])
    (by decide) (Or.inl (by decide)) probes with ⟨fuel, after, send, step, sent, occupies⟩
  rcases probed_from fuel .send (by decide) probes with ⟨probe, probed⟩
  rcases probed.sends with ⟨other, found, sends⟩
  rw [found, Option.some.injEq] at step
  rw [← step, sends, List.append_cancel_left_eq, List.singleton_inj] at sent
  rw [← sent, probe_seglen probed.shut, probed.due] at occupies
  rcases occupies with syn | fin | last
  · revert syn
    decide
  · revert fin
    decide
  · revert last
    decide

end MvsXinu.Tcp
