import MvsXinu.Tcp.ControlFlags

/-!
# The peer's window

`tcpxmit` sends while less is in flight than the window and the congestion window allow,
but `tcpsndlen` cuts a segment by the whole window and not by what is left of it. The last
segment of a burst stays inside the window only if the steps from what is in flight, a
segment at a time, do not overshoot.
-/

namespace MvsXinu.Tcp

open MvsXinu.SeqSpace

set_option autoImplicit false
-- the examples at the end write some hundred octets
set_option maxRecDepth 10000

/-- All data octets of a segment lie in the window that the peer offers. -/
def InWindow (tcb : Tcb) (rexmt : Bool) : Prop :=
  ∀ offset : Nat, (offset : Int) < (tcpsegment tcb rexmt).datalen →
    ((tcpsegment tcb rexmt).seq + BitVec.ofNat 32 offset - tcb.suna).toNat < tcb.swindow.toNat

/-- The size of a full segment, and the amount in flight at which `tcpxmit` stops. -/
def Tcb.stride (tcb : Tcb) : Nat := min tcb.swindow.toNat tcb.smss.toNat
def Tcb.allowance (tcb : Tcb) : Nat := min tcb.swindow.toNat tcb.cwnd.toNat

/-- Full segments from `count` octets in flight up to `allowance` or more end in the
window. -/
def Room (stored window allowance stride count : Nat) : Prop :=
  stored ≤ window ∨ allowance ≤ count ∨
    count + stride * ((allowance - count + stride - 1) / stride) ≤ window

instance (stored window allowance stride count : Nat) :
    Decidable (Room stored window allowance stride count) :=
  inferInstanceAs (Decidable (_ ∨ _ ∨ _))

theorem room_steps (distance stride : Nat) (positive : 0 < stride) (far : 0 < distance) :
    (distance + stride - 1) / stride = (distance - stride + stride - 1) / stride + 1 := by
  by_cases close : distance ≤ stride
  · have one : (distance + stride - 1) / stride = 1 := by
      apply Nat.div_eq_of_lt_le <;> omega
    have none : (distance - stride + stride - 1) / stride = 0 := by
      apply Nat.div_eq_of_lt
      omega
    omega
  · have shifted : distance + stride - 1 = distance - stride + stride - 1 + stride := by omega
    rw [shifted, Nat.add_div_right _ positive]

/-- One segment of the burst: it ends in the window, and there is room for the next. -/
theorem room_step {stored window allowance stride count len : Nat}
    (room : Room stored window allowance stride count) (below : count < allowance)
    (inside : count ≤ stored) (cut : len = min (stored - count) stride) :
    (0 < len → count + len ≤ window) ∧ Room stored window allowance stride (count + len) := by
  rcases room with small | full | steps
  · exact ⟨by omega, Or.inl small⟩
  · omega
  · by_cases small : stored ≤ window
    · exact ⟨by omega, Or.inl small⟩
    · rcases Nat.eq_zero_or_pos stride with none | positive
      · have empty : len = 0 := by omega
        rw [empty, Nat.add_zero]
        exact ⟨by omega, Or.inr (Or.inr steps)⟩
      · rw [room_steps (allowance - count) stride positive (by omega), Nat.mul_add] at steps
        have whole : len = stride := by omega
        refine ⟨by omega, Or.inr ?_⟩
        by_cases reached : allowance ≤ count + len
        · exact Or.inl reached
        · right
          have left : allowance - (count + len) = allowance - count - stride := by omega
          rw [left, whole]
          omega

/-- A send keeps the sizes. -/
theorem tcpsent_sizes (tcb : Tcb) (rexmt : Bool) :
    (tcpsent tcb rexmt).swindow = tcb.swindow ∧ (tcpsent tcb rexmt).smss = tcb.smss ∧
      (tcpsent tcb rexmt).cwnd = tcb.cwnd ∧ (tcpsent tcb rexmt).sbcount = tcb.sbcount := by
  unfold tcpsent tcprwindow
  split <;> exact ⟨rfl, rfl, rfl, rfl⟩

theorem empty_in_window (tcb : Tcb) (rexmt : Bool) (empty : (tcpsndlen tcb rexmt).2.toNat = 0) :
    InWindow tcb rexmt := by
  intro offset before
  rw [segment_datalen, empty] at before
  omega

section Burst

variable {tcb : Tcb} {count : Nat}

theorem newdata_cut (flight : Flight tcb.core count)
    (inside : tcb.pending.toNat ≤ tcb.sbcount.toNat) :
    (tcpsndlen tcb false).2.toNat = min (tcb.sbcount.toNat - count) tcb.stride := by
  rw [sndlen_to_nat, newdata_offset flight, ← pending_eq flight, word_sub_to_nat _ _ inside,
    pending_nat flight, Tcb.stride]
  omega

theorem newdata_in_window (flight : Flight tcb.core count)
    (fits : 0 < (tcpsndlen tcb false).2.toNat →
      count + (tcpsndlen tcb false).2.toNat ≤ tcb.swindow.toNat) : InWindow tcb false := by
  intro offset before
  rw [segment_datalen] at before
  have few := flight_count flight
  have bound := tcb.swindow.isLt
  have room := fits (by omega)
  have seq : (tcpsegment tcb false).seq = seqAt tcb.suna count := flight.snext
  have apart := seq_at_sub tcb.suna (count + offset : Nat) 0
  rw [seq_at_zero] at apart
  rw [seq, seq_at_add_nat, ← Int.natCast_add, apart, Int.sub_zero, BitVec.ofInt_natCast,
    BitVec.toNat_ofNat]
  omega

/-- What the loop of `tcpxmit` tests. -/
theorem below_allowance (flight : Flight tcb.core count)
    (opened : tcb.pending.toInt < (wordMin tcb.swindow tcb.cwnd).toInt) :
    count < tcb.allowance := by
  have few := flight_count flight
  have small := to_int_of_small tcb.pending (by rw [pending_nat flight]; omega)
  have limit : (wordMin tcb.swindow tcb.cwnd).toInt ≤ tcb.allowance := by
    rw [Tcb.allowance, ← word_min_to_nat, BitVec.toInt_eq_toNat_cond]
    split <;> omega
  rw [small, pending_nat flight] at opened
  omega

/-- There is room for the rest of a burst. -/
def Tcb.HasRoom (tcb : Tcb) (count : Nat) : Prop :=
  Room tcb.sbcount.toNat tcb.swindow.toNat tcb.allowance tcb.stride count

theorem burst_step (flight : Flight tcb.core count)
    (inside : tcb.pending.toNat ≤ tcb.sbcount.toNat) (room : tcb.HasRoom count)
    (below : count < tcb.allowance) :
    InWindow tcb false ∧ (tcpsent tcb false).HasRoom (newdataCount tcb count) := by
  have within : count ≤ tcb.sbcount.toNat := by rwa [pending_nat flight] at inside
  have step := room_step room below within (newdata_cut flight inside)
  refine ⟨newdata_in_window flight step.1, ?_⟩
  have sizes := tcpsent_sizes tcb false
  have fits := newdata_len flight inside
  have fin := sendcode_fin flight tcb.snext count (tcpsndlen tcb false).2 flight.snext fits
  unfold Tcb.HasRoom Tcb.allowance Tcb.stride newdataCount
  rw [sizes.1, sizes.2.1, sizes.2.2.1, sizes.2.2.2]
  by_cases attached : (tcpsendcode tcb tcb.snext (tcpsndlen tcb false).2).fin = true
  · left
    have last : count + (tcpsndlen tcb false).2.toNat = tcb.sbcount.toNat := by
      rcases fin.mp attached with before | ⟨_, all⟩
      · have behind : tcb.sbcount.toNat ≤ count := flight.behind before
        omega
      · exact all
    have bound : tcb.allowance ≤ tcb.swindow.toNat := Nat.min_le_left _ _
    rcases Nat.eq_zero_or_pos (tcpsndlen tcb false).2.toNat with none | some
    · omega
    · have ends := step.1 some
      omega
  · rw [if_neg attached, Nat.add_zero]
    exact step.2

end Burst

theorem emits_grow {main after : Main} (emits : Emits main after) :
    ∃ sends, after.sends = main.sends ++ sends := by
  induction emits with
  | refl => exact ⟨[], by simp⟩
  | tail _ emit ih =>
      obtain ⟨sends, grown⟩ := ih
      cases emit with
      | freed => exact ⟨sends, grown⟩
      | sent tcb found rexmt => exact ⟨sends ++ [(tcb, rexmt)], by simp [grown]⟩

theorem xmitloop_in_window (fuel : Nat) (conn after : Conn) (count : Nat)
    (flight : Flight conn.tcb.core count) (room : conn.tcb.HasRoom count)
    (ended : tcpxmitloop (wordMin conn.tcb.swindow conn.tcb.cwnd).toInt fuel conn = some after)
    (inside : NewdataInside after.trace.sends) :
    ∃ sends, after.trace.sends = conn.trace.sends ++ sends ∧
      ∀ send ∈ sends, InWindow send.1 send.2 := by
  induction fuel generalizing conn count with
  | zero => simp [tcpxmitloop] at ended
  | succ fuel ih =>
      rw [tcpxmitloop] at ended
      split at ended
      · rename_i opened
        have sizes := tcpsent_sizes conn.tcb false
        have next : (wordMin conn.tcb.swindow conn.tcb.cwnd) =
            wordMin (tcpsend conn false).tcb.swindow (tcpsend conn false).tcb.cwnd := by
          rw [tcpsend_tcb, sizes.1, sizes.2.2.1]
        rw [next] at ended
        obtain ⟨later, grown⟩ := emits_grow (tcpxmitloop_emits _ _ fuel after ended)
        change after.trace.sends = (tcpsend conn false).trace.sends ++ later at grown
        rw [tcpsend_sends] at grown
        have here := inside (conn.tcb, false) (by simp [grown]) rfl
        have step := burst_step flight here room (below_allowance flight opened.2)
        have moved := newdata_sent flight here
        rw [← tcpsend_tcb] at step moved
        obtain ⟨sends, split, windows⟩ := ih (tcpsend conn false) _ moved step.2 ended
        refine ⟨(conn.tcb, false) :: sends, ?_, ?_⟩
        · rw [split, tcpsend_sends, List.append_assoc]
          rfl
        · intro send member
          rcases List.mem_cons.mp member with first | rest
          · rw [first]
            exact step.1
          · exact windows send rest
      · cases ended
        exact ⟨[], by simp, by simp⟩

/-- While the SYN is outstanding nothing carries data. -/
theorem xmitloop_opening (window : Int) (fuel : Nat) (conn after : Conn)
    (opening : Opening conn.tcb.core)
    (ended : tcpxmitloop window fuel conn = some after)
    (inside : NewdataInside after.trace.sends) :
    ∃ sends, after.trace.sends = conn.trace.sends ++ sends ∧
      ∀ send ∈ sends, InWindow send.1 send.2 := by
  induction fuel generalizing conn with
  | zero => simp [tcpxmitloop] at ended
  | succ fuel ih =>
      rw [tcpxmitloop] at ended
      split at ended
      · obtain ⟨later, grown⟩ := emits_grow (tcpxmitloop_emits _ _ fuel after ended)
        change after.trace.sends = (tcpsend conn false).trace.sends ++ later at grown
        rw [tcpsend_sends] at grown
        have here := inside (conn.tcb, false) (by simp [grown])
        have moved := opening_sent opening false here
        rw [← tcpsend_tcb] at moved
        obtain ⟨sends, split, windows⟩ := ih (tcpsend conn false) moved ended
        refine ⟨(conn.tcb, false) :: sends, ?_, ?_⟩
        · rw [split, tcpsend_sends, List.append_assoc]
          rfl
        · intro send member
          rcases List.mem_cons.mp member with first | rest
          · rw [first]
            exact empty_in_window conn.tcb false (by rw [opening_len opening]; rfl)
          · exact windows send rest
      · cases ended
        exact ⟨[], by simp, by simp⟩

/-- What is left to send: the data behind those in flight, and a FIN. -/
theorem howmuch_eq {tcb : Tcb} {count : Nat} (flight : Flight tcb.core count) :
    tcphowmuch tcb = tcb.sbcount.toNat - count + (if tcb.flags.sndfin then 1 else 0) := by
  have syn : tcb.code.syn = false := flight.syn
  have bound : tcb.sbcount.toNat ≤ 4096 := flight.sbcount
  have few := flight_count flight
  have snext : tcb.snext = seqAt tcb.suna count := flight.snext
  have last := seq_at_add_word tcb.suna 0 tcb.sbcount
  rw [seq_at_zero, Int.zero_add] at last
  unfold tcphowmuch
  rw [syn, last, snext, seq_at_sub]
  simp only [Bool.false_eq_true, if_false, add_zero]
  split
  · have one : (1 : Word) = BitVec.ofInt 32 1 := rfl
    rw [one, ← BitVec.ofInt_add, to_int_of_range _ (by omega) (by omega)]
  · rw [add_zero, to_int_of_range _ (by omega) (by omega), Int.add_zero]

/-- A forced acknowledgement with nothing left to send is empty. -/
theorem forced_in_window {tcb : Tcb} (phase : Phase tcb.core) (nothing : tcphowmuch tcb = 0)
    (inside : tcb.pending.toNat ≤ tcb.sbcount.toNat) : InWindow tcb false := by
  apply empty_in_window
  rcases phase with opening | ⟨count, flight⟩
  · rw [opening_len opening]
    rfl
  · rw [howmuch_eq flight] at nothing
    have fits := newdata_len flight inside
    split at nothing <;> omega

theorem startTimer_sends (conn : Conn) : conn.startTimer.trace.sends = conn.trace.sends :=
  congrArg Main.sends (startTimer_main conn)

theorem xmitidle_sends (conn : Conn) : (tcpxmitidle conn).trace.sends =
    conn.trace.sends ++ (if conn.tcb.flags.needout then [(conn.tcb, false)] else []) := by
  have sent : (if conn.tcb.flags.needout then tcpsend conn false else conn).trace.sends =
      conn.trace.sends ++ (if conn.tcb.flags.needout then [(conn.tcb, false)] else []) := by
    split
    · exact tcpsend_sends conn false
    · rw [List.append_nil]
  unfold tcpxmitidle
  simp only
  generalize (if conn.tcb.flags.needout then tcpsend conn false else conn) = next at sent ⊢
  split
  · exact sent
  · rw [startTimer_sends]
    exact sent

theorem xmit_in_window (fuel : Nat) (conn after : Conn) (phase : Phase conn.tcb.core)
    (room : conn.tcb.HasRoom conn.tcb.pending.toNat)
    (ended : tcpxmit fuel conn .send = some after) (inside : NewdataInside after.trace.sends) :
    ∃ sends, after.trace.sends = conn.trace.sends ++ sends ∧
      ∀ send ∈ sends, InWindow send.1 send.2 := by
  unfold tcpxmit at ended
  rw [if_neg (by decide)] at ended
  split at ended
  · rename_i nothing
    cases ended
    rw [xmitidle_sends] at inside ⊢
    refine ⟨_, rfl, ?_⟩
    by_cases forced : conn.tcb.flags.needout = true
    · rw [if_pos forced] at inside ⊢
      intro send member
      rw [List.mem_singleton] at member
      rw [member]
      exact forced_in_window phase nothing (inside (conn.tcb, false) (by simp) rfl)
    · simp [forced]
  · split at ended
    · rename_i shut
      cases ended
      refine ⟨[({ conn.tcb with ostate := .persist, persist := conn.tcb.rexmt }, false)],
        tcpsend_sends _ false, ?_⟩
      intro send member
      rw [List.mem_singleton] at member
      rw [member]
      apply empty_in_window
      rw [sndlen_to_nat]
      simp [shut]
    · simp only at ended
      rw [Option.map_eq_some_iff] at ended
      obtain ⟨last, loop, rfl⟩ := ended
      rw [startTimer_sends] at inside ⊢
      rcases phase with opening | ⟨count, flight⟩
      · exact xmitloop_opening _ fuel { conn with tcb := { conn.tcb with ostate := .xmit } } last
          opening loop inside
      · rw [pending_nat flight] at room
        exact xmitloop_in_window fuel { conn with tcb := { conn.tcb with ostate := .xmit } } last
          count flight room loop inside

/-- The next message of the port is a SEND that `tcpxmit` handles. -/
structure HandlesSend (conn : Conn) : Prop where
  queued : ∃ rest, conn.oport = (.send, conn.tcbnum) :: rest
  alive : TcpState.closed.number < conn.tcb.state.number
  ostate : conn.tcb.ostate = .idle ∨ conn.tcb.ostate = .xmit

theorem handles_send_eq {conn : Conn} (handles : HandlesSend conn) (fuel : Nat) :
    ∃ rest, connStep conn (.output fuel) = (tcpxmit fuel { conn with oport := rest } .send).getD conn := by
  obtain ⟨rest, queued⟩ := handles.queued
  have alive := handles.alive
  refine ⟨rest, ?_⟩
  rw [connStep, tcpout, queued]
  simp only [ne_eq, not_true_eq_false, if_false]
  rw [if_neg (by omega)]
  simp only [reduceCtorEq, if_false]
  unfold tcposwitch
  rcases handles.ostate with idle | xmit
  · simp only [idle, tcpidle, if_true]
  · simp only [xmit]

/-- The segments that an event sends. -/
def newSends (conn : Conn) (event : Event) : List (Tcb × Bool) :=
  (connStep conn event).trace.sends.drop conn.trace.sends.length

theorem peer_window_respected (start conn : Conn) (fuel : Nat) (opened : Opened start)
    (reached : Runs.Reach connStep (fun _ _ => True) start conn) (handles : HandlesSend conn)
    (inside : NewdataInside (connStep conn (.output fuel)).trace.sends)
    (counted : FinCounted (connStep conn (.output fuel)).trace.acks)
    (answered : SynAnswered (connStep conn (.output fuel)).trace.acks)
    (writes : WritesOpen (connStep conn (.output fuel)).trace.writes)
    (room : conn.tcb.HasRoom conn.tcb.pending.toNat) :
    ∀ send ∈ newSends conn (.output fuel), InWindow send.1 send.2 := by
  obtain ⟨opening, none⟩ := opened_main opened
  have kept := invariant_of_micro emissions_micro reached
    (fun _ => ⟨Or.inl opening, by simp [none]⟩)
  have phase : Phase conn.tcb.core :=
    (kept (tidy_before_chain (step_chain conn (.output fuel))
      ⟨⟨inside, counted, writes⟩, answered⟩)).1
  obtain ⟨rest, step⟩ := handles_send_eq handles fuel
  unfold newSends
  rw [step] at inside ⊢
  cases ended : tcpxmit fuel { conn with oport := rest } .send with
  | none => simp
  | some after =>
      rw [ended, Option.getD_some] at inside
      obtain ⟨sends, split, windows⟩ := xmit_in_window fuel { conn with oport := rest } after
        phase room ended inside
      rw [Option.getD_some, split, List.drop_left]
      exact windows

/-- A connection open with a window of 700 octets for segments of 512 and `octets` octets
written. -/
def burstRun (octets : Nat) : List Event :=
  [.output 4,
    .segment { segment := {
      seq := 500
      ack := 101
      code := { syn := true, ack := true }
      window := 700 } },
    .output 4, .write (List.replicate octets 7) false, .resume 0]

theorem burst_reached (octets : Nat) : Runs.Reach connStep (fun _ _ => True) activeConn
    ((burstRun octets).foldl connStep activeConn) := by
  apply Runs.reach_of_permitted (burstRun octets) Runs.Reach.start
  simp [burstRun, Runs.Permitted]

/-- 700 octets go out as 512 and 188, up to the end of the window. -/
theorem small_burst_in_window :
    (∀ send ∈ newSends ((burstRun 700).foldl connStep activeConn) (.output 4),
      InWindow send.1 send.2) ∧
    (newSends ((burstRun 700).foldl connStep activeConn) (.output 4)).map
      (fun send => (tcpsegment send.1 send.2).datalen) = [512, 188] := by
  constructor
  · exact peer_window_respected _ _ 4 active_opened (burst_reached 700)
      ⟨⟨[], by decide⟩, by decide, by decide⟩ (by decide) (by decide) (by decide) (by decide)
      (by unfold Tcb.HasRoom; decide)
  · simp only [segment_datalen]
    decide

/-- 1024 octets go out as 512 and 512, past the end of the window. -/
theorem large_burst_leaves_window :
    ¬ ∀ (start conn : Conn) (fuel : Nat), Opened start →
      Runs.Reach connStep (fun _ _ => True) start conn → HandlesSend conn →
      ∀ send ∈ newSends conn (.output fuel), InWindow send.1 send.2 := by
  intro claimed
  have windows := claimed _ _ 4 active_opened (burst_reached 1024)
    ⟨⟨[], by decide⟩, by decide, by decide⟩
  have lengths : (newSends ((burstRun 1024).foldl connStep activeConn) (.output 4)).map
      (fun send => ((tcpsndlen send.1 send.2).2.toNat, send.1.snext, send.1.suna,
        send.1.swindow, send.2)) = [(512, 101, 101, 700, false), (512, 613, 101, 700, false)] := by
    decide
  have member : (512, (613 : Word), (101 : Word), (700 : Word), false) ∈
      (newSends ((burstRun 1024).foldl connStep activeConn) (.output 4)).map
      (fun send => ((tcpsndlen send.1 send.2).2.toNat, send.1.snext, send.1.suna,
        send.1.swindow, send.2)) := by
    rw [lengths]
    decide
  obtain ⟨send, listed, fields⟩ := List.mem_map.mp member
  simp only [Prod.mk.injEq] at fields
  obtain ⟨len, snext, suna, swindow, newdata⟩ := fields
  have beyond := windows send listed 511 (by rw [segment_datalen, len]; decide)
  have seq : (tcpsegment send.1 send.2).seq = 613 := by
    rw [newdata]
    exact snext
  rw [seq, suna, swindow] at beyond
  exact absurd beyond (by decide)

end MvsXinu.Tcp
