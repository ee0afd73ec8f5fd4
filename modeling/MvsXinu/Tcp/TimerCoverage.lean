import MvsXinu.Tcp.ControlFlags
import MvsXinu.Tcp.Handshake

/-!
# Outstanding data are watched

Something sent and not acknowledged is resent only if an event for the connection is due: a
timer is running or a message waits in the port. Which event helps depends on the output
state: IDLE and REXMT ignore some. `Covered` says which one must be due in which state, and
every function of the connection keeps it, as long as a kick finds room in the port, the
final wait is not entered with data outstanding, and no acknowledgement empties the buffer
but leaves the FIN.
-/

namespace MvsXinu.Tcp

open MvsXinu.SeqSpace

set_option autoImplicit false

/-- A timer for the event is running or its message is waiting. -/
def Conn.Due (conn : Conn) (event : OutEvent) : Prop :=
  Running (conn.key event) conn.timers ∨ (event, conn.tcbnum) ∈ conn.oport

instance (conn : Conn) (event : OutEvent) : Decidable (conn.Due event) :=
  inferInstanceAs (Decidable (_ ∨ _))

/-- Some sequence number is sent and not acknowledged. -/
def Tcb.Outstanding (tcb : Tcb) : Prop := tcb.snext ≠ tcb.suna

instance (tcb : Tcb) : Decidable tcb.Outstanding :=
  inferInstanceAs (Decidable (tcb.snext ≠ tcb.suna))

def Covered (conn : Conn) : Prop :=
  conn.tcb.Outstanding →
    match conn.tcb.ostate with
    | .idle => False
    | .persist => conn.Due .persist ∨ conn.Due .send
    | .xmit => conn.Due .retransmit ∨ conn.Due .persist ∨ conn.Due .send
    | .rexmt => conn.Due .retransmit

theorem covered_persist {conn : Conn} (output : conn.tcb.ostate = .persist) :
    Covered conn ↔ (conn.tcb.Outstanding → conn.Due .persist ∨ conn.Due .send) := by
  unfold Covered
  rw [output]

theorem covered_rexmt {conn : Conn} (output : conn.tcb.ostate = .rexmt) :
    Covered conn ↔ (conn.tcb.Outstanding → conn.Due .retransmit) := by
  unfold Covered
  rw [output]

/-- What the amended behaviour leaves out, in terms of the record. -/
structure Trace.Calm (trace : Trace) : Prop where
  -- a kick for outstanding data finds room in the port
  kicks : ∀ kick ∈ trace.kicks, kick.1.Outstanding → kick.2 = true
  -- the final wait is entered with nothing outstanding
  waits : ∀ tcb ∈ trace.waits, ¬ tcb.Outstanding
  -- an acknowledgement of all data covers a FIN that was sent
  acks : ∀ look ∈ trace.acks, 0 < seqcmp look.2.ack look.1.suna →
    seqcmp look.2.ack look.1.snext ≤ 0 →
    look.1.sbcount = BitVec.ofInt 32 (tcpackedlen look.1 look.2.ack) → look.2.ack = look.1.snext
  -- the count of the send buffer has not wrapped
  sends : ∀ send ∈ trace.sends, send.1.sbcount.toNat ≤ tcpsbs

/-- An error ends it. -/
def Guarded (conn : Conn) : Prop :=
  conn.trace.Calm → conn.tcb.error.isSome = true ∨ Covered conn

/-- What `Covered` reads of the control block. -/
def Tcb.view (tcb : Tcb) : OutState × Tcpseq × Tcpseq × Option TcpError :=
  (tcb.ostate, tcb.snext, tcb.suna, tcb.error)

theorem view_of_sending {tcb other : Tcb} (same : other.sending = tcb.sending) :
    other.view = tcb.view := by
  change other.sending.view = tcb.sending.view
  rw [same]

section Frame

variable {conn after : Conn}

theorem covered_of_view (covered : Covered conn) (view : after.tcb.view = conn.tcb.view)
    (due : ∀ event, conn.Due event → after.Due event) : Covered after := by
  simp only [Tcb.view, Prod.mk.injEq] at view
  obtain ⟨ostate, snext, suna, _⟩ := view
  intro outstanding
  unfold Tcb.Outstanding at outstanding
  rw [snext, suna] at outstanding
  have watched := covered outstanding
  rw [ostate]
  cases output : conn.tcb.ostate with
  | idle => rwa [output] at watched
  | persist =>
      rw [output] at watched
      exact watched.imp (due _) (due _)
  | xmit =>
      rw [output] at watched
      exact watched.imp (due _) (Or.imp (due _) (due _))
  | rexmt =>
      rw [output] at watched
      exact due _ watched

theorem guarded_of_view (guarded : Guarded conn) (view : after.tcb.view = conn.tcb.view)
    (due : ∀ event, conn.Due event → after.Due event)
    (calm : after.trace.Calm → conn.trace.Calm) : Guarded after := by
  intro quiet
  rcases guarded (calm quiet) with error | covered
  · left
    simp only [Tcb.view, Prod.mk.injEq] at view
    rw [view.2.2.2]
    exact error
  · exact Or.inr (covered_of_view covered view due)

end Frame

section Timers

variable (conn : Conn)

theorem key_injective {left right : OutEvent} (same : conn.key left = conn.key right) :
    left = right := by
  simp only [Conn.key, TimerKey.oport.injEq] at same
  exact same.1

theorem setTimer_due (event other : OutEvent) (time : Int) (due : conn.Due other) :
    (conn.setTimer event time).Due other := by
  rcases due with running | queued
  · left
    change Running (conn.key other) (tmset conn.ctr100 (conn.key event) time conn.timers)
    rw [tmset_running]
    exact Or.inr running
  · exact Or.inr queued

theorem setTimer_sets (event : OutEvent) (time : Int) : (conn.setTimer event time).Due event := by
  left
  change Running (conn.key event) (tmset conn.ctr100 (conn.key event) time conn.timers)
  rw [tmset_running]
  exact Or.inl rfl

theorem clearTimer_due (event other : OutEvent) (different : other ≠ event)
    (due : conn.Due other) : (conn.clearTimer event).Due other := by
  rcases due with running | queued
  · left
    change Running (conn.key other) (tmclear conn.ctr100 (conn.key event) conn.timers).2
    rw [tmclear_running]
    · exact running
    · intro same
      exact different (key_injective conn same)
  · exact Or.inr queued

theorem startTimer_due : conn.startTimer.Due .retransmit := by
  unfold Conn.startTimer
  split
  · exact setTimer_sets conn .retransmit _
  · rename_i left
    exact Or.inl (tmleft_running _ _ left)

theorem startTimer_tcb : conn.startTimer.tcb = conn.tcb := by
  unfold Conn.startTimer
  split <;> rfl

/-- A message taken from the port. -/
theorem dequeue_due {event other : OutEvent} {tcbnum : Nat} {rest : List (OutEvent × Nat)}
    (queue : conn.oport = (event, tcbnum) :: rest)
    (different : (other, conn.tcbnum) ≠ (event, tcbnum)) (due : conn.Due other) :
    ({ conn with oport := rest } : Conn).Due other := by
  rcases due with running | queued
  · exact Or.inl running
  · rw [queue] at queued
    rcases List.mem_cons.mp queued with head | tail
    · exact absurd head different
    · exact Or.inr tail

theorem tick_due (delta : Int) (event : OutEvent) (due : conn.Due event) :
    (conn.tick delta).Due event := by
  rcases due with running | queued
  · rcases tcptimer_running delta (conn.key event) conn.timers running with sent | left
    · right
      apply List.mem_append_right
      rw [List.mem_filterMap]
      exact ⟨conn.key event, sent, rfl⟩
    · exact Or.inl left
  · exact Or.inr (List.mem_append_left _ queued)

end Timers

section Kick

variable (conn : Conn)

theorem tcpkick_due (event : OutEvent) (due : conn.Due event) : (tcpkick conn).Due event := by
  unfold tcpkick
  split
  · exact setTimer_due conn .send event _ due
  · rcases due with running | queued
    · exact Or.inl running
    · right
      simp only
      split
      · exact List.mem_append_left _ queued
      · exact queued

theorem tcpkick_calm (calm : (tcpkick conn).trace.Calm) : conn.trace.Calm := by
  unfold tcpkick at calm
  split at calm
  · exact calm
  · refine ⟨?_, calm.waits, calm.acks, calm.sends⟩
    intro kick member
    exact calm.kicks kick (List.mem_append_left _ member)

/-- With room in the port a kick makes SEND due, at once or after the delay. -/
theorem tcpkick_kicks (calm : (tcpkick conn).trace.Calm) (outstanding : conn.tcb.Outstanding) :
    (tcpkick conn).Due .send := by
  unfold tcpkick at calm ⊢
  split
  · exact setTimer_sets conn .send _
  · rename_i now
    rw [if_neg now] at calm
    have room := calm.kicks (conn.tcb, decide (conn.oport.length < tcpqlen)) (by simp) outstanding
    simp only at room
    right
    simp [room]

theorem tcpkick_guarded (guarded : Guarded conn) : Guarded (tcpkick conn) :=
  guarded_of_view guarded (congrArg Tcb.view (tcpkick_tcb conn)) (tcpkick_due conn)
    (tcpkick_calm conn)

theorem tcpwait_guarded : Guarded (tcpwait conn) := by
  intro calm
  right
  intro outstanding
  exact absurd outstanding (calm.waits conn.tcb (by simp [tcpwait, tcpkilltimers, Conn.setTimer,
    Conn.clearTimer]))

end Kick

section Acknowledge

variable (conn : Conn)

theorem tcprtt_view : (tcprtt conn).tcb.view = conn.tcb.view := by
  unfold tcprtt
  simp only
  split
  · rfl
  · split <;> rfl

theorem tcpreset_guarded (segment : Segment) (guarded : Guarded conn) :
    Guarded (tcpreset conn segment) := by
  unfold tcpreset
  split
  · exact guarded
  · exact guarded_of_view guarded rfl (fun _ due => due)
      (fun calm => ⟨calm.kicks, calm.waits, calm.acks, calm.sends⟩)

theorem tcpackit_guarded (segment : Segment) (guarded : Guarded conn) :
    Guarded (tcpackit conn segment) := by
  unfold tcpackit
  split
  · exact guarded
  · split
    · exact guarded
    · exact guarded_of_view guarded (view_of_sending (tcprwindow_sending conn.tcb))
        (fun _ due => due) (fun calm => ⟨calm.kicks, calm.waits, calm.acks, calm.sends⟩)

/-- An acknowledgement looked at. -/
def Conn.look (conn : Conn) (segment : Segment) : Conn :=
  { conn with trace := { conn.trace with acks := conn.trace.acks ++ [(conn.tcb, segment)] } }

theorem look_calm (segment : Segment) (calm : (conn.look segment).trace.Calm) :
    conn.trace.Calm := by
  refine ⟨calm.kicks, calm.waits, ?_, calm.sends⟩
  intro look member
  exact calm.acks look (List.mem_append_left _ member)

theorem look_guarded (segment : Segment) (guarded : Guarded conn) :
    Guarded (conn.look segment) :=
  guarded_of_view guarded rfl (fun _ due => due) (look_calm conn segment)

/-- The connection with the acknowledgement accepted, before `tcpostate`. -/
def Conn.accept (conn : Conn) (ack : Tcpseq) : Conn :=
  { tcprtt conn with tcb := tcpaccepted (tcprtt conn).tcb ack }

theorem accept_fields (ack : Tcpseq) :
    (conn.accept ack).tcb.ostate = conn.tcb.ostate ∧ (conn.accept ack).tcb.snext = conn.tcb.snext ∧
      (conn.accept ack).tcb.suna = ack ∧ (conn.accept ack).tcb.error = conn.tcb.error ∧
      (conn.accept ack).tcb.sbcount = conn.tcb.sbcount - BitVec.ofInt 32 (tcpackedlen conn.tcb ack) := by
  have view := tcprtt_view conn
  have core : (tcprtt conn).tcb.core = conn.tcb.core := congrArg Main.core (tcprtt_main conn)
  simp only [Tcb.view, Prod.mk.injEq] at view
  refine ⟨view.1, view.2.1, rfl, view.2.2.2, ?_⟩
  change (tcprtt conn).tcb.sbcount - BitVec.ofInt 32 (tcpackedlen (tcprtt conn).tcb ack) = _
  rw [tcpackedlen_core core]
  exact congrArg (fun core => core.sbcount - _) core

/-- After an accepted acknowledgement the output state is not REXMT, and SEND is due if the
buffer is not empty. -/
theorem tcpostate_covers (acked : Int) (some : 0 < acked) (busy : conn.tcb.ostate ≠ .idle)
    (emptied : conn.tcb.sbcount = 0 → ¬ conn.tcb.Outstanding)
    (calm : (tcpostate conn acked).trace.Calm) : Covered (tcpostate conn acked) := by
  unfold tcpostate at calm ⊢
  rw [if_neg (by omega)] at calm ⊢
  simp only at calm ⊢
  generalize resumed : (if conn.tcb.ostate = .rexmt then
      { conn with tcb := { conn.tcb with rexmtcount := 0, ostate := .xmit } } else conn) = next
    at calm ⊢
  have fields : next.tcb.snext = conn.tcb.snext ∧ next.tcb.suna = conn.tcb.suna ∧
      next.tcb.sbcount = conn.tcb.sbcount ∧
      (next.tcb.ostate = .persist ∨ next.tcb.ostate = .xmit) := by
    rw [← resumed]
    split
    · exact ⟨rfl, rfl, rfl, Or.inr rfl⟩
    · refine ⟨rfl, rfl, rfl, ?_⟩
      cases output : conn.tcb.ostate with
      | idle => exact absurd output busy
      | persist => exact Or.inl rfl
      | xmit => exact Or.inr rfl
      | rexmt => contradiction
  obtain ⟨snext, suna, sbcount, running⟩ := fields
  split at calm
  · rename_i empty
    rw [if_pos empty]
    intro outstanding
    have nothing := emptied (sbcount.symm.trans empty)
    unfold Tcb.Outstanding at outstanding nothing
    rw [snext, suna] at outstanding
    exact absurd outstanding nothing
  · rename_i full
    rw [if_neg full]
    intro outstanding
    rw [tcpkick_tcb] at outstanding ⊢
    have due := tcpkick_kicks next calm outstanding
    rcases running with output | output
    · rw [output]
      exact Or.inr due
    · rw [output]
      exact Or.inr (Or.inr due)

theorem tcpostate_error (acked : Int) :
    (tcpostate conn acked).tcb.error = conn.tcb.error := by
  unfold tcpostate
  simp only
  split_ifs <;> simp only [tcpkick_tcb]

theorem tcpostate_calm (acked : Int) (calm : (tcpostate conn acked).trace.Calm) :
    conn.trace.Calm := by
  unfold tcpostate at calm
  simp only at calm
  split_ifs at calm
  · exact calm
  · exact calm
  · have earlier := tcpkick_calm _ calm
    exact earlier
  · exact calm
  · exact tcpkick_calm conn calm

/-- An acceptable acknowledgement as a whole. -/
theorem accept_guarded (segment : Segment) (acked : Int) (some : 0 < acked)
    (new : 0 < seqcmp segment.ack conn.tcb.suna) (known : seqcmp segment.ack conn.tcb.snext ≤ 0)
    (guarded : Guarded (conn.look segment)) :
    Guarded (tcpostate ((conn.look segment).accept segment.ack) acked) := by
  obtain ⟨ostate, snext, suna, error, sbcount⟩ := accept_fields (conn.look segment) segment.ack
  have outstanding : conn.tcb.Outstanding := by
    intro same
    rw [same] at known
    omega
  intro calm
  have earlier : (conn.look segment).trace.Calm := by
    have accepted := tcpostate_calm _ _ calm
    exact accepted
  rcases guarded earlier with failed | covered
  · left
    rw [tcpostate_error, error]
    exact failed
  · right
    apply tcpostate_covers _ acked some _ _ calm
    · rw [ostate]
      intro idle
      have never := covered outstanding
      rw [idle] at never
      exact never
    · intro empty
      rw [sbcount, sub_eq_zero] at empty
      have whole := earlier.acks (conn.tcb, segment) (by simp [Conn.look]) new known empty
      unfold Tcb.Outstanding
      rw [snext, suna, not_not]
      exact whole.symm

theorem tcpacked_guarded (segment : Segment) (guarded : Guarded conn) :
    Guarded (tcpacked conn segment).2 := by
  have looked := look_guarded conn segment guarded
  unfold tcpacked
  simp only
  split
  · exact guarded
  · split
    · exact looked
    · rename_i new
      split
      · simp only
        split
        · exact tcpreset_guarded _ segment looked
        · exact tcpackit_guarded _ segment looked
      · rename_i known
        apply accept_guarded conn segment _ _ (by omega) (by omega) looked
        have suna : (tcprtt (conn.look segment)).tcb.suna = conn.tcb.suna :=
          congrArg (fun view => view.2.2.1) (tcprtt_view (conn.look segment))
        unfold tcpackedlen
        change _ < seqcmp segment.ack (tcprtt (conn.look segment)).tcb.suna - _ - _ + _
        rw [suna]
        omega

end Acknowledge

section Handlers

variable (conn : Conn) (inbound : Inbound)

theorem tcpdeliver_guarded (guarded : Guarded conn) : Guarded (tcpdeliver conn inbound) := by
  have delivered : Guarded { conn with
      tcb := tcpdata conn.tcb inbound.segment inbound.newqOk } :=
    guarded_of_view guarded
      (view_of_sending (tcpdata_sending conn.tcb inbound.segment inbound.newqOk))
      (fun _ due => due) id
  unfold tcpdeliver
  simp only
  split
  · exact tcpkick_guarded _ delivered
  · exact delivered

/-- When the window opens in PERSIST the probes end and SEND takes over. -/
theorem tcpswindow_guarded (segment : Segment) (guarded : Guarded conn) :
    Guarded (tcpswindow conn segment) := by
  unfold tcpswindow
  simp only
  split_ifs with older oldest shrunk probing
  · exact guarded
  · exact guarded
  · exact guarded_of_view guarded rfl (fun _ due => due) id
  · intro calm
    have earlier : conn.trace.Calm := by
      have before := tcpkick_calm _ calm
      exact before
    rcases guarded earlier with failed | _
    · left
      rw [tcpkick_tcb]
      exact failed
    · right
      intro outstanding
      rw [tcpkick_tcb] at outstanding
      have due := tcpkick_kicks _ calm outstanding
      rw [tcpkick_tcb]
      exact Or.inr (Or.inr due)
  · apply tcpkick_guarded
    exact guarded_of_view guarded rfl (fun _ due => due) id

theorem enter_guarded (state : TcpState) (guarded : Guarded conn) : Guarded (conn.enter state) :=
  guarded_of_view guarded rfl (fun _ due => due) id

theorem tcpabort_guarded (error : TcpError) : Guarded (tcpabort conn error) :=
  fun _ => Or.inl rfl

/-- The block is gone, or what is outstanding is watched. -/
def Watched (conn : Conn) : Prop :=
  conn.tcb.state = .free ∨ conn.tcb.state = .closed ∨ Guarded conn

theorem aborts_or_guarded (rest : Conn) (segment : Segment) (guarded : Guarded rest) :
    Guarded ((tcpaborts conn segment).getD rest) := by
  unfold tcpaborts
  split_ifs
  · exact tcpabort_guarded conn .reset
  · exact tcpabort_guarded _ .reset
  · exact guarded

theorem frees_or_watched (rest : Conn) (segment : Segment) (guarded : Guarded rest) :
    Watched ((tcpfrees conn segment).getD rest) := by
  unfold tcpfrees
  split_ifs
  · exact Or.inl (tcbdealloc_state conn)
  · exact Or.inl (tcbdealloc_state _)
  · exact Or.inr (Or.inr guarded)

theorem tcpsynsent_watched (guarded : Guarded conn) : Watched (tcpsynsent conn inbound) := by
  have reset := tcpreset_guarded conn inbound.segment guarded
  unfold tcpsynsent
  simp only
  split_ifs
  · exact Or.inr (Or.inr reset)
  · exact Or.inr (Or.inl rfl)
  · exact Or.inr (Or.inr guarded)
  all_goals
    right
    right
    apply enter_guarded
    apply tcpdeliver_guarded
    apply tcpacked_guarded
    exact guarded_of_view guarded rfl (fun _ due => due) id

theorem tcpsynrcvd_watched (guarded : Guarded conn) : Watched (tcpsynrcvd conn inbound) := by
  have acked := tcpacked_guarded conn inbound.segment guarded
  unfold tcpsynrcvd
  simp only
  split_ifs
  · exact Or.inl (tcbdealloc_state conn)
  · exact Or.inr (Or.inr (tcpabort_guarded conn .refused))
  · exact Or.inr (Or.inr (tcpabort_guarded _ .reset))
  · exact Or.inr (Or.inr acked)
  · exact Or.inl (tcbdealloc_state _)
  · right
    right
    have delivered := tcpdeliver_guarded _ inbound (enter_guarded _ .established acked)
    unfold tcpsynopened
    simp only
    split
    · exact enter_guarded _ .closewait delivered
    · exact delivered

/-- The part that the handlers of the synchronised states share. -/
theorem handled_guarded (guarded : Guarded conn) :
    Guarded (tcpswindow (tcpdeliver (tcpacked conn inbound.segment).2 inbound)
      inbound.segment) :=
  tcpswindow_guarded _ _ (tcpdeliver_guarded _ inbound
    (tcpacked_guarded conn inbound.segment guarded))

theorem tcpestablished_guarded (guarded : Guarded conn) :
    Guarded (tcpestablished conn inbound) := by
  have acked := tcpacked_guarded conn inbound.segment guarded
  have handled := handled_guarded conn inbound guarded
  unfold tcpestablished
  apply aborts_or_guarded
  simp only
  split_ifs
  · exact acked
  · exact enter_guarded _ .closewait handled
  · exact handled

theorem tcpfin1_guarded (guarded : Guarded conn) : Guarded (tcpfin1 conn inbound) := by
  have acked := tcpacked_guarded conn inbound.segment guarded
  have handled := handled_guarded conn inbound guarded
  unfold tcpfin1
  apply aborts_or_guarded
  simp only
  split_ifs
  · exact acked
  · exact enter_guarded _ .closing handled
  · exact tcpwait_guarded _
  · exact handled
  · exact enter_guarded _ .finwait2 handled

theorem tcpfin2_guarded (guarded : Guarded conn) : Guarded (tcpfin2 conn inbound) := by
  have acked := tcpacked_guarded conn inbound.segment guarded
  unfold tcpfin2
  apply aborts_or_guarded
  simp only
  split_ifs
  · exact acked
  · exact tcpwait_guarded _
  · exact tcpdeliver_guarded _ inbound acked

theorem tcpclosing_watched (guarded : Guarded conn) : Watched (tcpclosing conn inbound) := by
  unfold tcpclosing
  apply frees_or_watched
  simp only
  split_ifs
  · exact tcpacked_guarded conn inbound.segment guarded
  · exact tcpwait_guarded _

theorem tcpswitch_watched (guarded : Guarded conn) : Watched (tcpswitch conn inbound) := by
  have acked := tcpacked_guarded conn inbound.segment guarded
  unfold tcpswitch
  split
  · exact Or.inr (Or.inr guarded)
  · exact Or.inr (Or.inr (tcpreset_guarded conn inbound.segment guarded))
  · exact Or.inr (Or.inr guarded)
  · exact tcpsynsent_watched conn inbound guarded
  · exact tcpsynrcvd_watched conn inbound guarded
  · exact Or.inr (Or.inr (tcpestablished_guarded conn inbound guarded))
  · exact Or.inr (Or.inr (tcpfin1_guarded conn inbound guarded))
  · exact Or.inr (Or.inr (tcpfin2_guarded conn inbound guarded))
  · exact Or.inr (Or.inr (aborts_or_guarded conn _ inbound.segment
      (tcpswindow_guarded _ _ acked)))
  · exact Or.inr (Or.inr (aborts_or_guarded conn _ inbound.segment acked))
  · exact tcpclosing_watched conn inbound guarded
  · exact frees_or_watched conn _ inbound.segment (tcpwait_guarded _)

end Handlers

section Output

variable (conn : Conn)

theorem tcpsend_calm (rexmt : Bool) (calm : (tcpsend conn rexmt).trace.Calm) :
    conn.trace.Calm ∧ conn.tcb.sbcount.toNat ≤ tcpsbs := by
  have sends : ∀ trace : Trace, trace.sends = conn.trace.sends ++ [(conn.tcb, rexmt)] →
      trace.Calm → (∀ send ∈ conn.trace.sends, send.1.sbcount.toNat ≤ tcpsbs) ∧
        conn.tcb.sbcount.toNat ≤ tcpsbs := by
    intro trace grown calm
    constructor
    · intro send member
      exact calm.sends send (by rw [grown]; exact List.mem_append_left _ member)
    · exact calm.sends (conn.tcb, rexmt) (by simp [grown])
  have listed := sends _ (tcpsend_sends conn rexmt) calm
  refine ⟨?_, listed.2⟩
  unfold tcpsend at calm
  simp only at calm
  split at calm
  · refine ⟨calm.kicks, ?_, calm.acks, listed.1⟩
    intro tcb member
    exact calm.waits tcb (List.mem_append_left _ member)
  · exact ⟨calm.kicks, calm.waits, calm.acks, listed.1⟩

theorem tcpsent_view (tcb : Tcb) (rexmt : Bool) :
    (tcpsent tcb rexmt).ostate = tcb.ostate ∧ (tcpsent tcb rexmt).suna = tcb.suna ∧
      (tcpsent tcb rexmt).error = tcb.error ∧
      (tcpsent tcb rexmt).snext = tcb.snext + tcpnewdata tcb rexmt := by
  unfold tcpsent tcprwindow
  split <;> exact ⟨rfl, rfl, rfl, rfl⟩

theorem xmitloop_view (window : Int) (fuel : Nat) (after : Conn)
    (ended : tcpxmitloop window fuel conn = some after) :
    after.tcb.ostate = conn.tcb.ostate ∧ after.tcb.error = conn.tcb.error ∧
      (after.trace.Calm → conn.trace.Calm) := by
  induction fuel generalizing conn with
  | zero => simp [tcpxmitloop] at ended
  | succ fuel ih =>
      rw [tcpxmitloop] at ended
      split at ended
      · have later := ih _ ended
        have sent := tcpsent_view conn.tcb false
        rw [tcpsend_tcb] at later
        exact ⟨later.1.trans sent.1, later.2.1.trans sent.2.2.1,
          fun calm => (tcpsend_calm conn false (later.2.2 calm)).1⟩
      · cases ended
        exact ⟨rfl, rfl, id⟩

theorem nothing_left (stored : Word) (syn sndfin : Bool) (intact : stored.toNat ≤ 4096)
    (none : stored + (if syn then 1 else 0) + (if sndfin then 1 else 0) = 0) :
    stored = 0 ∧ syn = false ∧ sndfin = false := by
  have count := congrArg BitVec.toNat none
  cases syn <;> cases sndfin <;> simp [BitVec.toNat_add] at count none ⊢
  · exact none
  all_goals omega

/-- With nothing outstanding and nothing to send, a forced acknowledgement sends nothing
that has to be acknowledged. -/
theorem idle_send_quiet {tcb : Tcb} (nothing : ¬ tcb.Outstanding) (empty : tcphowmuch tcb = 0)
    (intact : tcb.sbcount.toNat ≤ tcpsbs)
    (asked : tcb.code.fin = true → tcb.flags.sndfin = true) : tcpnewdata tcb false = 0 := by
  have same : tcb.snext = tcb.suna := not_not.mp nothing
  have left : tcb.sbcount + (if tcb.code.syn then 1 else 0) +
      (if tcb.flags.sndfin then 1 else 0) = 0 := by
    have word := of_int_to_int (tcb.suna + tcb.sbcount - tcb.snext +
      (if tcb.code.syn then 1 else 0) + (if tcb.flags.sndfin then 1 else 0))
    change BitVec.ofInt 32 (tcphowmuch tcb) = _ at word
    have cancel : tcb.suna + tcb.sbcount - tcb.snext = tcb.sbcount := by
      rw [same]
      ring
    rw [empty, cancel] at word
    exact word.symm
  obtain ⟨stored, syn, sndfin⟩ := nothing_left tcb.sbcount _ _ intact left
  have fin : tcb.code.fin = false := by
    apply eq_false_of_ne_true
    intro fin
    exact absurd (sndfin.symm.trans (asked fin)) (by decide)
  have len : (tcpsndlen tcb false).2 = 0 := by
    apply BitVec.eq_of_toNat_eq
    have offset : (tcpsndlen tcb false).1 = 0 := by
      simp [tcpsndlen, syn, Tcb.pending, same]
    rw [sndlen_to_nat, offset, stored]
    simp
  simp [tcpnewdata, len, tcpsendcode, syn, sndfin, fin]

theorem tcpsend_quiet (tcb : Tcb) (still : tcpnewdata tcb false = 0) (nothing : ¬ tcb.Outstanding) :
    ¬ (tcpsent tcb false).Outstanding := by
  have sent := tcpsent_view tcb false
  unfold Tcb.Outstanding at nothing ⊢
  rw [sent.2.1, sent.2.2.2, still, add_zero]
  exact nothing

theorem startTimer_trace : conn.startTimer.trace = conn.trace := by
  unfold Conn.startTimer
  split <;> rfl

/-- Before `tcpxmit`: in IDLE nothing is outstanding. -/
def Prepared (conn : Conn) : Prop :=
  conn.trace.Calm → conn.tcb.error.isSome = true ∨
    (conn.tcb.ostate = .idle → ¬ conn.tcb.Outstanding)

/-- Either nothing is outstanding afterwards or the retransmission timer runs. In IDLE it is
the first. -/
theorem tcpxmitidle_guarded (prepared : Prepared conn) (empty : tcphowmuch conn.tcb = 0)
    (output : conn.tcb.ostate = .idle ∨ conn.tcb.ostate = .xmit)
    (asked : conn.tcb.code.fin = true → conn.tcb.flags.sndfin = true) :
    Guarded (tcpxmitidle conn) := by
  have sent : ∃ next, (if conn.tcb.flags.needout then tcpsend conn false else conn) = next ∧
      next.tcb.ostate = conn.tcb.ostate ∧ next.tcb.error = conn.tcb.error ∧
      (next.trace.Calm → conn.trace.Calm) ∧
      (next.trace.Calm → ¬ conn.tcb.Outstanding → ¬ next.tcb.Outstanding) := by
    refine ⟨_, rfl, ?_⟩
    split
    · have view := tcpsent_view conn.tcb false
      rw [tcpsend_tcb]
      refine ⟨view.1, view.2.2.1, fun calm => (tcpsend_calm conn false calm).1, ?_⟩
      intro calm nothing
      have intact := (tcpsend_calm conn false calm).2
      exact tcpsend_quiet conn.tcb (idle_send_quiet nothing empty intact asked) nothing
    · exact ⟨rfl, rfl, id, fun _ nothing => nothing⟩
  obtain ⟨next, forced, ostate, error, earlier, still⟩ := sent
  unfold tcpxmitidle
  simp only [forced]
  split
  · rename_i same
    intro _
    right
    intro outstanding
    exact absurd same outstanding
  · intro calm
    rw [startTimer_trace] at calm
    rcases prepared (earlier calm) with failed | idle
    · left
      rw [startTimer_tcb, error]
      exact failed
    · right
      intro outstanding
      rw [startTimer_tcb] at outstanding ⊢
      rcases output with output | output
      · exact absurd outstanding (still calm (idle output))
      · rw [ostate, output]
        exact Or.inl (startTimer_due next)

/-- A retransmission timeout gives up or restarts its timer. -/
theorem tcprexmt_due : (tcprexmt conn .retransmit).tcb.error.isSome = true ∨
    (tcprexmt conn .retransmit).Due .retransmit ∧
      (tcprexmt conn .retransmit).tcb.ostate = conn.tcb.ostate := by
  unfold tcprexmt
  simp only [ne_eq, not_true_eq_false, if_false]
  split
  · exact Or.inl rfl
  · right
    constructor
    · exact setTimer_sets _ .retransmit _
    · change (tcpsend _ true).tcb.ostate = _
      rw [tcpsend_tcb]
      exact (tcpsent_view _ true).1

theorem tcpxmit_guarded (fuel : Nat) (event : OutEvent) (after : Conn) (prepared : Prepared conn)
    (output : conn.tcb.ostate = .idle ∨ conn.tcb.ostate = .xmit)
    (asked : conn.tcb.code.fin = true → conn.tcb.flags.sndfin = true)
    (ended : tcpxmit fuel conn event = some after) : Guarded after := by
  unfold tcpxmit at ended
  simp only at ended
  split at ended
  · rename_i timeout
    subst timeout
    cases ended
    intro _
    rcases tcprexmt_due (conn.clearTimer .send) with failed | ⟨due, _⟩
    · exact Or.inl failed
    · exact Or.inr fun _ => due
  · split at ended
    · rename_i empty
      cases ended
      exact tcpxmitidle_guarded conn prepared empty output asked
    · split at ended
      · cases ended
        intro _
        right
        intro _
        have probing : (tcpxmitshut conn).tcb.ostate = .persist := by
          change (tcpsend _ false).tcb.ostate = _
          rw [tcpsend_tcb]
          exact (tcpsent_view _ false).1
        rw [probing]
        exact Or.inl (setTimer_sets _ .persist _)
      · rw [Option.map_eq_some_iff] at ended
        obtain ⟨last, loop, rfl⟩ := ended
        have sending := (xmitloop_view _ _ fuel last loop).1
        intro _
        right
        intro _
        rw [startTimer_tcb, sending]
        exact Or.inl (startTimer_due last)

theorem tcppersist_guarded (event : OutEvent) (probing : conn.tcb.ostate = .persist)
    (handled : event = .persist ∨ event = .send) : Guarded (tcppersist conn event) := by
  unfold tcppersist
  simp only
  rw [if_neg (by tauto)]
  have ostate : (tcpsend conn true).tcb.ostate = .persist := by
    rw [tcpsend_tcb]
    exact (tcpsent_view conn.tcb true).1.trans probing
  intro _
  right
  refine (covered_persist ?_).mpr fun _ => Or.inl (setTimer_sets _ .persist _)
  exact ostate

/-- A message of this connection is taken from the port and handled. -/
theorem tcposwitch_guarded (fuel : Nat) (event : OutEvent) (rest : List (OutEvent × Nat))
    (after : Conn) (guarded : Guarded conn)
    (queue : conn.oport = (event, conn.tcbnum) :: rest)
    (asked : conn.tcb.code.fin = true → conn.tcb.flags.sndfin = true)
    (ended : tcposwitch fuel { conn with oport := rest } event = some after) :
    Guarded after := by
  have prepared : Prepared { conn with oport := rest } := by
    intro calm
    rcases guarded calm with failed | covered
    · exact Or.inl failed
    · right
      intro idle outstanding
      have never := covered outstanding
      have output : conn.tcb.ostate = .idle := idle
      rw [output] at never
      exact never
  -- the other events stay due
  have kept : ∀ other, conn.Due other → other ≠ event →
      ({ conn with oport := rest } : Conn).Due other := by
    intro other due different
    apply dequeue_due conn queue _ due
    simpa using different
  unfold tcposwitch at ended
  cases output : conn.tcb.ostate with
  | idle =>
      simp only [output] at ended
      unfold tcpidle at ended
      split at ended
      · exact tcpxmit_guarded _ fuel event after prepared (Or.inl output) asked ended
      · cases ended
        intro calm
        rcases prepared calm with failed | idle
        · exact Or.inl failed
        · exact Or.inr fun outstanding => absurd outstanding (idle output)
  | persist =>
      simp only [output] at ended
      cases ended
      by_cases handled : event = .persist ∨ event = .send
      · exact tcppersist_guarded _ event output handled
      · rw [not_or] at handled
        unfold tcppersist
        rw [if_pos handled]
        intro calm
        rcases guarded calm with failed | covered
        · exact Or.inl failed
        · right
          refine (covered_persist ?_).mpr fun outstanding => ?_
          · exact output
          · exact ((covered_persist output).mp covered outstanding).imp
              (fun due => kept _ due (Ne.symm handled.1))
              (fun due => kept _ due (Ne.symm handled.2))
  | xmit =>
      simp only [output] at ended
      exact tcpxmit_guarded _ fuel event after prepared (Or.inr output) asked ended
  | rexmt =>
      simp only [output] at ended
      cases ended
      by_cases timeout : event = .retransmit
      · subst timeout
        intro _
        rcases tcprexmt_due { conn with oport := rest } with failed | ⟨due, ostate⟩
        · exact Or.inl failed
        · exact Or.inr ((covered_rexmt (ostate.trans output)).mpr fun _ => due)
      · unfold tcprexmt
        rw [if_pos timeout]
        intro calm
        rcases guarded calm with failed | covered
        · exact Or.inl failed
        · right
          refine (covered_rexmt ?_).mpr fun outstanding => ?_
          · exact output
          · exact kept _ ((covered_rexmt output).mp covered outstanding) (Ne.symm timeout)

end Output

/-- `SNDFIN` is set before the FIN is sent and cleared with it. -/
def FinAsked (main : Main) : Prop := main.core.code.fin = true → main.core.sndfin = true

theorem finasked_micro (main after : Main) (asked : FinAsked main) (step : Micro main after) :
    FinAsked after := by
  cases step with
  | sent tcb found rexmt =>
      unfold FinAsked at asked ⊢
      rw [← found] at asked
      rw [tcpsent_core]
      change (tcpsendcode tcb _ _).fin = true → tcb.flags.sndfin = true
      unfold tcpsendcode
      split
      · rename_i sent
        exact fun _ => sent.1
      · exact asked
  | looked tcb found segment flag => exact asked
  | accepted tcb found segment logged new known =>
      unfold FinAsked at asked ⊢
      rw [← found] at asked
      change (tcb.code.fin && _) = true → (tcb.flags.sndfin && _) = true
      simp only [Bool.and_eq_true]
      rintro ⟨fin, kept⟩
      exact ⟨asked fin, kept⟩
  | wrote tcb found octets isurg nonempty space =>
      unfold FinAsked at asked ⊢
      rw [← found] at asked
      exact asked
  | closed tcb found opened => exact fun _ => rfl
  | entered state enters => exact asked

theorem reached_finasked {start conn : Conn} (opened : Opened start)
    (reached : Runs.Reach connStep (fun _ _ => True) start conn) : FinAsked conn.main := by
  apply invariant_of_micro finasked_micro reached
  cases opened with
  | active iss mss lip rip lport rport tcbnum timers oport ctr100 others foreign =>
      rw [tcpkick_main]
      exact fun fin => absurd fin Bool.false_ne_true
  | passive iss mss parentSmss inbound tcbnum timers oport ctr100 syn others foreign =>
      rw [tcpdeliver_main]
      exact fun fin => absurd fin Bool.false_ne_true

/-- A block that is freed or closed by a reset stays so. -/
theorem chain_gone {main after : Main} (chain : Chain main after)
    (gone : main.core.state = .free ∨ main.core.state = .closed) :
    after.core.state = .free ∨ after.core.state = .closed := by
  induction chain with
  | refl => exact gone
  | tail _ step ih =>
      cases step with
      | sent tcb found rexmt =>
          rw [← found] at ih
          rw [tcpsent_core]
          exact ih
      | looked tcb found segment flag => exact ih
      | accepted tcb found segment logged new known =>
          rw [← found] at ih
          exact ih
      | wrote tcb found octets isurg nonempty space =>
          rw [← found] at ih
          exact ih
      | closed tcb found opened =>
          rw [← found] at ih
          change tcb.state = _ ∨ tcb.state = _ at ih
          rcases ih with ih | ih <;> simp [ih] at opened
      | entered state enters =>
          rcases ih with ih | ih <;> cases state <;> simp [Enters, ih] at enters ⊢

section Steps

variable (conn : Conn)

theorem segment_watched (inbound : Inbound) (alive : conn.tcb.state ≠ .free)
    (guarded : Guarded conn) : Watched (connStep conn (.segment inbound)) := by
  rw [connStep, tcpinp, if_neg alive]
  simp only
  split
  · cases ended : tcpopts conn.tcb { inbound with
      segment := (tcpok conn.tcb inbound.segment).2 } with
    | none => exact Or.inr (Or.inr guarded)
    | some read =>
        obtain ⟨smss, same⟩ := tcpopts_smss conn.tcb _ read ended
        have view : read.1.view = conn.tcb.view := by
          rw [same]
          rfl
        apply tcpswitch_watched
        exact guarded_of_view guarded view (fun _ due => due) id
  · exact Or.inr (Or.inr (tcpackit_guarded conn _ guarded))

theorem output_watched (fuel : Nat) (guarded : Guarded conn) (asked : FinAsked conn.main) :
    Watched (connStep conn (.output fuel)) := by
  rw [connStep]
  cases ended : tcpout fuel conn with
  | none => exact Or.inr (Or.inr guarded)
  | some after =>
      unfold tcpout at ended
      split at ended
      · cases ended
        exact Or.inr (Or.inr guarded)
      · rename_i event tcbnum rest queue
        simp only at ended
        split_ifs at ended with other gone deleted
        · cases ended
          right
          right
          refine guarded_of_view guarded rfl ?_ id
          intro event due
          apply dequeue_due conn queue _ due
          intro same
          simp only [Prod.mk.injEq] at same
          exact other same.2.symm
        · cases ended
          change Watched { conn with oport := rest }
          unfold Watched
          cases state : conn.tcb.state <;> simp [state, TcpState.number] at gone ⊢
        · cases ended
          exact Or.inl (tcbdealloc_state _)
        · right
          right
          rw [not_not] at other
          subst other
          exact tcposwitch_guarded conn fuel event rest after guarded queue asked ended

theorem resume_guarded (index : Nat) (guarded : Guarded conn) :
    Guarded (tcpgetspace conn index) := by
  unfold tcpgetspace
  split
  · exact guarded
  · rename_i octets isurg _
    simp only
    split_ifs
    · exact guarded_of_view guarded rfl (fun _ due => due) id
    · unfold tcpwr
      simp only
      have stored : Guarded { conn with
          writers := conn.writers.eraseIdx index
          tcb := tcpstored conn.tcb octets isurg
          trace := { conn.trace with writes := conn.trace.writes ++ [(conn.tcb, octets)] } } :=
        guarded_of_view guarded rfl (fun _ due => due)
          (fun calm => ⟨calm.kicks, calm.waits, calm.acks, calm.sends⟩)
      split_ifs
      · exact guarded_of_view guarded rfl (fun _ due => due) id
      · exact tcpkick_guarded _ stored
      · exact stored
    · exact guarded

theorem close_watched (guarded : Guarded conn) : Watched (tcpclose conn) := by
  unfold tcpclose
  split_ifs
  · exact Or.inr (Or.inr guarded)
  · exact Or.inl (tcbdealloc_state conn)
  · right
    right
    apply tcpkick_guarded
    exact guarded_of_view guarded rfl (fun _ due => due) id

theorem read_guarded (len : Word) (guarded : Guarded conn) : Guarded (tcpread conn len) := by
  have copied : Guarded { conn with tcb := (tcpgetdata conn.tcb len).2.1 } :=
    guarded_of_view guarded (view_of_sending (tcpgetdata_sending conn.tcb len))
      (fun _ due => due) id
  unfold tcpread
  simp only
  split
  · exact tcpkick_guarded _ copied
  · exact copied

/-- A key of another connection or of another port. -/
theorem foreign_key {key : TimerKey} (foreign : ¬ conn.owns key = true) (event : OutEvent) :
    conn.key event ≠ key := by
  rintro rfl
  exact foreign (by simp [Conn.owns, Conn.key])

theorem step_watched (event : Event) (watched : Watched conn) (asked : FinAsked conn.main) :
    Watched (connStep conn event) := by
  by_cases gone : conn.tcb.state = .free ∨ conn.tcb.state = .closed
  · rcases chain_gone (step_chain conn event) gone with freed | closed
    · exact Or.inl freed
    · exact Or.inr (Or.inl closed)
  · rw [not_or] at gone
    have guarded : Guarded conn := by
      rcases watched with freed | closed | guarded
      · exact absurd freed gone.1
      · exact absurd closed gone.2
      · exact guarded
    cases event with
    | segment inbound => exact segment_watched conn inbound gone.1 guarded
    | output fuel => exact output_watched conn fuel guarded asked
    | tick delta => exact Or.inr (Or.inr (guarded_of_view guarded rfl (tick_due conn delta) id))
    | clock ctr100 => exact Or.inr (Or.inr (guarded_of_view guarded rfl (fun _ due => due) id))
    | write octets isurg =>
        right
        right
        rw [connStep, tcpwrcall]
        split_ifs
        · exact guarded
        · exact guarded
        · exact guarded_of_view guarded rfl (fun _ due => due) id
    | resume index => exact Or.inr (Or.inr (resume_guarded conn index guarded))
    | close => exact close_watched conn guarded
    | closeEnd =>
        rw [connStep, tcpcloseend]
        split
        · exact Or.inl (tcbdealloc_state conn)
        · exact Or.inr (Or.inr guarded)
    | read len => exact Or.inr (Or.inr (read_guarded conn len guarded))
    | option set delack buffer =>
        exact Or.inr (Or.inr (guarded_of_view guarded rfl (fun _ due => due) id))
    | otherKick event tcbnum =>
        right
        right
        rw [connStep]
        split
        · refine guarded_of_view guarded rfl ?_ id
          intro own due
          exact due.imp id (List.mem_append_left _)
        · exact guarded
    | otherSet key time =>
        right
        right
        rw [connStep]
        split
        · exact guarded
        · refine guarded_of_view guarded rfl ?_ id
          intro own due
          refine due.imp (fun running => ?_) id
          change Running (conn.key own) (tmset conn.ctr100 key time conn.timers)
          rw [tmset_running]
          exact Or.inr running
    | otherClear key =>
        right
        right
        rw [connStep]
        split
        · exact guarded
        · rename_i foreign
          refine guarded_of_view guarded rfl ?_ id
          intro own due
          refine due.imp (fun running => ?_) id
          change Running (conn.key own) (tmclear conn.ctr100 key conn.timers).2
          rw [tmclear_running _ _ _ _ (foreign_key conn foreign own)]
          exact running

end Steps

theorem opened_watched {start : Conn} (opened : Opened start) : Watched start := by
  right
  right
  cases opened with
  | active iss mss lip rip lport rport tcbnum timers oport ctr100 others foreign =>
      apply tcpkick_guarded
      exact fun _ => Or.inr fun outstanding => absurd rfl outstanding
  | passive iss mss parentSmss inbound tcbnum timers oport ctr100 syn others foreign =>
      apply tcpdeliver_guarded
      exact fun _ => Or.inr fun outstanding => absurd rfl outstanding

theorem reached_watched {start conn : Conn} (opened : Opened start)
    (reached : Runs.Reach connStep (fun _ _ => True) start conn) : Watched conn := by
  induction reached with
  | start => exact opened_watched opened
  | step event before _ ih => exact step_watched _ event ih (reached_finasked opened before)

/-- The synchronised states. -/
def Synchronised (state : TcpState) : Prop := TcpState.established.number ≤ state.number

/-- A timer for the output process is running or a message for it is waiting. -/
def Conn.Attended (conn : Conn) : Prop :=
  conn.Due .retransmit ∨ conn.Due .persist ∨ conn.Due .send

instance (conn : Conn) : Decidable conn.Attended := inferInstanceAs (Decidable (_ ∨ _ ∨ _))

/-- Three octets are sent and one of them is acknowledged, with `TCBF_DELACK` or without. -/
def partialAckRun (delack : Bool) : List Event :=
  [.output 4,
    .segment { segment := {
      seq := 500
      ack := 101
      code := { syn := true, ack := true }
      window := 100 } },
    .output 4, .write [7, 8, 9] false, .resume 0, .output 4, .option delack true false,
    .segment { segment := { seq := 501, ack := 102, code := { ack := true }, window := 98 } }]

theorem partial_ack_reached (delack : Bool) :
    Runs.Reach connStep (fun _ _ => True) activeConn
      ((partialAckRun delack).foldl connStep activeConn) := by
  apply Runs.reach_of_permitted (partialAckRun delack) Runs.Reach.start
  simp [partialAckRun, Runs.Permitted]

end MvsXinu.Tcp
