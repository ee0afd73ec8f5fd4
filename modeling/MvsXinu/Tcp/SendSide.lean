import Mathlib.Logic.Relation
import MvsXinu.Tcp.Machine

/-!
# What a step does to the send side

The part of the control block that decides what is sent and what counts as acknowledged
is changed by a handful of calls only: `tcpsend`, an acceptable acknowledgement, a write,
a close, and the changes of state. The send side is an abstract machine whose steps are
these calls, and every step of the connection is a chain of them.
-/

namespace MvsXinu.Tcp

open MvsXinu.SeqSpace

set_option autoImplicit false

/-- The control block without what the receive functions change. -/
def Tcb.sending (tcb : Tcb) : Tcb :=
  { tcb with
    flags := { tcb.flags with needout := false, rdone := false, push := false, rupok := false }
    rnext := 0
    rupseq := 0
    rcvbuf := fun _ => 0
    rbstart := 0
    rbcount := 0
    cwin := 0
    rsegq := none
    finseq := 0
    pushseq := 0 }

section Receive

variable (tcb : Tcb)

theorem advance_sending (count : Word) : (tcb.advance count).sending = tcb.sending := rfl

theorem tfpush_sending (code : Code) : (tfpush tcb code).1.sending = tcb.sending := by
  unfold tfpush
  split <;> rfl

theorem tfjoin_sending (frag : Tcpfrag) : (tfjoin tcb frag).sending = tcb.sending := by
  unfold tfjoin
  split <;> rfl

theorem tfloop_sending (qMax : Nat) (items : List (Int × Tcpfrag)) (code : Code) :
    (tfloop qMax items tcb code).1.sending = tcb.sending := by
  induction items generalizing tcb code with
  | nil => rfl
  | cons item rest ih =>
      rw [tfloop]
      split
      · cases Gpq.enq ({ qMax := qMax, items := rest } : Gpq.Queue Tcpfrag) item.2
          (-item.2.seq).toInt <;> rfl
      · simp only
        split
        · exact tfjoin_sending tcb item.2
        · rw [ih, tfpush_sending, tfjoin_sending]

theorem tfcoalesce_sending (datalen : Word) (code : Code) :
    (tfcoalesce tcb datalen code).1.sending = tcb.sending := by
  rw [tfcoalesce]
  split
  · rfl
  · have pushed := tfpush_sending (tcb.advance datalen) code
    simp only
    split
    · exact pushed
    · split
      · exact pushed
      · rw [tfloop_sending, pushed, advance_sending]

theorem tcpcontrols_sending (code : Code) : (tcpcontrols tcb code).sending = tcb.sending := by
  rw [tcpcontrols]
  split_ifs <;> rfl

theorem tfinsert_sending (seq : Tcpseq) (datalen : Word) (newqOk : Bool) :
    (tfinsert tcb seq datalen newqOk).sending = tcb.sending := by
  rw [tfinsert]
  split
  · rfl
  · simp only
    split
    · rfl
    · split <;> rfl

theorem tcpdodat_sending (seq : Tcpseq) (code : Code) (first : Tcpseq) (datalen : Word)
    (newqOk : Bool) : (tcpdodat tcb seq code first datalen newqOk).sending = tcb.sending := by
  rw [tcpdodat]
  split
  · split
    · rw [tcpcontrols_sending]
      exact tfcoalesce_sending tcb datalen code
    · exact tcpcontrols_sending tcb code
  · rw [tfinsert_sending]
    split_ifs <;> rfl

theorem tcpsection_sending (segment : Segment) (seq : Tcpseq) (newqOk : Bool) :
    (tcpsection tcb segment seq newqOk).sending = tcb.sending := by
  rw [tcpsection, tcpdodat_sending]
  rfl

theorem tcpurg_sending (segment : Segment) : (tcpurg tcb segment).sending = tcb.sending := by
  simp only [tcpurg]
  split_ifs <;> rfl

theorem tcpdata_sending (segment : Segment) (newqOk : Bool) :
    (tcpdata tcb segment newqOk).sending = tcb.sending := by
  rw [tcpdata]
  split
  · rw [tcpsection_sending]
    exact tcpurg_sending tcb segment
  · rw [tcpsection_sending, tcpurg_sending]

theorem tcprwindow_sending : (tcprwindow tcb).2.sending = tcb.sending := by
  rw [tcprwindow]
  split <;> rfl

theorem tcpgetoctets_sending (len : Nat) : (tcpgetoctets len tcb).2.sending = tcb.sending := by
  induction len generalizing tcb with
  | zero => rfl
  | succ len ih =>
      rw [tcpgetoctets]
      split
      · rfl
      · simp only
        rw [ih]
        rfl

theorem tcpgeturg_sending (len : Word) : (tcpgeturg tcb len).2.sending = tcb.sending := by
  simp only [tcpgeturg]
  split_ifs <;> rfl

theorem tcpgetcopy_sending (len : Word) : (tcpgetcopy tcb len).2.sending = tcb.sending := by
  have copied := tcpgetoctets_sending (tcpgeturg tcb len).2 (tcpgeturg tcb len).1.toNat
  rw [tcpgeturg_sending] at copied
  simp only [tcpgetcopy]
  split
  · exact copied
  · exact copied

theorem tcpgetdata_sending (len : Word) : (tcpgetdata tcb len).2.1.sending = tcb.sending := by
  have window := tcprwindow_sending (tcpgetcopy tcb len).2
  rw [tcpgetcopy_sending] at window
  simp only [tcpgetdata]
  split_ifs
  · exact window
  · exact window
  · exact tcpgetcopy_sending tcb len

end Receive

/-- What decides about sending and acknowledging. -/
structure Core where
  state : TcpState
  code : Code
  sndfin : Bool
  suna : Tcpseq
  snext : Tcpseq
  slast : Tcpseq
  iss : Tcpseq
  sndbuf : Nat → Octet
  sbstart : Word
  sbcount : Word
  sbsize : Word

def Tcb.core (tcb : Tcb) : Core where
  state := tcb.state
  code := tcb.code
  sndfin := tcb.flags.sndfin
  suna := tcb.suna
  snext := tcb.snext
  slast := tcb.slast
  iss := tcb.iss
  sndbuf := tcb.sndbuf
  sbstart := tcb.sbstart
  sbcount := tcb.sbcount
  sbsize := tcb.sbsize

theorem core_of_sending {tcb other : Tcb} (same : tcb.sending = other.sending) :
    tcb.core = other.core := by
  change tcb.sending.core = other.sending.core
  rw [same]

theorem tcpsent_core (tcb : Tcb) (rexmt : Bool) :
    (tcpsent tcb rexmt).core = { tcb.core with
      code := tcpsendcode tcb (tcpsendseq tcb rexmt) (tcpsndlen tcb rexmt).2
      snext := tcb.snext + tcpnewdata tcb rexmt } := by
  unfold tcpsent tcprwindow
  split <;> rfl

theorem sendcode_syn (tcb : Tcb) (seq : Tcpseq) (len : Word) :
    (tcpsendcode tcb seq len).syn = tcb.code.syn := by
  unfold tcpsendcode
  split <;> rfl

/-- The abstract send side: the core and the record of sends, acknowledgements looked at
and writes. -/
structure Main where
  core : Core
  sends : List (Tcb × Bool)
  acks : List (Tcb × Segment)
  writes : List (Tcb × List Octet)

def Conn.main (conn : Conn) : Main where
  core := conn.tcb.core
  sends := conn.trace.sends
  acks := conn.trace.acks
  writes := conn.trace.writes

/-- The changes of state. SYN_RCVD ends on any acknowledgement, a good one or not. -/
def Enters (main : Main) : TcpState → Prop
  | .free => True
  | .closed => main.core.state = .synsent
  | .synrcvd => main.core.state = .synsent ∧ main.core.code.syn = true
  | .established =>
      main.core.state = .synsent ∧ main.core.code.syn = false ∨
      main.core.state = .synrcvd ∧ ∃ tcb segment, (tcb, segment) ∈ main.acks ∧
        tcb.state = .synrcvd ∧ (0 < seqcmp segment.ack tcb.suna →
          seqcmp segment.ack tcb.snext ≤ 0 → main.core.code.syn = false)
  | .closewait => main.core.state = .established
  | .closing => main.core.state = .finwait1 ∧ main.core.code.fin = true
  | .finwait2 => main.core.state = .finwait1 ∧ main.core.code.fin = false
  | .timewait =>
      (main.core.state = .finwait1 ∨ main.core.state = .closing) ∧ main.core.code.fin = false ∨
      main.core.state = .finwait2
  | _ => False

/-- One call. The control block it finds agrees with the core and is otherwise any. -/
inductive Micro (main : Main) : Main → Prop where
  | sent (tcb : Tcb) (found : tcb.core = main.core) (rexmt : Bool) :
      Micro main { main with
        core := (tcpsent tcb rexmt).core
        sends := main.sends ++ [(tcb, rexmt)] }
  | looked (tcb : Tcb) (found : tcb.core = main.core) (segment : Segment)
      (flag : segment.code.ack = true) :
      Micro main { main with acks := main.acks ++ [(tcb, segment)] }
  | accepted (tcb : Tcb) (found : tcb.core = main.core) (segment : Segment)
      (logged : (tcb, segment) ∈ main.acks)
      (new : 0 < seqcmp segment.ack main.core.suna)
      (known : seqcmp segment.ack main.core.snext ≤ 0) :
      Micro main { main with core := (tcpaccepted tcb segment.ack).core }
  | wrote (tcb : Tcb) (found : tcb.core = main.core) (octets : List Octet) (isurg : Bool)
      (nonempty : octets ≠ []) (space : octets.length ≤ (tcb.sbsize - tcb.sbcount).toNat) :
      Micro main { main with
        core := (tcpstored tcb octets isurg).core
        writes := main.writes ++ [(tcb, octets)] }
  | closed (tcb : Tcb) (found : tcb.core = main.core)
      (opened : tcb.state = .established ∨ tcb.state = .closewait) :
      Micro main { main with core := (tcpclosedtcb tcb).core }
  | entered (state : TcpState) (enters : Enters main state) :
      Micro main { main with core := { main.core with state := state } }

abbrev Chain : Main → Main → Prop := Relation.ReflTransGen Micro

/-- What the output process does: it sends, or frees the block. -/
inductive Emit (main : Main) : Main → Prop where
  | sent (tcb : Tcb) (found : tcb.core = main.core) (rexmt : Bool) :
      Emit main { main with
        core := (tcpsent tcb rexmt).core
        sends := main.sends ++ [(tcb, rexmt)] }
  | freed : Emit main { main with core := { main.core with state := .free } }

abbrev Emits : Main → Main → Prop := Relation.ReflTransGen Emit

theorem Emits.chain {main after : Main} (emits : Emits main after) : Chain main after := by
  induction emits with
  | refl => exact Relation.ReflTransGen.refl
  | tail _ emit ih =>
      apply ih.tail
      cases emit with
      | sent tcb found rexmt => exact Micro.sent tcb found rexmt
      | freed => exact Micro.entered .free trivial

theorem Chain.of_eq {main after : Main} (same : after = main) : Chain main after := by
  rw [same]

section Quiet

variable (conn : Conn)

@[simp] theorem setTimer_main (event : OutEvent) (time : Int) :
    (conn.setTimer event time).main = conn.main := rfl

@[simp] theorem clearTimer_main (event : OutEvent) : (conn.clearTimer event).main = conn.main := rfl

@[simp] theorem tcpkick_main : (tcpkick conn).main = conn.main := by
  unfold tcpkick
  split <;> rfl

@[simp] theorem tcpkilltimers_main : (tcpkilltimers conn).main = conn.main := rfl

@[simp] theorem tcpwait_main : (tcpwait conn).main = conn.main := rfl

@[simp] theorem tcpabort_main (error : TcpError) : (tcpabort conn error).main = conn.main := rfl

@[simp] theorem startTimer_main : conn.startTimer.main = conn.main := by
  unfold Conn.startTimer
  split <;> rfl

@[simp] theorem tcprtt_main : (tcprtt conn).main = conn.main := by
  unfold tcprtt
  simp only
  split
  · rfl
  · split <;> rfl

@[simp] theorem tcpostate_main (acked : Int) : (tcpostate conn acked).main = conn.main := by
  unfold tcpostate
  split
  · rfl
  · simp only
    split
    · split
      · rfl
      · rw [tcpkick_main]
        rfl
    · split
      · rfl
      · exact tcpkick_main conn

@[simp] theorem reply_main (segment : Segment) : (conn.reply segment).main = conn.main := rfl

@[simp] theorem tcpreset_main (segment : Segment) : (tcpreset conn segment).main = conn.main := by
  unfold tcpreset
  split <;> rfl

@[simp] theorem tcpackit_main (segment : Segment) : (tcpackit conn segment).main = conn.main := by
  unfold tcpackit
  split
  · rfl
  · split
    · rfl
    · exact congrArg (Main.mk · _ _ _) (core_of_sending (tcprwindow_sending conn.tcb))

@[simp] theorem tcpswindow_main (segment : Segment) :
    (tcpswindow conn segment).main = conn.main := by
  unfold tcpswindow
  simp only
  split_ifs
  · rfl
  · rfl
  · rfl
  · rw [tcpkick_main]
    rfl
  · rw [tcpkick_main]
    rfl

@[simp] theorem tcpdeliver_main (inbound : Inbound) : (tcpdeliver conn inbound).main = conn.main := by
  have delivered : { conn with
      tcb := tcpdata conn.tcb inbound.segment inbound.newqOk }.main = conn.main :=
    congrArg (Main.mk · _ _ _) (core_of_sending (tcpdata_sending conn.tcb inbound.segment
      inbound.newqOk))
  unfold tcpdeliver
  simp only
  split
  · rw [tcpkick_main, delivered]
  · exact delivered

@[simp] theorem tcpread_main (len : Word) : (tcpread conn len).main = conn.main := by
  have copied : { conn with tcb := (tcpgetdata conn.tcb len).2.1 }.main = conn.main :=
    congrArg (Main.mk · _ _ _) (core_of_sending (tcpgetdata_sending conn.tcb len))
  unfold tcpread
  simp only
  split
  · rw [tcpkick_main, copied]
  · exact copied

theorem tcpwrcall_main (octets : List Octet) (isurg : Bool) :
    (tcpwrcall conn octets isurg).main = conn.main := by
  unfold tcpwrcall
  split_ifs <;> rfl

end Quiet

theorem tcpsmss_smss (tcb : Tcb) (inbound : Inbound) (popt : Nat) :
    ∃ smss, (tcpsmss tcb inbound popt).2 = { tcb with smss := smss } := by
  unfold tcpsmss
  simp only
  split
  · exact ⟨tcb.smss, rfl⟩
  · exact ⟨_, rfl⟩

/-- The options set the peer's segment size and nothing else. -/
theorem tcpoption_smss (tcb : Tcb) (inbound : Inbound) (popend popt : Nat) :
    ∃ smss, (tcpoption tcb inbound popend popt).2 = { tcb with smss := smss } := by
  unfold tcpoption
  simp only
  split
  · exact ⟨tcb.smss, rfl⟩
  · split
    · exact ⟨tcb.smss, rfl⟩
    · split
      · exact tcpsmss_smss tcb inbound popt
      · exact ⟨tcb.smss, rfl⟩

theorem tcpoptsloop_smss (inbound : Inbound) (popend fuel popt : Nat) (tcb read : Tcb)
    (ended : tcpoptsloop inbound popend fuel popt tcb = some read) :
    ∃ smss, read = { tcb with smss := smss } := by
  induction fuel generalizing popt tcb with
  | zero => simp [tcpoptsloop] at ended
  | succ fuel ih =>
      obtain ⟨smss, taken⟩ := tcpoption_smss tcb inbound popend popt
      rw [tcpoptsloop] at ended
      split at ended
      · obtain ⟨last, same⟩ := ih _ _ ended
        rw [taken] at same
        exact ⟨last, same⟩
      · cases ended
        exact ⟨smss, taken⟩

theorem tcpopts_smss (tcb : Tcb) (inbound : Inbound) (read : Tcb × Inbound)
    (ended : tcpopts tcb inbound = some read) : ∃ smss, read.1 = { tcb with smss := smss } := by
  unfold tcpopts at ended
  split at ended
  · cases ended
    exact ⟨tcb.smss, rfl⟩
  · rw [Option.map_eq_some_iff] at ended
    obtain ⟨taken, loop, rfl⟩ := ended
    exact tcpoptsloop_smss inbound _ _ _ _ _ loop

theorem tcpopts_core (tcb : Tcb) (inbound : Inbound) (read : Tcb × Inbound)
    (ended : tcpopts tcb inbound = some read) : read.1.core = tcb.core := by
  obtain ⟨smss, same⟩ := tcpopts_smss tcb inbound read ended
  rw [same]
  rfl

theorem main_state {conn other : Conn} (same : conn.main = other.main) :
    conn.tcb.state = other.tcb.state :=
  congrArg (fun main => main.core.state) same

theorem main_code {conn other : Conn} (same : conn.main = other.main) :
    conn.tcb.code = other.tcb.code :=
  congrArg (fun main => main.core.code) same

/-- The core after an acceptable acknowledgement depends on the core only. -/
theorem tcpaccepted_core {tcb other : Tcb} (same : tcb.core = other.core) (ack : Tcpseq) :
    (tcpaccepted tcb ack).core = (tcpaccepted other ack).core := by
  simp only [Tcb.core, Core.mk.injEq] at same
  obtain ⟨state, code, sndfin, suna, snext, slast, iss, sndbuf, sbstart, sbcount, sbsize⟩ := same
  simp only [Tcb.core, tcpaccepted, tcpackedlen, tcpackedsyn, tcpackedfin, state, code, sndfin,
    suna, snext, slast, iss, sndbuf, sbstart, sbcount, sbsize]
  congr

theorem tcpackedlen_core {tcb other : Tcb} (same : tcb.core = other.core) (ack : Tcpseq) :
    tcpackedlen tcb ack = tcpackedlen other ack := by
  have code : tcb.code = other.code := congrArg Core.code same
  have suna : tcb.suna = other.suna := congrArg Core.suna same
  have snext : tcb.snext = other.snext := congrArg Core.snext same
  unfold tcpackedlen tcpackedsyn tcpackedfin
  rw [code, suna, snext]

/-- An acknowledgement looked at. -/
def Main.look (main : Main) (tcb : Tcb) (segment : Segment) : Main :=
  { main with acks := main.acks ++ [(tcb, segment)] }

theorem tcpacked_without_flag (conn : Conn) (segment : Segment)
    (clear : segment.code.ack = false) : tcpacked conn segment = (sysErr, conn) := by
  simp [tcpacked, clear]

/-- What `tcpacked` does to the send side, and what it returns. -/
theorem tcpacked_with_flag (conn : Conn) (segment : Segment) (flag : segment.code.ack = true) :
    (seqcmp segment.ack conn.tcb.suna ≤ 0 ∧ (tcpacked conn segment).1 = 0 ∧
      (tcpacked conn segment).2.main = conn.main.look conn.tcb segment) ∨
    (0 < seqcmp segment.ack conn.tcb.suna ∧ 0 < seqcmp segment.ack conn.tcb.snext ∧
      (tcpacked conn segment).1 = ok ∧
      (tcpacked conn segment).2.main = conn.main.look conn.tcb segment) ∨
    (0 < seqcmp segment.ack conn.tcb.suna ∧ seqcmp segment.ack conn.tcb.snext ≤ 0 ∧
      (tcpacked conn segment).1 = tcpackedlen conn.tcb segment.ack ∧
      (tcpacked conn segment).2.main =
        { conn.main.look conn.tcb segment with core := (tcpaccepted conn.tcb segment.ack).core }) := by
  unfold tcpacked
  simp only [flag, Bool.not_true, Bool.false_eq_true, if_false]
  by_cases old : seqcmp segment.ack conn.tcb.suna ≤ 0
  · rw [if_pos old]
    exact Or.inl ⟨old, rfl, rfl⟩
  · rw [if_neg old]
    by_cases new : 0 < seqcmp segment.ack conn.tcb.snext
    · rw [if_pos new]
      refine Or.inr (Or.inl ⟨by omega, new, rfl, ?_⟩)
      simp only
      split
      · rw [tcpreset_main]
        rfl
      · rw [tcpackit_main]
        rfl
    · rw [if_neg new]
      have timed := tcprtt_main { conn with trace := { conn.trace with
        acks := conn.trace.acks ++ [(conn.tcb, segment)] } }
      refine Or.inr (Or.inr ⟨by omega, by omega, ?_, ?_⟩)
      · exact tcpackedlen_core (congrArg Main.core timed) segment.ack
      · rw [tcpostate_main, ← tcpaccepted_core (congrArg Main.core timed) segment.ack]
        rw [Conn.main, Main.mk.injEq] at timed ⊢
        exact ⟨rfl, timed.2⟩

theorem tcpacked_chain (conn : Conn) (segment : Segment) :
    Chain conn.main (tcpacked conn segment).2.main := by
  cases flag : segment.code.ack with
  | false =>
      rw [tcpacked_without_flag conn segment flag]
  | true =>
      have looked : Chain conn.main (conn.main.look conn.tcb segment) :=
        Relation.ReflTransGen.single (Micro.looked conn.tcb rfl segment flag)
      rcases tcpacked_with_flag conn segment flag with
        ⟨_, _, main⟩ | ⟨_, _, _, main⟩ | ⟨new, known, _, main⟩
      · rw [main]
        exact looked
      · rw [main]
        exact looked
      · rw [main]
        apply looked.tail
        exact Micro.accepted conn.tcb rfl segment (by simp [Main.look]) new known

theorem tcpacked_state (conn : Conn) (segment : Segment) :
    (tcpacked conn segment).2.tcb.state = conn.tcb.state := by
  have state : ∀ main : Main, (tcpacked conn segment).2.main = main →
      (tcpacked conn segment).2.tcb.state = main.core.state := by
    intro main same
    exact congrArg (fun main => main.core.state) same
  cases flag : segment.code.ack with
  | false => rw [tcpacked_without_flag conn segment flag]
  | true =>
      rcases tcpacked_with_flag conn segment flag with
        ⟨_, _, main⟩ | ⟨_, _, _, main⟩ | ⟨_, _, _, main⟩ <;> exact state _ main

/-- An acceptable acknowledgement clears the SYN bit. -/
theorem tcpacked_syn (conn : Conn) (segment : Segment) (flag : segment.code.ack = true) :
    (conn.tcb, segment) ∈ (tcpacked conn segment).2.main.acks ∧
    (0 < seqcmp segment.ack conn.tcb.suna → seqcmp segment.ack conn.tcb.snext ≤ 0 →
      (tcpacked conn segment).2.main.core.code.syn = false) := by
  rcases tcpacked_with_flag conn segment flag with
    ⟨old, _, main⟩ | ⟨_, new, _, main⟩ | ⟨_, _, _, main⟩
  · rw [main]
    exact ⟨by simp [Main.look], by omega⟩
  · rw [main]
    exact ⟨by simp [Main.look], by omega⟩
  · rw [main]
    exact ⟨by simp [Main.look], fun _ _ => rfl⟩

theorem enter_chain (conn : Conn) (state : TcpState) (enters : Enters conn.main state) :
    Chain conn.main (conn.enter state).main :=
  Relation.ReflTransGen.single (Micro.entered state enters)

theorem tcbdealloc_emits (conn : Conn) : Emits conn.main (tcbdealloc conn).main := by
  unfold tcbdealloc
  split
  · exact Relation.ReflTransGen.refl
  · exact Relation.ReflTransGen.single Emit.freed

theorem tcbdealloc_chain (conn : Conn) : Chain conn.main (tcbdealloc conn).main :=
  (tcbdealloc_emits conn).chain

theorem tcpaborts_main (conn after : Conn) (segment : Segment)
    (aborts : tcpaborts conn segment = some after) : after.main = conn.main := by
  unfold tcpaborts at aborts
  split_ifs at aborts
  · cases aborts
    rfl
  · cases aborts
    rw [tcpabort_main, tcpreset_main]

theorem tcpfrees_chain (conn after : Conn) (segment : Segment)
    (frees : tcpfrees conn segment = some after) : Chain conn.main after.main := by
  unfold tcpfrees at frees
  split_ifs at frees
  · cases frees
    exact tcbdealloc_chain conn
  · cases frees
    rw [← tcpreset_main conn segment]
    exact tcbdealloc_chain (tcpreset conn segment)

section Handlers

variable (conn : Conn) (inbound : Inbound)

theorem aborts_or_chain (rest : Conn) (segment : Segment) (chain : Chain conn.main rest.main) :
    Chain conn.main ((tcpaborts conn segment).getD rest).main := by
  cases aborts : tcpaborts conn segment with
  | none => exact chain
  | some after => exact Chain.of_eq (tcpaborts_main conn after segment aborts)

theorem frees_or_chain (rest : Conn) (segment : Segment) (chain : Chain conn.main rest.main) :
    Chain conn.main ((tcpfrees conn segment).getD rest).main := by
  cases frees : tcpfrees conn segment with
  | none => exact chain
  | some after => exact tcpfrees_chain conn after segment frees

/-- The part that the handlers of the synchronised states share. -/
theorem handled_main : (tcpswindow (tcpdeliver (tcpacked conn inbound.segment).2 inbound)
    inbound.segment).main = (tcpacked conn inbound.segment).2.main := by
  rw [tcpswindow_main, tcpdeliver_main]

theorem tcpsynsent_chain (state : conn.tcb.state = .synsent) :
    Chain conn.main (tcpsynsent conn inbound).main := by
  unfold tcpsynsent
  simp only
  split_ifs
  · rw [tcpreset_main]
  · exact enter_chain conn .closed state
  · exact Relation.ReflTransGen.refl
  all_goals
    generalize opened : ({ conn with tcb := { conn.tcb with
      swindow := inbound.segment.window.setWidth 32
      lwseq := inbound.segment.seq
      rnext := inbound.segment.seq
      cwin := inbound.segment.seq + conn.tcb.rbsize } } : Conn) = start at *
    have same : start.main = conn.main := by
      rw [← opened]
      rfl
    have chain := tcpacked_chain start inbound.segment
    have stays := (tcpacked_state start inbound.segment).trans ((main_state same).trans state)
    have delivered := tcpdeliver_main (tcpacked start inbound.segment).2 inbound
    rw [same, ← delivered] at chain
    rw [← main_state delivered] at stays
    apply chain.trans
    apply enter_chain
  · rename_i syn
    exact ⟨stays, syn⟩
  · rename_i syn
    exact Or.inl ⟨stays, eq_false_of_ne_true syn⟩

theorem tcpsynopened_chain (enters : Enters conn.main .established) :
    Chain conn.main (tcpsynopened conn inbound).main := by
  have chain := enter_chain conn .established enters
  have delivered := tcpdeliver_main (conn.enter .established) inbound
  rw [← delivered] at chain
  unfold tcpsynopened
  simp only
  split
  · apply chain.trans
    exact enter_chain _ .closewait (main_state delivered)
  · exact chain

theorem tcpsynrcvd_chain (state : conn.tcb.state = .synrcvd) :
    Chain conn.main (tcpsynrcvd conn inbound).main := by
  have chain := tcpacked_chain conn inbound.segment
  have stays := (tcpacked_state conn inbound.segment).trans state
  unfold tcpsynrcvd
  simp only
  split_ifs with rst passive syn refused turned
  · exact tcbdealloc_chain conn
  · exact Relation.ReflTransGen.refl
  · rw [tcpabort_main, tcpreset_main]
  · exact chain
  · apply chain.trans
    have freed := tcbdealloc_chain (tcpreset (tcpacked conn inbound.segment).2 inbound.segment)
    rwa [tcpreset_main] at freed
  · apply chain.trans
    apply tcpsynopened_chain
    have flag : inbound.segment.code.ack = true := by
      by_contra clear
      rw [tcpacked_without_flag conn inbound.segment (by simpa using clear)] at refused
      exact refused rfl
    have cleared := tcpacked_syn conn inbound.segment flag
    exact Or.inr ⟨stays, conn.tcb, inbound.segment, cleared.1, state, cleared.2⟩

theorem tcpestablished_chain (state : conn.tcb.state = .established) :
    Chain conn.main (tcpestablished conn inbound).main := by
  have chain := tcpacked_chain conn inbound.segment
  have stays := (tcpacked_state conn inbound.segment).trans state
  have handled := handled_main conn inbound
  unfold tcpestablished
  apply aborts_or_chain
  simp only
  split_ifs
  · exact chain
  · rw [← handled] at chain
    exact chain.trans (enter_chain _ .closewait ((main_state handled).trans stays))
  · rwa [handled]

theorem tcpfin1_chain (state : conn.tcb.state = .finwait1) :
    Chain conn.main (tcpfin1 conn inbound).main := by
  have chain := tcpacked_chain conn inbound.segment
  have stays := (tcpacked_state conn inbound.segment).trans state
  have handled := handled_main conn inbound
  have found := (main_state handled).trans stays
  unfold tcpfin1
  apply aborts_or_chain
  simp only
  split_ifs with refused done fin fin
  · exact chain
  · rw [← handled] at chain
    exact chain.trans (enter_chain _ .closing ⟨found, fin⟩)
  · rw [← handled] at chain
    rw [tcpwait_main]
    exact chain.trans (enter_chain _ .timewait (Or.inl ⟨Or.inl found, eq_false_of_ne_true fin⟩))
  · rwa [handled]
  · rw [← handled] at chain
    exact chain.trans (enter_chain _ .finwait2 ⟨found, eq_false_of_ne_true fin⟩)

theorem tcpfin2_chain (state : conn.tcb.state = .finwait2) :
    Chain conn.main (tcpfin2 conn inbound).main := by
  have chain := tcpacked_chain conn inbound.segment
  have stays := (tcpacked_state conn inbound.segment).trans state
  have delivered := tcpdeliver_main (tcpacked conn inbound.segment).2 inbound
  unfold tcpfin2
  apply aborts_or_chain
  simp only
  split_ifs
  · exact chain
  · rw [← delivered] at chain
    rw [tcpwait_main]
    exact chain.trans (enter_chain _ .timewait (Or.inr ((main_state delivered).trans stays)))
  · rwa [delivered]

theorem tcpclosewait_chain : Chain conn.main (tcpclosewait conn inbound).main := by
  unfold tcpclosewait
  apply aborts_or_chain
  rw [tcpswindow_main]
  exact tcpacked_chain conn inbound.segment

theorem tcpclosing_chain (state : conn.tcb.state = .closing) :
    Chain conn.main (tcpclosing conn inbound).main := by
  have chain := tcpacked_chain conn inbound.segment
  have stays := (tcpacked_state conn inbound.segment).trans state
  unfold tcpclosing
  apply frees_or_chain
  simp only
  split_ifs with fin
  · exact chain
  · rw [tcpwait_main]
    exact chain.trans (enter_chain _ .timewait (Or.inl ⟨Or.inr stays, eq_false_of_ne_true fin⟩))

theorem tcplastack_chain : Chain conn.main (tcplastack conn inbound).main := by
  unfold tcplastack
  apply aborts_or_chain
  exact tcpacked_chain conn inbound.segment

theorem tcptimewait_chain : Chain conn.main (tcptimewait conn inbound).main := by
  unfold tcptimewait
  apply frees_or_chain
  rw [tcpwait_main, tcpdeliver_main]
  exact tcpacked_chain conn inbound.segment

theorem tcpswitch_chain : Chain conn.main (tcpswitch conn inbound).main := by
  unfold tcpswitch
  split
  · exact Relation.ReflTransGen.refl
  · rw [tcpreset_main]
  · exact Relation.ReflTransGen.refl
  · exact tcpsynsent_chain conn inbound ‹_›
  · exact tcpsynrcvd_chain conn inbound ‹_›
  · exact tcpestablished_chain conn inbound ‹_›
  · exact tcpfin1_chain conn inbound ‹_›
  · exact tcpfin2_chain conn inbound ‹_›
  · exact tcpclosewait_chain conn inbound
  · exact tcplastack_chain conn inbound
  · exact tcpclosing_chain conn inbound ‹_›
  · exact tcptimewait_chain conn inbound

theorem tcpinp_chain (after : Conn) (taken : tcpinp conn inbound = some after) :
    Chain conn.main after.main := by
  unfold tcpinp at taken
  simp only at taken
  split_ifs at taken
  · cases taken
    exact Relation.ReflTransGen.refl
  · rw [Option.map_eq_some_iff] at taken
    obtain ⟨read, ended, rfl⟩ := taken
    have same : ({ conn with tcb := read.1 } : Conn).main = conn.main :=
      congrArg (Main.mk · _ _ _) (tcpopts_core conn.tcb _ read ended)
    rw [← same]
    exact tcpswitch_chain { conn with tcb := read.1 } read.2
  · cases taken
    rw [tcpackit_main]

theorem tcpok_header (tcb : Tcb) (segment : Segment) :
    (tcpok tcb segment).2.ack = segment.ack ∧ (tcpok tcb segment).2.code = segment.code := by
  unfold tcpok
  simp only
  split_ifs <;> exact ⟨rfl, rfl⟩

theorem tcpopts_header (tcb : Tcb) (read : Tcb × Inbound)
    (ended : tcpopts tcb inbound = some read) :
    read.2.segment.ack = inbound.segment.ack ∧ read.2.segment.code = inbound.segment.code := by
  unfold tcpopts at ended
  split at ended
  · cases ended
    exact ⟨rfl, rfl⟩
  · rw [Option.map_eq_some_iff] at ended
    obtain ⟨taken, _, rfl⟩ := ended
    exact ⟨rfl, rfl⟩

/-- A segment event either leaves the send side alone or runs the handler of the state on
the segment with its options read. -/
theorem segment_cases (alive : conn.tcb.state ≠ .free) :
    (connStep conn (.segment inbound)).main = conn.main ∨
    ∃ read : Tcb × Inbound, read.1.core = conn.tcb.core ∧
      read.2.segment.ack = inbound.segment.ack ∧ read.2.segment.code = inbound.segment.code ∧
      connStep conn (.segment inbound) = tcpswitch { conn with tcb := read.1 } read.2 := by
  rw [connStep, tcpinp, if_neg alive]
  simp only
  split
  · cases ended : tcpopts conn.tcb { inbound with
      segment := (tcpok conn.tcb inbound.segment).2 } with
    | none => exact Or.inl rfl
    | some read =>
        have header := tcpok_header conn.tcb inbound.segment
        have kept := tcpopts_header _ conn.tcb read ended
        exact Or.inr ⟨read, tcpopts_core conn.tcb _ read ended, kept.1.trans header.1,
          kept.2.trans header.2, rfl⟩
  · exact Or.inl (tcpackit_main conn _)

end Handlers

theorem tcpsend_tcb (conn : Conn) (rexmt : Bool) :
    (tcpsend conn rexmt).tcb = tcpsent conn.tcb rexmt := by
  unfold tcpsend
  simp only
  split <;> rfl

theorem tcpsend_sends (conn : Conn) (rexmt : Bool) :
    (tcpsend conn rexmt).trace.sends = conn.trace.sends ++ [(conn.tcb, rexmt)] := by
  unfold tcpsend
  simp only
  split <;> rfl

section Output

variable (conn : Conn)

theorem tcpsend_emits (rexmt : Bool) : Emits conn.main (tcpsend conn rexmt).main := by
  have chain : Emits conn.main { conn.main with
      core := (tcpsent conn.tcb rexmt).core
      sends := conn.main.sends ++ [(conn.tcb, rexmt)] } :=
    Relation.ReflTransGen.single (Emit.sent conn.tcb rfl rexmt)
  unfold tcpsend
  simp only
  split
  · rw [tcpwait_main]
    exact chain
  · exact chain

theorem tcprexmt_emits (event : OutEvent) : Emits conn.main (tcprexmt conn event).main := by
  unfold tcprexmt
  simp only
  split_ifs
  · exact Relation.ReflTransGen.refl
  · exact Relation.ReflTransGen.refl
  · exact tcpsend_emits { conn with
      tcb := { conn.tcb with rexmtcount := conn.tcb.rexmtcount + 1 } } true

theorem tcpxmitloop_emits (window : Int) (fuel : Nat) (after : Conn)
    (ended : tcpxmitloop window fuel conn = some after) : Emits conn.main after.main := by
  induction fuel generalizing conn with
  | zero => simp [tcpxmitloop] at ended
  | succ fuel ih =>
      rw [tcpxmitloop] at ended
      split at ended
      · exact (tcpsend_emits conn false).trans (ih _ ended)
      · cases ended
        exact Relation.ReflTransGen.refl

theorem tcpxmitidle_emits : Emits conn.main (tcpxmitidle conn).main := by
  have sent : Emits conn.main
      (if conn.tcb.flags.needout then tcpsend conn false else conn).main := by
    split
    · exact tcpsend_emits conn false
    · exact Relation.ReflTransGen.refl
  unfold tcpxmitidle
  simp only
  generalize (if conn.tcb.flags.needout then tcpsend conn false else conn) = next at sent ⊢
  split
  · exact sent
  · rw [startTimer_main]
    exact sent

theorem tcpxmit_emits (fuel : Nat) (event : OutEvent) (after : Conn)
    (ended : tcpxmit fuel conn event = some after) : Emits conn.main after.main := by
  unfold tcpxmit at ended
  simp only at ended
  split_ifs at ended
  · cases ended
    exact tcprexmt_emits (conn.clearTimer .send) event
  · cases ended
    exact tcpxmitidle_emits conn
  · cases ended
    exact tcpsend_emits { conn with tcb := { conn.tcb with
      ostate := .persist
      persist := conn.tcb.rexmt } } false
  · rw [Option.map_eq_some_iff] at ended
    obtain ⟨last, loop, rfl⟩ := ended
    rw [startTimer_main]
    exact tcpxmitloop_emits { conn with tcb := { conn.tcb with ostate := .xmit } } _ fuel last loop

theorem tcppersist_emits (event : OutEvent) : Emits conn.main (tcppersist conn event).main := by
  unfold tcppersist
  simp only
  split
  · exact Relation.ReflTransGen.refl
  · exact tcpsend_emits conn true

theorem tcposwitch_emits (fuel : Nat) (event : OutEvent) (after : Conn)
    (ended : tcposwitch fuel conn event = some after) : Emits conn.main after.main := by
  unfold tcposwitch at ended
  split at ended
  · unfold tcpidle at ended
    split at ended
    · exact tcpxmit_emits conn fuel event after ended
    · cases ended
      exact Relation.ReflTransGen.refl
  · cases ended
    exact tcppersist_emits conn event
  · exact tcpxmit_emits conn fuel event after ended
  · cases ended
    exact tcprexmt_emits conn event

theorem tcpout_emits (fuel : Nat) (after : Conn) (ended : tcpout fuel conn = some after) :
    Emits conn.main after.main := by
  unfold tcpout at ended
  split at ended
  · cases ended
    exact Relation.ReflTransGen.refl
  · rename_i event tcbnum rest _
    simp only at ended
    split_ifs at ended
    · cases ended
      exact Relation.ReflTransGen.refl
    · cases ended
      exact Relation.ReflTransGen.refl
    · cases ended
      exact tcbdealloc_emits { conn with oport := rest }
    · exact tcposwitch_emits { conn with oport := rest } fuel event after ended

end Output

section Calls

variable (conn : Conn)

theorem tcpgetspace_chain (index : Nat) : Chain conn.main (tcpgetspace conn index).main := by
  unfold tcpgetspace
  split
  · exact Relation.ReflTransGen.refl
  · rename_i octets isurg _
    simp only
    split_ifs with gone space
    · exact Relation.ReflTransGen.refl
    · unfold tcpwr
      simp only
      split_ifs with empty kick
      · exact Relation.ReflTransGen.refl
      · rw [tcpkick_main]
        exact Relation.ReflTransGen.single (Micro.wrote conn.tcb rfl octets isurg empty space)
      · exact Relation.ReflTransGen.single (Micro.wrote conn.tcb rfl octets isurg empty space)
    · exact Relation.ReflTransGen.refl

theorem tcpclose_chain : Chain conn.main (tcpclose conn).main := by
  unfold tcpclose
  split_ifs with other error
  · exact Relation.ReflTransGen.refl
  · exact tcbdealloc_chain conn
  · rw [tcpkick_main]
    exact Relation.ReflTransGen.single (Micro.closed conn.tcb rfl (by tauto))

/-- Every step of a connection is a chain of steps of the send side. -/
theorem step_chain (event : Event) : Chain conn.main (connStep conn event).main := by
  cases event with
  | segment inbound =>
      rw [connStep]
      cases taken : tcpinp conn inbound with
      | none => exact Relation.ReflTransGen.refl
      | some after => exact tcpinp_chain conn inbound after taken
  | output fuel =>
      rw [connStep]
      cases ended : tcpout fuel conn with
      | none => exact Relation.ReflTransGen.refl
      | some after => exact (tcpout_emits conn fuel after ended).chain
  | tick delta => exact Relation.ReflTransGen.refl
  | clock ctr100 => exact Relation.ReflTransGen.refl
  | write octets isurg => exact Chain.of_eq (tcpwrcall_main conn octets isurg)
  | resume index => exact tcpgetspace_chain conn index
  | close => exact tcpclose_chain conn
  | closeEnd =>
      rw [connStep, tcpcloseend]
      split
      · exact tcbdealloc_chain conn
      · exact Relation.ReflTransGen.refl
  | read len => exact Chain.of_eq (tcpread_main conn len)
  | option set delack buffer => exact Relation.ReflTransGen.refl
  | otherKick event tcbnum =>
      rw [connStep]
      split <;> exact Relation.ReflTransGen.refl
  | otherSet key time =>
      rw [connStep]
      split <;> exact Relation.ReflTransGen.refl
  | otherClear key =>
      rw [connStep]
      split <;> exact Relation.ReflTransGen.refl

end Calls

/-- What the steps of the send side keep holds of every reachable connection. -/
theorem invariant_of_micro {Inv : Main → Prop}
    (kept : ∀ main after, Inv main → Micro main after → Inv after)
    {allowed : Conn → Event → Prop} {start conn : Conn}
    (reached : Runs.Reach connStep allowed start conn) (initial : Inv start.main) :
    Inv conn.main := by
  have chain : ∀ main after : Main, Chain main after → Inv main → Inv after := by
    intro main after steps holds
    induction steps with
    | refl => exact holds
    | tail _ last ih => exact kept _ _ ih last
  induction reached with
  | start => exact initial
  | step event _ _ ih => exact chain _ _ (step_chain _ event) ih

end MvsXinu.Tcp
