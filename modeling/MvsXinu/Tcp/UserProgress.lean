import MvsXinu.Lib.Runs
import MvsXinu.Tcp.UserCalls

/-!
# Users make progress

Whenever a reader or a writer has something to do, its semaphore has a token or some process
that has got one is on its way to the mutex: every change that gives them something to do
signals, and who leaves the mutex signals again. So nobody waits for good where the state of
the connection says otherwise.
-/

namespace MvsXinu.Tcp

open MvsXinu.SeqSpace MvsXinu.Counting MvsXinu.Mutex

set_option autoImplicit false

/-! ## What the calls look at -/

/-- The fields that decide whether a process has something to do. -/
structure Duty where
  state : TcpState
  error : Option TcpError
  sbsize : Word
  sbcount : Word
  rbsize : Word
  rbcount : Word
  rdone : Bool
  sdone : Bool

def Tcb.duty (tcb : Tcb) : Duty where
  state := tcb.state
  error := tcb.error
  sbsize := tcb.sbsize
  sbcount := tcb.sbcount
  rbsize := tcb.rbsize
  rbcount := tcb.rbcount
  rdone := tcb.flags.rdone
  sdone := tcb.flags.sdone

section Duty

variable (conn : Conn) (tcb : Tcb)

theorem tcpkick_duty : (tcpkick conn).tcb.duty = conn.tcb.duty := by
  rw [tcpkick_tcb]

theorem tcprwindow_duty : (tcprwindow tcb).2.duty = tcb.duty := by
  unfold tcprwindow
  split <;> rfl

theorem tcpackit_duty (segment : Segment) : (tcpackit conn segment).tcb.duty = conn.tcb.duty := by
  unfold tcpackit
  split
  · rfl
  · split
    · rfl
    · exact tcprwindow_duty conn.tcb

theorem tcprtt_duty : (tcprtt conn).tcb.duty = conn.tcb.duty := by
  unfold tcprtt
  dsimp only
  split
  · rfl
  · split <;> rfl

theorem tcpostate_duty (acked : Int) : (tcpostate conn acked).tcb.duty = conn.tcb.duty := by
  unfold tcpostate
  dsimp only
  split_ifs
  · rfl
  · rfl
  · rw [tcpkick_duty]
    rfl
  · rfl
  · exact tcpkick_duty conn

theorem tcpswindow_duty (segment : Segment) :
    (tcpswindow conn segment).tcb.duty = conn.tcb.duty := by
  unfold tcpswindow
  dsimp only
  split_ifs
  · rfl
  · rfl
  · rfl
  · rw [tcpkick_duty]
    rfl
  · rw [tcpkick_duty]
    rfl

theorem tcpsend_duty (rexmt : Bool) : (tcpsend conn rexmt).tcb.duty = conn.tcb.duty := by
  rw [tcpsend_tcb]
  unfold tcpsent
  dsimp only
  have window := tcprwindow_duty conn.tcb
  unfold Tcb.duty at window ⊢
  rw [Duty.mk.injEq] at window ⊢
  exact ⟨window.1, window.2.1, window.2.2.1, window.2.2.2.1, window.2.2.2.2.1,
    window.2.2.2.2.2.1, rfl, rfl⟩

/-! ## The send side -/

theorem tcprtt_acked (ack : Tcpseq) :
    tcpackedlen (tcprtt conn).tcb ack = tcpackedlen conn.tcb ack := by
  have core : (tcprtt conn).tcb.core = conn.tcb.core := by
    unfold tcprtt
    dsimp only
    split
    · rfl
    · split <;> rfl
  exact tcpackedlen_core core ack

/-- `sbcount` changes only with a signal. -/
theorem tcpacked_duty (segment : Segment) :
    (tcpacked conn segment).2.tcb.duty =
        { conn.tcb.duty with sbcount := (tcpacked conn segment).2.tcb.sbcount } ∧
      (tcpackedsignals conn.tcb segment = false →
        (tcpacked conn segment).2.tcb.sbcount = conn.tcb.sbcount) := by
  have same : ∀ after : Conn, after.tcb.duty = conn.tcb.duty →
      after.tcb.duty = { conn.tcb.duty with sbcount := after.tcb.sbcount } ∧
        after.tcb.sbcount = conn.tcb.sbcount := by
    intro after duty
    have count : after.tcb.sbcount = conn.tcb.sbcount := congrArg Duty.sbcount duty
    rw [count]
    exact ⟨duty, rfl⟩
  have keeps : ∀ after : Conn, after.tcb.duty = conn.tcb.duty →
      after.tcb.duty = { conn.tcb.duty with sbcount := after.tcb.sbcount } ∧
        (tcpackedsignals conn.tcb segment = false → after.tcb.sbcount = conn.tcb.sbcount) :=
    fun after duty => ⟨(same after duty).1, fun _ => (same after duty).2⟩
  unfold tcpacked
  split
  · exact keeps conn rfl
  · next flagged =>
      dsimp only
      split
      · exact keeps _ rfl
      · next new =>
          split
          · dsimp only
            split
            · refine keeps _ ?_
              rw [tcpreset_tcb]
            · exact keeps _ (tcpackit_duty _ segment)
          · next old =>
              have rtt := tcprtt_duty { conn with trace := { conn.trace with
                acks := conn.trace.acks ++ [(conn.tcb, segment)] } }
              have length := tcprtt_acked { conn with trace := { conn.trace with
                acks := conn.trace.acks ++ [(conn.tcb, segment)] } } segment.ack
              generalize isTimed : tcprtt { conn with trace := { conn.trace with
                acks := conn.trace.acks ++ [(conn.tcb, segment)] } } = timed at rtt length ⊢
              rw [tcpostate_duty]
              have taken : (tcpaccepted timed.tcb segment.ack).duty = { timed.tcb.duty with
                  sbcount := (tcpaccepted timed.tcb segment.ack).sbcount } := rfl
              have count : ∀ acked, (tcpostate { timed with
                  tcb := tcpaccepted timed.tcb segment.ack } acked).tcb.sbcount =
                  (tcpaccepted timed.tcb segment.ack).sbcount :=
                fun acked => congrArg Duty.sbcount (tcpostate_duty _ acked)
              rw [count]
              refine ⟨taken.trans (by rw [rtt]), ?_⟩
              intro silent
              have none : tcpackedlen conn.tcb segment.ack = 0 := by
                unfold tcpackedsignals at silent
                simp only [Bool.not_eq_true', Bool.not_eq_false] at flagged
                have positive := Int.not_le.mp new
                have within := Int.not_lt.mp old
                simpa [flagged, positive, within] using silent
              change timed.tcb.sbcount - BitVec.ofInt 32 (tcpackedlen timed.tcb segment.ack) = _
              have same : timed.tcb.sbcount = conn.tcb.sbcount := congrArg Duty.sbcount rtt
              rw [length, same]
              dsimp only
              rw [none]
              simp

/-! ## The receive side -/

theorem tfinsert_duty (seq : Tcpseq) (datalen : Word) (newqOk : Bool) :
    (tfinsert tcb seq datalen newqOk).duty = tcb.duty := by
  unfold tfinsert
  dsimp only
  split
  · rfl
  · split
    · rfl
    · split <;> rfl

theorem tfpush_flags (code : Code) : (tfpush tcb code).1.flags = tcb.flags := by
  unfold tfpush
  split <;> rfl

theorem tfjoin_flags (frag : Tcpfrag) : (tfjoin tcb frag).flags = tcb.flags := by
  unfold tfjoin
  split <;> rfl

theorem tfloop_flags (qMax : Nat) (items : List (Int × Tcpfrag)) (code : Code) :
    (tfloop qMax items tcb code).1.flags = tcb.flags := by
  induction items generalizing tcb code with
  | nil => rfl
  | cons item rest ih =>
      rw [tfloop]
      dsimp only
      split
      · split <;> rfl
      · split
        · exact tfjoin_flags tcb item.2
        · rw [ih, tfpush_flags, tfjoin_flags]

theorem tfcoalesce_flags (datalen : Word) (code : Code) :
    (tfcoalesce tcb datalen code).1.flags = tcb.flags := by
  unfold tfcoalesce
  dsimp only
  split
  · rfl
  · split
    · exact tfpush_flags _ code
    · split
      · exact tfpush_flags _ code
      · rw [tfloop_flags]
        exact tfpush_flags _ code

theorem tcpcontrols_rdone (code : Code) (done : tcb.flags.rdone = true) :
    (tcpcontrols tcb code).flags.rdone = true := by
  unfold tcpcontrols
  dsimp only
  split_ifs
  · rfl
  · exact done
  · rfl
  · exact done

theorem tcpcontrols_none {code : Code} (fin : code.fin = false) (psh : code.psh = false)
    (urg : code.urg = false) : tcpcontrols tcb code = tcb := by
  unfold tcpcontrols
  rw [fin, psh, urg]
  rfl

/-- Octets are counted in and the end is recorded only with a wake-up. -/
theorem tcpdodat_duty (seq : Tcpseq) (code : Code) (first : Tcpseq) (datalen : Word)
    (newqOk : Bool) :
    (tcb.flags.rdone = true → (tcpdodat tcb seq code first datalen newqOk).flags.rdone = true) ∧
      (tcpdodatwakes tcb code first datalen = false →
        (tcpdodat tcb seq code first datalen newqOk).duty = tcb.duty) := by
  unfold tcpdodat
  split
  · next inOrder =>
      split
      · next some =>
          constructor
          · intro done
            apply tcpcontrols_rdone
            dsimp only
            rw [tfcoalesce_flags]
            exact done
          · intro silent
            simp [tcpdodatwakes, inOrder, some] at silent
      · next none =>
          constructor
          · exact tcpcontrols_rdone tcb code
          · intro silent
            have quiet : (code.fin = false ∧ code.psh = false) ∧ code.urg = false := by
              simpa [tcpdodatwakes, inOrder, none] using silent
            rw [tcpcontrols_none tcb quiet.1.1 quiet.1.2 quiet.2]
  · have later : (tfinsert (if code.psh || code.urg then
        { (if code.fin then { tcb with finseq := seq + datalen } else tcb) with
          pushseq := seq + datalen }
        else if code.fin then { tcb with finseq := seq + datalen } else tcb)
        first datalen newqOk).duty = tcb.duty := by
      rw [tfinsert_duty]
      split_ifs <;> rfl
    exact ⟨fun done => (congrArg Duty.rdone later).trans done, fun _ => later⟩

theorem tcpurg_duty (segment : Segment) : (tcpurg tcb segment).duty = tcb.duty := by
  unfold tcpurg
  dsimp only
  split_ifs <;> rfl

theorem tcpsection_duty (segment : Segment) (seq : Tcpseq) (newqOk : Bool) :
    (tcb.flags.rdone = true → (tcpsection tcb segment seq newqOk).flags.rdone = true) ∧
      (tcpsectionwakes tcb segment seq = false →
        (tcpsection tcb segment seq newqOk).duty = tcb.duty) := by
  unfold tcpsection tcpsectionwakes
  dsimp only
  generalize Ring.store _ _ _ _ = rcvbuf
  exact tcpdodat_duty { tcb with rcvbuf := rcvbuf } seq _ _ _ newqOk

theorem tcpdata_duty (segment : Segment) (newqOk : Bool) :
    (tcb.flags.rdone = true → (tcpdata tcb segment newqOk).flags.rdone = true) ∧
      (tcpdatawakes tcb segment = false → (tcpdata tcb segment newqOk).duty = tcb.duty) := by
  have urgent := tcpurg_duty tcb segment
  have done : tcb.flags.rdone = true → (tcpurg tcb segment).flags.rdone = true :=
    fun before => (congrArg Duty.rdone urgent).trans before
  unfold tcpdata tcpdatawakes
  dsimp only
  generalize tcpurg tcb segment = marked at urgent done
  split
  · have data := tcpsection_duty { marked with
      rnext := marked.rnext + 1
      flags := { marked.flags with needout := true } } segment (segment.seq + 1) newqOk
    exact ⟨fun before => data.1 (done before), fun silent => (data.2 silent).trans urgent⟩
  · have data := tcpsection_duty marked segment segment.seq newqOk
    exact ⟨fun before => data.1 (done before), fun silent => (data.2 silent).trans urgent⟩

theorem duty_of_sending {tcb other : Tcb} (same : other.sending = tcb.sending) :
    other.duty = { tcb.duty with
      rbcount := other.rbcount
      rdone := other.flags.rdone } := by
  have duty : other.sending.duty = tcb.sending.duty := congrArg Tcb.duty same
  have fields := duty
  unfold Tcb.duty Tcb.sending at fields
  rw [Duty.mk.injEq] at fields
  unfold Tcb.duty
  rw [Duty.mk.injEq]
  exact ⟨fields.1, fields.2.1, fields.2.2.1, fields.2.2.2.1, fields.2.2.2.2.1, rfl, rfl,
    fields.2.2.2.2.2.2.2⟩

theorem tcpdeliver_tcb (inbound : Inbound) :
    (tcpdeliver conn inbound).tcb = tcpdata conn.tcb inbound.segment inbound.newqOk := by
  unfold tcpdeliver
  dsimp only
  split
  · rw [tcpkick_tcb]
  · rfl

theorem tcpgetoctets_rdone (len : Nat) :
    (tcpgetoctets len tcb).2.flags.rdone = tcb.flags.rdone := by
  induction len generalizing tcb with
  | zero => rfl
  | succ len ih =>
      rw [tcpgetoctets]
      split
      · rfl
      · exact ih _

theorem tcpgeturg_rdone (len : Word) : (tcpgeturg tcb len).2.flags.rdone = tcb.flags.rdone := by
  unfold tcpgeturg
  dsimp only
  split_ifs <;> rfl

theorem tcpgetcopy_rdone (len : Word) : (tcpgetcopy tcb len).2.flags.rdone = tcb.flags.rdone := by
  have copied := (tcpgetoctets_rdone (tcpgeturg tcb len).2 (tcpgeturg tcb len).1.toNat).trans
    (tcpgeturg_rdone tcb len)
  unfold tcpgetcopy
  dsimp only
  split
  · exact copied
  · exact copied

theorem tcpread_duty (len : Word) : (tcpread conn len).tcb.duty =
    { conn.tcb.duty with rbcount := (tcpread conn len).tcb.rbcount } := by
  have taken : (tcpread conn len).tcb = (tcpgetdata conn.tcb len).2.1 := by
    unfold tcpread
    dsimp only
    split
    · rw [tcpkick_tcb]
    · rfl
  have rdone : (tcpgetdata conn.tcb len).2.1.flags.rdone = conn.tcb.flags.rdone := by
    have copied := tcpgetcopy_rdone conn.tcb len
    have window := congrArg Duty.rdone (tcprwindow_duty (tcpgetcopy conn.tcb len).2)
    unfold tcpgetdata
    dsimp only
    split
    · split
      · exact window.trans copied
      · exact window.trans copied
    · exact copied
  rw [taken, duty_of_sending (tcpgetdata_sending conn.tcb len), rdone]
  rfl

end Duty

/-! ## Processes and semaphores -/

/-- The process has called `wait` for the mutex and not given it back. -/
def Stage.AtMutex : Stage → Prop
  | .call _ .mutex => True
  | .call _ (.leaving _) => True
  | .call _ .retrying => True
  | .keeper => True
  | _ => False

/-- The process is done with the block and still has the mutex. -/
def Stage.Holds : Stage → Prop
  | .call _ (.leaving _) => True
  | .call _ .retrying => True
  | _ => False

structure Desk.Lined (s : Desk) : Prop where
  orderly : s.mutex.Orderly
  involved : ∀ pid, s.mutex.Involves pid ↔ (s.stage pid).AtMutex
  holds : ∀ pid, (s.stage pid).Holds → s.mutex.owner = some pid
  even : ∀ side, (s.sema side).Even
  nodup : ∀ side, (s.sema side).waiting.Nodup
  asking : ∀ side, ∀ pid ∈ (s.sema side).waiting,
    ∃ request : Request, request.side = side ∧ s.stage pid = .call request .token

section Lined

variable {s : Desk} {pid : Pid} {stage : Stage}

theorem place_self (s : Desk) (pid : Pid) (stage : Stage) : (s.place pid stage).stage pid = stage :=
  Function.update_self _ _ _

theorem place_other (s : Desk) {pid other : Pid} (stage : Stage) (away : other ≠ pid) :
    (s.place pid stage).stage other = s.stage other :=
  Function.update_of_ne away _ _

/-- Who waits for no token is in no queue. -/
theorem Desk.Lined.unqueued (lined : s.Lined)
    (other : ∀ request : Request, s.stage pid ≠ .call request .token) (side : Side) :
    pid ∉ (s.sema side).waiting := by
  intro member
  obtain ⟨request, _, asks⟩ := lined.asking side pid member
  exact other request asks

/-- The queues are as before, and the process is in none of them. -/
theorem Desk.Lined.asking_place (lined : s.Lined) (stage : Stage)
    (unqueued : ∀ side, pid ∉ (s.sema side).waiting) (side : Side) :
    ∀ other ∈ (s.sema side).waiting,
      ∃ request : Request, request.side = side ∧
        (s.place pid stage).stage other = .call request .token := by
  intro other member
  have away : other ≠ pid := by
    intro same
    rw [same] at member
    exact unqueued side member
  rw [place_other s stage away]
  exact lined.asking side other member

theorem Desk.Lined.place (lined : s.Lined) (same : stage.AtMutex ↔ (s.stage pid).AtMutex)
    (holds : stage.Holds → s.mutex.owner = some pid)
    (unqueued : ∀ side, pid ∉ (s.sema side).waiting) : (s.place pid stage).Lined := by
  refine ⟨lined.orderly, ?_, ?_, lined.even, lined.nodup, lined.asking_place stage unqueued⟩
  · intro other
    by_cases self : other = pid
    · rw [self, place_self, same]
      exact lined.involved pid
    · rw [place_other s stage self]
      exact lined.involved other
  · intro other
    by_cases self : other = pid
    · rw [self, place_self]
      exact holds
    · rw [place_other s stage self]
      exact lined.holds other

/-- `wait(ptcb->tcb_mutex)`. -/
theorem Desk.Lined.lock (lined : s.Lined) (before : ¬ (s.stage pid).AtMutex)
    (unqueued : ∀ side, pid ∉ (s.sema side).waiting) (after : stage.AtMutex)
    (early : ¬ stage.Holds) :
    (({ s with mutex := s.mutex.wait pid } : Desk).place pid stage).Lined := by
  have absent : ¬ s.mutex.Involves pid := fun involved => before ((lined.involved pid).mp involved)
  refine ⟨wait_orderly lined.orderly absent, ?_, ?_, lined.even, lined.nodup,
    lined.asking_place stage unqueued⟩
  · intro other
    change (s.mutex.wait pid).Involves other ↔ _
    rw [wait_involves lined.orderly]
    by_cases self : other = pid
    · rw [self, place_self]
      exact ⟨fun _ => after, fun _ => Or.inr rfl⟩
    · rw [place_other _ stage self, lined.involved other]
      exact or_iff_left self
  · intro other isHolder
    by_cases self : other = pid
    · rw [self, place_self] at isHolder
      exact absurd isHolder early
    · rw [place_other _ stage self] at isHolder
      have owner := lined.holds other isHolder
      change (s.mutex.wait pid).owner = some other
      unfold Mutex.wait
      rw [owner]

/-- `signal(ptcb->tcb_mutex)`. -/
theorem Desk.Lined.unlock (lined : s.Lined) (owner : s.mutex.owner = some pid)
    (after : ¬ stage.AtMutex) (early : ¬ stage.Holds) :
    (({ s with mutex := s.mutex.signal } : Desk).place pid stage).Lined := by
  have before : (s.stage pid).AtMutex := (lined.involved pid).mp (Or.inl owner)
  have unqueued : ∀ side, pid ∉ (s.sema side).waiting := by
    apply lined.unqueued
    intro request asks
    rw [asks] at before
    exact before
  refine ⟨signal_orderly lined.orderly, ?_, ?_, lined.even, lined.nodup,
    lined.asking_place stage unqueued⟩
  · intro other
    change s.mutex.signal.Involves other ↔ _
    rw [signal_involves lined.orderly owner]
    by_cases self : other = pid
    · rw [self, place_self]
      exact ⟨fun both => absurd rfl both.2, fun impossible => absurd impossible after⟩
    · rw [place_other _ stage self, lined.involved other]
      exact and_iff_left self
  · intro other isHolder
    by_cases self : other = pid
    · rw [self, place_self] at isHolder
      exact absurd isHolder early
    · rw [place_other _ stage self] at isHolder
      have isOwner := lined.holds other isHolder
      rw [owner] at isOwner
      exact absurd (Option.some.inj isOwner).symm self

theorem setSema_self (s : Desk) (side : Side) (sem : Counting Pid) :
    (s.setSema side sem).sema side = sem := Function.update_self _ _ _

theorem setSema_other (s : Desk) {side other : Side} (sem : Counting Pid) (away : other ≠ side) :
    (s.setSema side sem).sema other = s.sema other := Function.update_of_ne away _ _

/-- `wait` for a token. -/
theorem Desk.Lined.queue (lined : s.Lined) {request : Request}
    (calls : s.stage pid = .call request .calling) :
    ((s.setSema request.side ((s.sema request.side).wait pid)).place pid
      (.call request .token)).Lined := by
  have unqueued : ∀ side, pid ∉ (s.sema side).waiting := by
    apply lined.unqueued
    intro other asks
    rw [calls] at asks
    cases asks
  refine ⟨lined.orderly, ?_, ?_, ?_, ?_, ?_⟩
  · intro other
    by_cases self : other = pid
    · have before := lined.involved pid
      rw [calls] at before
      rw [self, place_self]
      exact before
    · rw [place_other _ _ self]
      exact lined.involved other
  · intro other isHolder
    by_cases self : other = pid
    · rw [self, place_self] at isHolder
      exact absurd isHolder id
    · rw [place_other _ _ self] at isHolder
      exact lined.holds other isHolder
  · intro side
    change Counting.Even ((s.setSema _ _).sema side)
    by_cases ours : side = request.side
    · rw [ours, setSema_self]
      exact wait_even (lined.even request.side) pid
    · rw [setSema_other s _ ours]
      exact lined.even side
  · intro side
    change (((s.setSema _ _).sema side).waiting).Nodup
    by_cases ours : side = request.side
    · rw [ours, setSema_self]
      exact wait_nodup (lined.nodup request.side) (unqueued request.side)
    · rw [setSema_other s _ ours]
      exact lined.nodup side
  · intro side other member
    change other ∈ ((s.setSema _ _).sema side).waiting at member
    by_cases self : other = pid
    · rw [self, place_self]
      refine ⟨request, ?_, rfl⟩
      by_contra away
      rw [setSema_other s _ (Ne.symm away), self] at member
      exact unqueued side member
    · rw [place_other _ _ self]
      apply lined.asking side other
      by_cases ours : side = request.side
      · rw [ours, setSema_self] at member
        rw [ours]
        rcases mem_wait.mp member with old | ⟨_, new⟩
        · exact old
        · exact absurd new self
      · rw [setSema_other s _ ours] at member
        exact member

theorem Desk.Lined.signal (lined : s.Lined) (side : Side) :
    (s.setSema side (s.sema side).signal).Lined := by
  refine ⟨lined.orderly, lined.involved, lined.holds, ?_, ?_, ?_⟩
  · intro other
    by_cases ours : other = side
    · rw [ours, setSema_self]
      exact signal_even (lined.even side)
    · rw [setSema_other s _ ours]
      exact lined.even other
  · intro other
    by_cases ours : other = side
    · rw [ours, setSema_self]
      exact signal_nodup (lined.nodup side)
    · rw [setSema_other s _ ours]
      exact lined.nodup other
  · intro other pid member
    by_cases ours : other = side
    · rw [ours, setSema_self] at member
      rw [ours]
      exact lined.asking side pid (mem_of_mem_signal member)
    · rw [setSema_other s _ ours] at member
      exact lined.asking other pid member

theorem Desk.Lined.onConn (lined : s.Lined) (conn : Conn) : (s.onConn conn).Lined :=
  ⟨lined.orderly, lined.involved, lined.holds, lined.even, lined.nodup, lined.asking⟩

end Lined

/-! ## Tokens -/

/-- The process has a token and has not looked at the block yet. -/
def Desk.Transit (s : Desk) (side : Side) (pid : Pid) : Prop :=
  ∃ request : Request, request.side = side ∧
    (s.stage pid = .call request .token ∧ pid ∉ (s.sema side).waiting ∨
      s.stage pid = .call request .mutex)

def Desk.Served (s : Desk) (side : Side) : Prop :=
  0 < (s.sema side).count ∨ ∃ pid, s.Transit side pid

/-- Who has something to do is served. -/
def Desk.Due (s : Desk) (side : Side) : Prop :=
  s.conn.tcb.state ≠ .closed → s.conn.tcb.Urgent side → s.Served side

structure Desk.Sound (s : Desk) : Prop where
  lined : s.Lined
  taken : ¬ s.gone
  sbsize : s.conn.tcb.sbsize = BitVec.ofNat 32 tcpsbs
  rbsize : s.conn.tcb.rbsize = BitVec.ofNat 32 tcprbs
  fits : ∀ pid octets isurg stage, s.stage pid = .call (.write octets isurg) stage →
    octets.length ≤ tcpsbs
  failed : s.conn.tcb.error.isSome = true →
    s.conn.tcb.state = .closed ∨ s.conn.tcb.flags.rdone = true ∧ s.conn.tcb.flags.sdone = true
  unopened : s.conn.tcb.state = .synsent ∨ s.conn.tcb.state = .closed →
    ∀ pid request stage, s.stage pid ≠ .call request stage

section Served

variable {s : Desk} {side other : Side} {pid : Pid} {stage : Stage}

theorem Desk.Served.place (served : s.Served side)
    (kept : s.Transit side pid → (s.place pid stage).Transit side pid) :
    (s.place pid stage).Served side := by
  rcases served with some | ⟨first, transit⟩
  · exact Or.inl some
  · right
    by_cases self : first = pid
    · rw [self] at transit
      exact ⟨pid, kept transit⟩
    · refine ⟨first, ?_⟩
      unfold Desk.Transit
      rw [place_other s stage self]
      exact transit

theorem Desk.Served.setSema_away (served : s.Served side) (sem : Counting Pid)
    (away : side ≠ other) : (s.setSema other sem).Served side := by
  unfold Desk.Served Desk.Transit at served ⊢
  rw [setSema_other s sem away]
  exact served

/-- A signal that is due is a token or a process on its way. -/
theorem Desk.Lined.signal_served (lined : s.Lined) (low : (s.sema side).count ≤ 0) :
    (s.setSema side (s.sema side).signal).Served side := by
  rcases signal_serves (lined.even side) (lined.nodup side) low with some | ⟨first, member, released⟩
  · left
    rw [setSema_self]
    exact some
  · right
    obtain ⟨request, ours, asks⟩ := lined.asking side first member
    refine ⟨first, request, ours, Or.inl ⟨asks, ?_⟩⟩
    rw [setSema_self]
    exact released

theorem signalSema_taken (taken : ¬ s.gone) :
    s.signalSema side = s.setSema side (s.sema side).signal := if_neg taken

theorem signalSema_stage (s : Desk) (side : Side) : (s.signalSema side).stage = s.stage := by
  unfold Desk.signalSema
  split <;> rfl

theorem Desk.Sound.signal (sound : s.Sound) (side : Side) : (s.signalSema side).Sound := by
  rw [signalSema_taken sound.taken]
  exact ⟨sound.lined.signal side, sound.taken, sound.sbsize, sound.rbsize, sound.fits,
    sound.failed, sound.unopened⟩

theorem Desk.Due.signal (due : s.Due side) (sound : s.Sound) (away : side ≠ other) :
    (s.signalSema other).Due side := by
  rw [signalSema_taken sound.taken]
  intro open_ urgent
  exact (due open_ urgent).setSema_away _ away

theorem Desk.Sound.offer (sound : s.Sound) (side : Side) :
    (s.offer side).Sound ∧ (s.offer side).Due side := by
  unfold Desk.offer
  split
  · next low =>
      refine ⟨sound.signal side, ?_⟩
      rw [signalSema_taken sound.taken]
      exact fun _ _ => sound.lined.signal_served low
  · next some => exact ⟨sound, fun _ _ => Or.inl (Int.not_le.mp some)⟩

theorem Desk.Due.offer (due : s.Due side) (sound : s.Sound) (away : side ≠ other) :
    (s.offer other).Due side := by
  unfold Desk.offer
  split
  · exact due.signal sound away
  · exact due

/-- There is something to do only where `tcpwakeup` sees it. -/
theorem Desk.Sound.wakes (sound : s.Sound) (isOpen : s.conn.tcb.state ≠ .closed)
    (urgent : s.conn.tcb.Urgent side) : tcpwakes s.conn.tcb side = true := by
  have failed : s.conn.tcb.error.isSome = true →
      s.conn.tcb.flags.rdone = true ∧ s.conn.tcb.flags.sdone = true := by
    intro error
    rcases sound.failed error with closed | done
    · exact absurd closed isOpen
    · exact done
  cases side with
  | readers =>
      unfold tcpwakes
      rcases urgent with full | done | error
      · have some : 0 < s.conn.tcb.rbcount.toNat := by
          rw [sound.rbsize] at full
          have size : (BitVec.ofNat 32 tcprbs).toNat = 8192 := by decide
          omega
        simp [some]
      · simp [done]
      · simp [(failed error).1]
  | writers =>
      unfold tcpwakes
      rcases urgent with empty | error
      · have some : 0 < (s.conn.tcb.sbsize - s.conn.tcb.sbcount).toInt := by
          rw [sound.sbsize, empty]
          decide
        rw [Bool.or_eq_true]
        exact Or.inr (decide_eq_true some)
      · simp [(failed error).2]

theorem Desk.Sound.wakeup (sound : s.Sound) (side : Side) :
    (s.tcpwakeup side).Sound ∧ (s.tcpwakeup side).Due side := by
  unfold Desk.tcpwakeup
  split
  · next low =>
      refine ⟨sound.signal side, ?_⟩
      rw [signalSema_taken sound.taken]
      exact fun _ _ => sound.lined.signal_served low.2
  · next silent =>
      refine ⟨sound, ?_⟩
      intro isOpen urgent
      left
      by_contra low
      exact silent ⟨sound.wakes isOpen urgent, Int.not_lt.mp low⟩

theorem Desk.Due.wakeup (due : s.Due side) (sound : s.Sound) (away : side ≠ other) :
    (s.tcpwakeup other).Due side := by
  unfold Desk.tcpwakeup
  split
  · exact due.signal sound away
  · exact due

/-- A wake-up does not look at the stages. -/
theorem tcpwakeup_place (s : Desk) (side : Side) (pid : Pid) (stage : Stage) :
    (s.tcpwakeup side).place pid stage = (s.place pid stage).tcpwakeup side := by
  unfold Desk.tcpwakeup Desk.signalSema
  change _ = if tcpwakes s.conn.tcb side = true ∧ (s.sema side).count ≤ 0 then
    if s.gone then s.place pid stage
    else (s.place pid stage).setSema side (s.sema side).signal else s.place pid stage
  split_ifs
  · rfl
  · rfl
  · rfl

end Served

def Desk.Manned (s : Desk) : Prop := s.Sound ∧ ∀ side, s.Due side

/-! ## Steps of a call -/

section Steps

variable {s : Desk} {side : Side} {pid : Pid} {stage : Stage} {request : Request}

/-- The connection is as before, and no request is new. -/
theorem Desk.Sound.rearranged (sound : s.Sound) {after : Desk} (conn : after.conn = s.conn)
    (lined : after.Lined)
    (calls : ∀ pid request now, after.stage pid = .call request now →
      ∃ other before, s.stage other = .call request before) : after.Sound := by
  refine ⟨lined, ?_, ?_, ?_, ?_, ?_, ?_⟩
  · unfold Desk.gone
    rw [conn]
    exact sound.taken
  · rw [conn]
    exact sound.sbsize
  · rw [conn]
    exact sound.rbsize
  · intro pid octets isurg now asks
    obtain ⟨other, before, asked⟩ := calls _ _ _ asks
    exact sound.fits other octets isurg before asked
  · rw [conn]
    exact sound.failed
  · rw [conn]
    intro early pid request now asks
    obtain ⟨other, before, asked⟩ := calls _ _ _ asks
    exact sound.unopened early other request before asked

/-- The process stays in its call, or its call ends. -/
theorem place_calls {before : Desk} (same : before.stage = s.stage)
    (stays : ∀ request now, stage = .call request now →
      ∃ earlier, s.stage pid = .call request earlier) :
    ∀ first request now, (before.place pid stage).stage first = .call request now →
      ∃ other earlier, s.stage other = .call request earlier := by
  intro first request now asks
  by_cases self : first = pid
  · rw [self, place_self] at asks
    obtain ⟨earlier, asked⟩ := stays request now asks
    exact ⟨pid, earlier, asked⟩
  · rw [place_other before stage self, same] at asks
    exact ⟨first, now, asks⟩

theorem stays_in_call {before now : CallStage} (asked : s.stage pid = .call request before) :
    ∀ other later, Stage.call request now = .call other later →
      ∃ earlier, s.stage pid = .call other earlier := by
  intro other later same
  cases same
  exact ⟨before, asked⟩

theorem no_transit (early : ∀ request : Request, s.stage pid ≠ .call request .token ∧
    s.stage pid ≠ .call request .mutex) (side : Side) : ¬ s.Transit side pid := by
  rintro ⟨request, _, ⟨asks, _⟩ | looks⟩
  · exact (early request).1 asks
  · exact (early request).2 looks

theorem Desk.Due.place (due : s.Due side)
    (kept : s.Transit side pid → (s.place pid stage).Transit side pid) :
    (s.place pid stage).Due side :=
  fun isOpen urgent => (due isOpen urgent).place kept

/-- A process asks for a token. -/
theorem Desk.Manned.ask (manned : s.Manned) (calls : s.stage pid = .call request .calling) :
    ((s.waitSema request.side pid).place pid (.call request .token)).Manned := by
  obtain ⟨sound, due⟩ := manned
  have idle : ∀ side, ¬ s.Transit side pid := by
    apply no_transit
    intro other
    rw [calls]
    constructor
    · intro same
      cases same
    · intro same
      cases same
  have spec : s.waitSema request.side pid =
      s.setSema request.side ((s.sema request.side).wait pid) := if_neg sound.taken
  rw [spec]
  constructor
  · refine sound.rearranged ?_ (sound.lined.queue calls) ?_
    · rfl
    · exact place_calls rfl (stays_in_call calls)
  · intro side isOpen urgent
    have served := due side isOpen urgent
    by_cases ours : side = request.side
    · rw [ours] at served ⊢
      right
      rcases served with some | ⟨first, transit⟩
      · -- the token is there, and the process takes it
        refine ⟨pid, request, rfl, Or.inl ⟨place_self _ _ _, ?_⟩⟩
        change pid ∉ ((s.setSema _ _).sema request.side).waiting
        rw [setSema_self, mem_wait]
        rintro (member | ⟨blocks, _⟩)
        · obtain ⟨other, _, asks⟩ := sound.lined.asking _ _ member
          rw [calls] at asks
          cases asks
        · unfold Counting.Blocks at blocks
          omega
      · have away : first ≠ pid := by
          intro same
          rw [same] at transit
          exact idle _ transit
        obtain ⟨other, itsSide, stands⟩ := transit
        refine ⟨first, other, itsSide, ?_⟩
        rw [place_other _ _ away]
        rcases stands with ⟨asks, released⟩ | looks
        · left
          refine ⟨asks, ?_⟩
          change first ∉ ((s.setSema _ _).sema request.side).waiting
          rw [setSema_self, mem_wait]
          rintro (member | ⟨_, same⟩)
          · exact released member
          · exact away same
        · exact Or.inr looks
    · have apart := served.setSema_away ((s.sema request.side).wait pid) ours
      apply apart.place
      intro transit
      unfold Desk.Transit at transit
      rw [setSema_other s _ ours] at transit
      exact absurd transit (idle side)

/-- A process that has a token asks for the mutex. -/
theorem Desk.Manned.lock (manned : s.Manned) (asks : s.stage pid = .call request .token)
    (released : pid ∉ (s.sema request.side).waiting) :
    ((s.waitMutex pid).place pid (.call request .mutex)).Manned := by
  obtain ⟨sound, due⟩ := manned
  have spec : s.waitMutex pid = { s with mutex := s.mutex.wait pid } := if_neg sound.taken
  have unqueued : ∀ side, pid ∉ (s.sema side).waiting := by
    intro side member
    obtain ⟨other, itsSide, again⟩ := sound.lined.asking side pid member
    rw [asks] at again
    cases again
    rw [itsSide] at released
    exact released member
  rw [spec]
  constructor
  · refine sound.rearranged ?_ (sound.lined.lock ?_ unqueued trivial id) ?_
    · rfl
    · rw [asks]
      exact id
    · exact place_calls rfl (stays_in_call asks)
  · intro side isOpen urgent
    apply Desk.Served.place (due side isOpen urgent)
    rintro ⟨other, itsSide, ⟨again, _⟩ | looks⟩
    · change s.stage pid = _ at again
      rw [asks] at again
      cases again
      exact ⟨request, itsSide, Or.inr (place_self _ _ _)⟩
    · change s.stage pid = _ at looks
      rw [asks] at looks
      cases looks

/-- A process gives the mutex back. -/
theorem Desk.Manned.unlock (manned : s.Manned) (owner : s.mutex.owner = some pid)
    (idle : ∀ request : Request, s.stage pid ≠ .call request .mutex)
    (after : ¬ stage.AtMutex) (early : ¬ stage.Holds)
    (stays : ∀ request now, stage = .call request now →
      ∃ earlier, s.stage pid = .call request earlier) : (s.signalMutex.place pid stage).Manned := by
  obtain ⟨sound, due⟩ := manned
  have spec : s.signalMutex = { s with mutex := s.mutex.signal } := if_neg sound.taken
  have before : (s.stage pid).AtMutex := (sound.lined.involved pid).mp (Or.inl owner)
  rw [spec]
  constructor
  · refine sound.rearranged ?_ (sound.lined.unlock owner after early) ?_
    · rfl
    · exact place_calls rfl stays
  · intro side isOpen urgent
    apply Desk.Served.place (due side isOpen urgent)
    intro transit
    refine absurd transit (no_transit ?_ side)
    intro request
    refine ⟨?_, idle request⟩
    intro asks
    change s.stage pid = _ at asks
    rw [asks] at before
    exact before

/-- A process that has looked at the block passes its token on and is about to leave. -/
theorem Desk.Sound.looked (sound : s.Sound) (looks : s.stage pid = .call request .mutex)
    (owner : s.mutex.owner = some pid) (due : ∀ other, other ≠ request.side → s.Due other)
    (written : Bool) :
    ((s.tcpwakeup request.side).place pid (.call request (.leaving written))).Manned := by
  have unqueued : ∀ side, pid ∉ (s.sema side).waiting := by
    apply sound.lined.unqueued
    intro other asks
    rw [looks] at asks
    cases asks
  have placed : (s.place pid (.call request (.leaving written))).Sound := by
    refine sound.rearranged ?_ (sound.lined.place ?_ (fun _ => owner) unqueued) ?_
    · rfl
    · rw [looks]
      exact Iff.rfl
    · exact place_calls rfl (stays_in_call looks)
  rw [tcpwakeup_place]
  refine ⟨(placed.wakeup request.side).1, ?_⟩
  intro side
  by_cases ours : side = request.side
  · rw [ours]
    exact (placed.wakeup request.side).2
  · apply Desk.Due.wakeup _ placed ours
    apply (due side ours).place
    rintro ⟨other, itsSide, ⟨asks, _⟩ | again⟩
    · rw [looks] at asks
      cases asks
    · rw [looks] at again
      cases again
      exact absurd itsSide.symm ours

/-- A process that finds too little tries again: there is nothing to do for its side. -/
theorem Desk.Manned.retreat (manned : s.Manned) (looks : s.stage pid = .call request .mutex)
    (owner : s.mutex.owner = some pid) (calm : ¬ s.conn.tcb.Urgent request.side) :
    (s.place pid (.call request .retrying)).Manned := by
  obtain ⟨sound, due⟩ := manned
  have unqueued : ∀ side, pid ∉ (s.sema side).waiting := by
    apply sound.lined.unqueued
    intro other asks
    rw [looks] at asks
    cases asks
  constructor
  · refine sound.rearranged ?_ (sound.lined.place ?_ (fun _ => owner) unqueued) ?_
    · rfl
    · rw [looks]
      exact Iff.rfl
    · exact place_calls rfl (stays_in_call looks)
  · intro side
    by_cases ours : side = request.side
    · rw [ours]
      exact fun _ urgent => absurd urgent calm
    · apply (due side).place
      rintro ⟨other, itsSide, ⟨asks, _⟩ | again⟩
      · rw [looks] at asks
        cases asks
      · rw [looks] at again
        cases again
        exact absurd itsSide.symm ours

end Steps

/-! ## Changes of the connection -/

section Changes

variable {s : Desk} {conn : Conn} {tcb after : Tcb} {side : Side}

theorem urgent_readers_of {count : Word} (duty : after.duty = { tcb.duty with sbcount := count })
    (urgent : after.Urgent .readers) : tcb.Urgent .readers := by
  have size : after.rbsize = tcb.rbsize := congrArg Duty.rbsize duty
  have filled : after.rbcount = tcb.rbcount := congrArg Duty.rbcount duty
  have done : after.flags.rdone = tcb.flags.rdone := congrArg Duty.rdone duty
  have error : after.error = tcb.error := congrArg Duty.error duty
  unfold Tcb.Urgent at urgent ⊢
  rw [size, filled, done, error] at urgent
  exact urgent

theorem urgent_writers_of {count : Word} {done : Bool}
    (duty : after.duty = { tcb.duty with rbcount := count, rdone := done })
    (urgent : after.Urgent .writers) : tcb.Urgent .writers := by
  have stored : after.sbcount = tcb.sbcount := congrArg Duty.sbcount duty
  have error : after.error = tcb.error := congrArg Duty.error duty
  unfold Tcb.Urgent at urgent ⊢
  rw [stored, error] at urgent
  exact urgent

theorem urgent_of_duty (duty : after.duty = tcb.duty) (urgent : after.Urgent side) :
    tcb.Urgent side := by
  cases side with
  | readers =>
      have same : after.duty = { tcb.duty with sbcount := tcb.sbcount } := duty
      exact urgent_readers_of same urgent
  | writers =>
      have same : after.duty = { tcb.duty with
        rbcount := tcb.rbcount
        rdone := tcb.flags.rdone } := duty
      exact urgent_writers_of same urgent

theorem Desk.Due.onConn (due : s.Due side)
    (isOpen : conn.tcb.state ≠ .closed → s.conn.tcb.state ≠ .closed)
    (urgent : conn.tcb.Urgent side → s.conn.tcb.Urgent side) : (s.onConn conn).Due side :=
  fun itsOpen itsUrgent => due (isOpen itsOpen) (urgent itsUrgent)

/-- The state may change, but not back to one before the opening. -/
theorem Desk.Sound.onConn_entering (sound : s.Sound) (taken : conn.tcb.state ≠ .free)
    (sbsize : conn.tcb.sbsize = s.conn.tcb.sbsize) (rbsize : conn.tcb.rbsize = s.conn.tcb.rbsize)
    (failed : conn.tcb.error.isSome = true →
      conn.tcb.state = .closed ∨ conn.tcb.flags.rdone = true ∧ conn.tcb.flags.sdone = true)
    (unopened : conn.tcb.state = .synsent ∨ conn.tcb.state = .closed →
      s.conn.tcb.state = .synsent ∨ s.conn.tcb.state = .closed) : (s.onConn conn).Sound :=
  ⟨sound.lined.onConn conn, taken, sbsize.trans sound.sbsize, rbsize.trans sound.rbsize,
    sound.fits, failed, fun early => sound.unopened (unopened early)⟩

/-- Only counts change, and the end of the stream may be recorded. -/
theorem Desk.Sound.onConn (sound : s.Sound)
    (duty : conn.tcb.duty = { s.conn.tcb.duty with
      sbcount := conn.tcb.sbcount
      rbcount := conn.tcb.rbcount
      rdone := conn.tcb.flags.rdone })
    (done : s.conn.tcb.flags.rdone = true → conn.tcb.flags.rdone = true) :
    (s.onConn conn).Sound := by
  have state : conn.tcb.state = s.conn.tcb.state := congrArg Duty.state duty
  have error : conn.tcb.error = s.conn.tcb.error := congrArg Duty.error duty
  have sdone : conn.tcb.flags.sdone = s.conn.tcb.flags.sdone := congrArg Duty.sdone duty
  refine sound.onConn_entering ?_ (congrArg Duty.sbsize duty) (congrArg Duty.rbsize duty) ?_ ?_
  · rw [state]
    exact sound.taken
  · rw [state, error, sdone]
    exact fun some => (sound.failed some).imp id fun both => ⟨done both.1, both.2⟩
  · rw [state]
    exact id

/-- The change does not concern the users. -/
theorem Desk.Manned.onConn (manned : s.Manned) (duty : conn.tcb.duty = s.conn.tcb.duty) :
    (s.onConn conn).Manned := by
  have state : conn.tcb.state = s.conn.tcb.state := congrArg Duty.state duty
  have stored : conn.tcb.sbcount = s.conn.tcb.sbcount := congrArg Duty.sbcount duty
  have filled : conn.tcb.rbcount = s.conn.tcb.rbcount := congrArg Duty.rbcount duty
  have done : conn.tcb.flags.rdone = s.conn.tcb.flags.rdone := congrArg Duty.rdone duty
  refine ⟨manned.1.onConn ?_ ?_, fun side => (manned.2 side).onConn ?_ (urgent_of_duty duty)⟩
  · rw [stored, filled, done]
    exact duty
  · rw [done]
    exact id
  · rw [state]
    exact id

/-! ## `tcpwr` and `tcpread` -/

variable {pid : Pid}

/-- A writer that has something to write finds the block. -/
theorem Desk.Manned.write (manned : s.Manned) {octets : List Octet} {isurg : Bool}
    (looks : s.stage pid = .call (.write octets isurg) .mutex)
    (owner : s.mutex.owner = some pid) (some : s.conn.tcb.error = none → octets ≠ []) :
    (s.write pid octets isurg).Manned := by
  obtain ⟨sound, due⟩ := manned
  have others : ∀ other, other ≠ Side.writers → s.Due other := fun other _ => due other
  unfold Desk.write
  dsimp only
  rw [if_neg sound.taken]
  split
  · exact sound.looked looks owner others false
  · next clean =>
      split
      · rw [if_neg (some (by simpa using clean))]
        have duty : (tcpstored s.conn.tcb octets isurg).duty = { s.conn.tcb.duty with
            sbcount := (tcpstored s.conn.tcb octets isurg).sbcount } := rfl
        have stored : (s.onConn { s.conn with tcb := tcpstored s.conn.tcb octets isurg }).Sound :=
          sound.onConn duty id
        refine stored.looked looks owner ?_ true
        intro other away
        cases other with
        | readers => exact (due .readers).onConn id (urgent_readers_of duty)
        | writers => exact absurd rfl away
      · next tooLittle =>
          apply Desk.Manned.retreat ⟨sound, due⟩ looks owner
          rintro (empty | failed)
          · -- an empty buffer has room for every request
            apply tooLittle
            have fits := sound.fits pid octets isurg .mutex looks
            have room : (s.conn.tcb.sbsize - s.conn.tcb.sbcount).toNat = tcpsbs := by
              rw [sound.sbsize, empty]
              decide
            rw [room]
            exact fits
          · exact clean failed

/-- A reader finds the block, and does not want more than a full buffer holds. -/
theorem Desk.Manned.read (manned : s.Manned) {len : Word}
    (looks : s.stage pid = .call (.read len) .mutex) (owner : s.mutex.owner = some pid)
    (filled : s.conn.tcb.error = none → s.conn.tcb.flags.rupok = false → s.umode pid = false →
      s.conn.tcb.unfilled len = true → ¬ s.conn.tcb.rbsize.toNat ≤ s.conn.tcb.rbcount.toNat) :
    (s.read pid len).Manned := by
  obtain ⟨sound, due⟩ := manned
  have others : ∀ other, other ≠ Side.readers → s.Due other := fun other _ => due other
  have moded : ∀ umode : Pid → Bool,
      ((({ s with umode := umode } : Desk).tcpwakeup .readers).place pid
        (.call (.read len) (.leaving false))).Manned := by
    intro umode
    have same : ({ s with umode := umode } : Desk).Sound :=
      ⟨⟨sound.lined.orderly, sound.lined.involved, sound.lined.holds, sound.lined.even,
        sound.lined.nodup, sound.lined.asking⟩, sound.taken, sound.sbsize, sound.rbsize,
        sound.fits, sound.failed, sound.unopened⟩
    exact same.looked looks owner others false
  have copied : (((s.onConn (tcpread s.conn len)).tcpwakeup .readers).place pid
      (.call (.read len) (.leaving false))).Manned := by
    have duty := tcpread_duty s.conn len
    have done : (tcpread s.conn len).tcb.flags.rdone = s.conn.tcb.flags.rdone :=
      congrArg Duty.rdone duty
    have stored : (tcpread s.conn len).tcb.sbcount = s.conn.tcb.sbcount :=
      congrArg Duty.sbcount duty
    have state : (tcpread s.conn len).tcb.state = s.conn.tcb.state := congrArg Duty.state duty
    have taken : (s.onConn (tcpread s.conn len)).Sound := by
      refine sound.onConn ?_ ?_
      · rw [done, stored]
        exact duty
      · rw [done]
        exact id
    refine taken.looked looks owner ?_ false
    intro other away
    cases other with
    | readers => exact absurd rfl away
    | writers =>
        have same : (tcpread s.conn len).tcb.duty = { s.conn.tcb.duty with
          rbcount := (tcpread s.conn len).tcb.rbcount
          rdone := s.conn.tcb.flags.rdone } := duty
        refine (due .writers).onConn ?_ (urgent_writers_of same)
        rw [state]
        exact id
  unfold Desk.read
  dsimp only
  rw [if_neg sound.taken]
  split
  · exact sound.looked looks owner others false
  · next clean =>
      split
      · split
        · exact copied
        · exact moded _
      · next normal =>
          split
          · exact moded _
          · next mode =>
              split
              · next unfilled =>
                  apply Desk.Manned.retreat ⟨sound, due⟩ looks owner
                  rintro (full | done | failed)
                  · exact filled (by simpa using clean) (by simpa using normal)
                      (by simpa using mode) unfilled full
                  · unfold Tcb.unfilled at unfilled
                    rw [done] at unfilled
                    simp at unfilled
                  · exact clean failed
              · exact copied

/-! ## The keepers -/

/-- The semaphores are deleted and nobody is left waiting, or the tokens are where they
should be. -/
def Desk.Tidy (s : Desk) : Prop := (s.gone ∧ ∀ side, (s.sema side).waiting = []) ∨ s.Manned

theorem tcbdealloc_tidy (s : Desk) : s.tcbdealloc.Tidy :=
  Or.inl ⟨tcbdealloc_state s.conn, fun _ => rfl⟩

theorem Desk.Manned.acked (manned : s.Manned) (segment : Segment) :
    (s.work (.acked segment)).Manned := by
  obtain ⟨sound, due⟩ := manned
  obtain ⟨duty, silent⟩ := tcpacked_duty s.conn segment
  have state : (tcpacked s.conn segment).2.tcb.state = s.conn.tcb.state := congrArg Duty.state duty
  have filled : (tcpacked s.conn segment).2.tcb.rbcount = s.conn.tcb.rbcount :=
    congrArg Duty.rbcount duty
  have done : (tcpacked s.conn segment).2.tcb.flags.rdone = s.conn.tcb.flags.rdone :=
    congrArg Duty.rdone duty
  have isOpen : (tcpacked s.conn segment).2.tcb.state ≠ .closed →
      s.conn.tcb.state ≠ .closed := by
    rw [state]
    exact id
  have taken : (s.onConn (tcpacked s.conn segment).2).Sound := by
    refine sound.onConn ?_ ?_
    · rw [filled, done]
      exact duty
    · rw [done]
      exact id
  have readers := (due .readers).onConn isOpen (urgent_readers_of duty)
  unfold Desk.work
  dsimp only
  split
  · refine ⟨(taken.offer .writers).1, ?_⟩
    intro side
    cases side with
    | readers => exact readers.offer taken (by decide)
    | writers => exact (taken.offer .writers).2
  · next nothing =>
      refine ⟨taken, ?_⟩
      intro side
      cases side with
      | readers => exact readers
      | writers =>
          have same : (tcpacked s.conn segment).2.tcb.duty = s.conn.tcb.duty := by
            rw [duty, silent (Bool.eq_false_iff.mpr nothing)]
            rfl
          exact (due .writers).onConn isOpen (urgent_of_duty same)

theorem Desk.Manned.deliver (manned : s.Manned) (inbound : Inbound) :
    (s.work (.deliver inbound)).Manned := by
  obtain ⟨sound, due⟩ := manned
  obtain ⟨ended, silent⟩ := tcpdata_duty s.conn.tcb inbound.segment inbound.newqOk
  have duty := duty_of_sending (tcpdata_sending s.conn.tcb inbound.segment inbound.newqOk)
  rw [← tcpdeliver_tcb s.conn inbound] at ended silent duty
  have state : (tcpdeliver s.conn inbound).tcb.state = s.conn.tcb.state := congrArg Duty.state duty
  have stored : (tcpdeliver s.conn inbound).tcb.sbcount = s.conn.tcb.sbcount :=
    congrArg Duty.sbcount duty
  have isOpen : (tcpdeliver s.conn inbound).tcb.state ≠ .closed →
      s.conn.tcb.state ≠ .closed := by
    rw [state]
    exact id
  have taken : (s.onConn (tcpdeliver s.conn inbound)).Sound := by
    refine sound.onConn ?_ ended
    rw [stored]
    exact duty
  have writers := (due .writers).onConn isOpen (urgent_writers_of duty)
  unfold Desk.work
  dsimp only
  split
  · refine ⟨(taken.wakeup .readers).1, ?_⟩
    intro side
    cases side with
    | readers => exact (taken.wakeup .readers).2
    | writers => exact writers.wakeup taken (by decide)
  · next nothing =>
      refine ⟨taken, ?_⟩
      intro side
      cases side with
      | readers =>
          have same := silent (Bool.eq_false_iff.mpr nothing)
          exact (due .readers).onConn isOpen (urgent_of_duty same)
      | writers => exact writers

theorem Desk.Manned.abort (manned : s.Manned) (error : TcpError) :
    (s.work (.abort error)).Manned := by
  obtain ⟨sound, due⟩ := manned
  have aborted : (s.onConn (tcpabort s.conn error)).Sound := by
    refine sound.onConn_entering ?_ rfl rfl (fun _ => Or.inr ⟨rfl, rfl⟩) id
    exact sound.taken
  have woken := (aborted.wakeup .readers).1
  refine ⟨(woken.wakeup .writers).1, ?_⟩
  intro side
  cases side with
  | readers => exact (aborted.wakeup .readers).2.wakeup woken (by decide)
  | writers => exact (woken.wakeup .writers).2

theorem Desk.Manned.close (manned : s.Manned) : (s.work .close).Manned := by
  unfold Desk.work
  dsimp only
  split
  · next found =>
      have isOpen : s.conn.tcb.state ≠ .closed := by
        rcases found with found | found
        all_goals
          rw [found]
          decide
      have later : (tcpclosedtcb s.conn.tcb).state = .finwait1 ∨
          (tcpclosedtcb s.conn.tcb).state = .lastack := by
        unfold tcpclosedtcb
        dsimp only
        split
        · exact Or.inl rfl
        · exact Or.inr rfl
      have others : ∀ state : TcpState, state ≠ .finwait1 → state ≠ .lastack →
          (tcpclosedtcb s.conn.tcb).state ≠ state := by
        intro state notWait notLast same
        rcases later with found | found
        · exact notWait (same.symm.trans found)
        · exact notLast (same.symm.trans found)
      have closed : (s.onConn { s.conn with tcb := tcpclosedtcb s.conn.tcb }).Manned := by
        constructor
        · refine manned.1.onConn_entering (others _ (by decide) (by decide)) rfl rfl ?_ ?_
          · intro failed
            exact Or.inr ((manned.1.failed failed).resolve_left isOpen)
          · rintro (impossible | impossible)
            · exact absurd impossible (others _ (by decide) (by decide))
            · exact absurd impossible (others _ (by decide) (by decide))
        · intro side
          refine (manned.2 side).onConn (fun _ => isOpen) ?_
          cases side with
          | readers => exact id
          | writers => exact id
      exact closed.onConn (tcpkick_duty _)
  · exact manned

theorem Desk.Manned.enter (manned : s.Manned) (state : TcpState) :
    (s.work (.enter state)).Manned := by
  unfold Desk.work
  dsimp only
  split
  · next entering =>
      obtain ⟨later, isOpen⟩ := entering
      constructor
      · refine manned.1.onConn_entering later.1 rfl rfl ?_ ?_
        · intro failed
          exact Or.inr ((manned.1.failed failed).resolve_left isOpen)
        · rintro (impossible | impossible)
          · exact absurd impossible later.2.2
          · exact absurd impossible later.2.1
      · intro side
        refine (manned.2 side).onConn (fun _ => isOpen) ?_
        cases side with
        | readers => exact id
        | writers => exact id
  · exact manned

theorem Desk.Manned.refuse (manned : s.Manned) : (s.work .refuse).Manned := by
  unfold Desk.work
  dsimp only
  split
  · next found =>
      constructor
      · refine manned.1.onConn_entering ?_ rfl rfl (fun _ => Or.inl rfl) (fun _ => Or.inl found)
        exact fun impossible => by cases impossible
      · exact fun side isOpen => absurd rfl isOpen
  · exact manned

theorem Desk.Manned.work (manned : s.Manned) (work : Work) : (s.work work).Tidy := by
  cases work with
  | acked segment => exact Or.inr (manned.acked segment)
  | deliver inbound => exact Or.inr (manned.deliver inbound)
  | window segment => exact Or.inr (manned.onConn (tcpswindow_duty s.conn segment))
  | send rexmt => exact Or.inr (manned.onConn (tcpsend_duty s.conn rexmt))
  | kick => exact Or.inr (manned.onConn (tcpkick_duty s.conn))
  | abort error => exact Or.inr (manned.abort error)
  | option set delack buffer => exact Or.inr (manned.onConn rfl)
  | close => exact Or.inr manned.close
  | refuse => exact Or.inr manned.refuse
  | enter state => exact Or.inr (manned.enter state)
  | dealloc => exact tcbdealloc_tidy s

end Changes

/-! ## Runs -/

section Runs

variable {s : Desk} {pid : Pid}

theorem Desk.Manned.call (manned : s.Manned) {request : Request} (isAway : s.stage pid = .away)
    (admitted : s.conn.tcb.admits request = true) :
    (s.place pid (.call request .calling)).Manned := by
  obtain ⟨sound, due⟩ := manned
  have isOpen : s.conn.tcb.state = .established ∨ s.conn.tcb.state = .closewait := by
    cases request with
    | read len => simpa [Tcb.admits] using admitted
    | write octets isurg =>
        unfold Tcb.admits at admitted
        rw [Bool.and_eq_true] at admitted
        simpa using admitted.1
  have unqueued : ∀ side, pid ∉ (s.sema side).waiting := by
    apply sound.lined.unqueued
    intro other asks
    rw [isAway] at asks
    cases asks
  constructor
  · refine ⟨sound.lined.place ?_ (fun impossible => absurd impossible id) unqueued, sound.taken,
      sound.sbsize, sound.rbsize, ?_, sound.failed, ?_⟩
    · rw [isAway]
      exact Iff.rfl
    · intro first octets isurg stage asks
      by_cases self : first = pid
      · rw [self, place_self] at asks
        cases asks
        unfold Tcb.admits at admitted
        rw [Bool.and_eq_true, sound.sbsize] at admitted
        exact of_decide_eq_true admitted.2
      · rw [place_other s _ self] at asks
        exact sound.fits first octets isurg stage asks
    · intro early
      change s.conn.tcb.state = _ ∨ s.conn.tcb.state = _ at early
      rcases isOpen with found | found
      all_goals
        rw [found] at early
        rcases early with impossible | impossible
        · cases impossible
        · cases impossible
  · intro side
    apply (due side).place
    intro transit
    refine absurd transit (no_transit ?_ side)
    intro other
    rw [isAway]
    constructor
    · intro same
      cases same
    · intro same
      cases same

theorem Desk.Manned.keep (manned : s.Manned) (isAway : s.stage pid = .away) :
    ((s.waitMutex pid).place pid .keeper).Manned := by
  obtain ⟨sound, due⟩ := manned
  have spec : s.waitMutex pid = { s with mutex := s.mutex.wait pid } := if_neg sound.taken
  have unqueued : ∀ side, pid ∉ (s.sema side).waiting := by
    apply sound.lined.unqueued
    intro other asks
    rw [isAway] at asks
    cases asks
  rw [spec]
  constructor
  · refine sound.rearranged ?_ (sound.lined.lock ?_ unqueued trivial id) ?_
    · rfl
    · rw [isAway]
      exact id
    · exact place_calls rfl (fun _ _ same => by cases same)
  · intro side isOpen urgent
    apply Desk.Served.place (due side isOpen urgent)
    intro transit
    refine absurd transit (no_transit ?_ side)
    intro other
    rw [isAway]
    constructor
    · intro same
      cases same
    · intro same
      cases same

theorem Desk.Manned.advance (manned : s.Manned) (fair : ¬ s.Starves pid) :
    (s.advance pid).Manned := by
  have taken := manned.1.taken
  unfold Desk.advance
  split
  · next request calls => exact manned.ask calls
  · next request asks =>
      split
      · exact manned
      · next released => exact manned.lock asks released
  · next request looks =>
      split
      · next ready =>
          have owner := ready.resolve_left taken
          cases request with
          | read len =>
              apply manned.read looks owner
              intro clean normal mode unfilled full
              apply fair
              refine ⟨owner, taken, clean, ?_⟩
              rw [looks]
              exact ⟨full, normal, mode, unfilled⟩
          | write octets isurg =>
              apply manned.write looks owner
              intro clean empty
              apply fair
              refine ⟨owner, taken, clean, ?_⟩
              rw [looks]
              exact empty
      · exact manned
  · next request written leaves =>
      have owner : s.mutex.owner = some pid := by
        apply manned.1.lined.holds
        rw [leaves]
        trivial
      have left : (s.signalMutex.place pid .away).Manned := by
        apply manned.unlock owner _ id id (fun _ _ same => by cases same)
        intro other looks
        rw [leaves] at looks
        cases looks
      cases request with
      | read len => exact left
      | write octets isurg =>
          change (Desk.place (if _ then _ else _) _ _).Manned
          split
          · exact left.onConn (tcpkick_duty _)
          · exact left
  · next request retries =>
      have owner : s.mutex.owner = some pid := by
        apply manned.1.lined.holds
        rw [retries]
        trivial
      apply manned.unlock owner _ id id (stays_in_call retries)
      intro other looks
      rw [retries] at looks
      cases looks
  · exact manned

/-- Nothing happens to a block that has been deallocated. -/
theorem gone_step (isGone : s.gone) (event : DeskEvent) :
    (deskStep s event).conn.tcb = s.conn.tcb ∧ (deskStep s event).sema = s.sema := by
  have waitSema : ∀ side pid, s.waitSema side pid = s := fun _ _ => if_pos isGone
  have waitMutex : ∀ pid, s.waitMutex pid = s := fun _ => if_pos isGone
  have signalMutex : s.signalMutex = s := if_pos isGone
  cases event with
  | call pid request =>
      rw [deskStep]
      split
      · exact ⟨rfl, rfl⟩
      · exact ⟨rfl, rfl⟩
  | advance pid =>
      rw [deskStep]
      unfold Desk.advance
      split
      · rw [waitSema]
        exact ⟨rfl, rfl⟩
      · rw [waitMutex]
        split
        · exact ⟨rfl, rfl⟩
        · exact ⟨rfl, rfl⟩
      · next request _ =>
          rw [if_pos (Or.inl isGone)]
          cases request with
          | read len =>
              change (s.read pid len).conn.tcb = _ ∧ (s.read pid len).sema = _
              unfold Desk.read
              dsimp only
              rw [if_pos isGone]
              exact ⟨rfl, rfl⟩
          | write octets isurg =>
              change (s.write pid octets isurg).conn.tcb = _ ∧ (s.write pid octets isurg).sema = _
              unfold Desk.write
              dsimp only
              rw [if_pos isGone]
              exact ⟨rfl, rfl⟩
      · next request written _ =>
          rw [signalMutex]
          cases request with
          | read len => exact ⟨rfl, rfl⟩
          | write octets isurg =>
              unfold Desk.kick
              dsimp only
              split
              · exact ⟨tcpkick_tcb s.conn, rfl⟩
              · exact ⟨rfl, rfl⟩
      · rw [signalMutex]
        exact ⟨rfl, rfl⟩
      · exact ⟨rfl, rfl⟩
  | keep pid =>
      rw [deskStep, if_neg (fun both => both.2 isGone)]
      exact ⟨rfl, rfl⟩
  | work pid work =>
      rw [deskStep, if_neg (fun all => all.2.2 isGone)]
      exact ⟨rfl, rfl⟩
  | leave pid =>
      rw [deskStep, signalMutex]
      split
      · exact ⟨rfl, rfl⟩
      · exact ⟨rfl, rfl⟩
  | dealloc =>
      rw [deskStep, if_pos isGone]
      exact ⟨rfl, rfl⟩

theorem Desk.Tidy.step (tidy : s.Tidy) (event : DeskEvent) (apt : Apt s event) :
    (deskStep s event).Tidy := by
  rcases tidy with ⟨isGone, nobody⟩ | manned
  · obtain ⟨tcb, sema⟩ := gone_step isGone event
    left
    unfold Desk.gone
    rw [tcb, sema]
    exact ⟨isGone, nobody⟩
  · cases event with
    | call pid request =>
        rw [deskStep]
        split
        · next calls => exact Or.inr (manned.call calls.1 calls.2)
        · exact Or.inr manned
    | advance pid => exact Or.inr (manned.advance apt)
    | keep pid =>
        rw [deskStep]
        split
        · next keeps => exact Or.inr (manned.keep keeps.1)
        · exact Or.inr manned
    | work pid work =>
        rw [deskStep]
        split
        · exact manned.work work
        · exact Or.inr manned
    | leave pid =>
        rw [deskStep]
        split
        · next leaves =>
            have owner := leaves.2.resolve_left manned.1.taken
            right
            apply manned.unlock owner _ id id (fun _ _ same => by cases same)
            intro request looks
            rw [leaves.1] at looks
            cases looks
        · exact Or.inr manned
    | dealloc =>
        rw [deskStep]
        split
        · exact Or.inr manned
        · exact tcbdealloc_tidy s

theorem Desk.Tidy.start {conn : Conn} (allotted : Allotted conn) (opener : Pid)
    (umode : Pid → Bool) : (Desk.start conn opener umode).Tidy := by
  have fresh : conn.tcb.sbsize = BitVec.ofNat 32 tcpsbs ∧
      conn.tcb.rbsize = BitVec.ofNat 32 tcprbs ∧ conn.tcb.error = none ∧
      conn.tcb.rbcount = 0 ∧ conn.tcb.flags.rdone = false ∧
      conn.tcb.state ≠ .free := by
    cases allotted with
    | active => exact ⟨rfl, rfl, rfl, rfl, rfl, fun impossible => by cases impossible⟩
    | passive => exact ⟨rfl, rfl, rfl, rfl, rfl, fun impossible => by cases impossible⟩
  obtain ⟨sbsize, rbsize, clean, empty, running, taken⟩ := fresh
  have stages : ∀ pid, (Desk.start conn opener umode).stage pid = .keeper ∧ pid = opener ∨
      (Desk.start conn opener umode).stage pid = .away ∧ pid ≠ opener := by
    intro pid
    have spec : (Desk.start conn opener umode).stage =
        Function.update (fun _ => Stage.away) opener .keeper := rfl
    rw [spec]
    by_cases self : pid = opener
    · rw [self, Function.update_self]
      exact Or.inl ⟨rfl, rfl⟩
    · rw [Function.update_of_ne self]
      exact Or.inr ⟨rfl, self⟩
  have nocall : ∀ pid request stage,
      (Desk.start conn opener umode).stage pid ≠ .call request stage := by
    intro pid request stage calls
    rcases stages pid with ⟨keeps, _⟩ | ⟨isAway, _⟩
    · rw [keeps] at calls
      cases calls
    · rw [isAway] at calls
      cases calls
  right
  constructor
  · refine ⟨⟨?_, ?_, ?_, ?_, ?_, ?_⟩, taken, sbsize, rbsize, ?_, ?_, fun _ => nocall⟩
    · exact ⟨List.nodup_singleton opener, fun free => by cases free⟩
    · intro pid
      rw [involves_iff]
      change pid ∈ [opener] ↔ _
      rw [List.mem_singleton]
      rcases stages pid with ⟨keeps, self⟩ | ⟨isAway, other⟩
      · rw [keeps]
        exact ⟨fun _ => trivial, fun _ => self⟩
      · rw [isAway]
        exact ⟨fun self => absurd self other, fun impossible => absurd impossible id⟩
    · intro pid isHolder
      rcases stages pid with ⟨keeps, _⟩ | ⟨isAway, _⟩
      · rw [keeps] at isHolder
        exact absurd isHolder id
      · rw [isAway] at isHolder
        exact absurd isHolder id
    · intro side
      cases side with
      | readers => exact (by decide : ((0 : Nat) : Int) = max (-0) 0)
      | writers => exact (by decide : ((0 : Nat) : Int) = max (-1) 0)
    · intro side
      cases side with
      | readers => exact List.nodup_nil
      | writers => exact List.nodup_nil
    · intro side pid member
      cases side with
      | readers => cases member
      | writers => cases member
    · exact fun pid octets isurg stage calls => absurd calls (nocall pid _ stage)
    · intro failed
      change conn.tcb.error.isSome = true at failed
      rw [clean] at failed
      cases failed
  · intro side _ urgent
    cases side with
    | writers => exact Or.inl Int.one_pos
    | readers =>
        change conn.tcb.rbsize.toNat ≤ conn.tcb.rbcount.toNat ∨ conn.tcb.flags.rdone = true ∨
          conn.tcb.error.isSome = true at urgent
        rw [rbsize, empty, running, clean] at urgent
        exact absurd urgent (by decide)

/-- In a quiet state nobody is on the way to the mutex. -/
theorem Desk.Lined.quiet_transit (lined : s.Lined) (quiet : s.Quiet) (side : Side) :
    ¬ s.Transit side pid := by
  rintro ⟨request, itsSide, ⟨asks, released⟩ | looks⟩
  · have blocked := quiet pid (by rw [asks]; exact fun same => by cases same)
    unfold Desk.Blocked at blocked
    rw [asks] at blocked
    dsimp only at blocked
    rw [itsSide] at blocked
    exact released blocked
  · have blocked := quiet pid (by rw [looks]; exact fun same => by cases same)
    unfold Desk.Blocked at blocked
    rw [looks] at blocked
    -- somebody has the mutex, and is not blocked
    cases held : s.mutex.owner with
    | none =>
        rw [lined.orderly.2 held] at blocked
        cases blocked
    | some owner =>
        have stands : (s.stage owner).AtMutex := (lined.involved owner).mp (Or.inl held)
        have itsBlocked := quiet owner (by
          intro isAway
          rw [isAway] at stands
          exact stands)
        have apart : owner ∉ s.mutex.waiting := by
          intro member
          have nodup := lined.orderly.1
          rw [held] at nodup
          exact (List.nodup_append.mp nodup).2.2 owner (by simp) owner member rfl
        unfold Desk.Blocked at itsBlocked
        split at itsBlocked
        · next found =>
            rw [found] at stands
            exact stands
        · exact apart itsBlocked
        · exact apart itsBlocked
        · exact itsBlocked

theorem Desk.Tidy.progresses (tidy : s.Tidy) : s.Released ∧ s.Progresses := by
  rcases tidy with ⟨isGone, nobody⟩ | ⟨sound, due⟩
  · refine ⟨fun _ _ => Or.inl isGone, ?_⟩
    intro _ side pid member
    rw [nobody side] at member
    cases member
  · constructor
    · intro pid isAway
      right
      intro owner
      have stands := (sound.lined.involved pid).mp (Or.inl owner)
      rw [isAway] at stands
      exact stands
    · intro quiet side pid member urgent
      obtain ⟨request, _, asks⟩ := sound.lined.asking side pid member
      have isOpen : s.conn.tcb.state ≠ .closed := by
        intro closed
        exact sound.unopened (Or.inr closed) pid request .token asks
      rcases due side isOpen urgent with some | ⟨other, transit⟩
      · rw [waiting_nil (sound.lined.even side) (Int.le_of_lt some)] at member
        cases member
      · exact sound.lined.quiet_transit quiet side transit

end Runs

def DeskEvent.Names (pid : Pid) : DeskEvent → Prop
  | .call other _ => other = pid
  | .advance other => other = pid
  | .keep other => other = pid
  | .work other _ => other = pid
  | .leave other => other = pid
  | .dealloc => False

instance (pid : Pid) : (event : DeskEvent) → Decidable (event.Names pid)
  | .call other _ => inferInstanceAs (Decidable (other = pid))
  | .advance other => inferInstanceAs (Decidable (other = pid))
  | .keep other => inferInstanceAs (Decidable (other = pid))
  | .work other _ => inferInstanceAs (Decidable (other = pid))
  | .leave other => inferInstanceAs (Decidable (other = pid))
  | .dealloc => .isFalse id

section Untouched

variable (s : Desk) {pid : Pid}

theorem tcpwakeup_stage (side : Side) : (s.tcpwakeup side).stage = s.stage := by
  unfold Desk.tcpwakeup
  split
  · exact signalSema_stage s side
  · rfl

theorem offer_stage (side : Side) : (s.offer side).stage = s.stage := by
  unfold Desk.offer
  split
  · exact signalSema_stage s side
  · rfl

theorem work_stage (work : Work) : (s.work work).stage = s.stage := by
  cases work with
  | acked segment =>
      unfold Desk.work
      dsimp only
      split
      · exact offer_stage _ .writers
      · rfl
  | deliver inbound =>
      unfold Desk.work
      dsimp only
      split
      · exact tcpwakeup_stage _ .readers
      · rfl
  | abort error => exact (tcpwakeup_stage _ .writers).trans (tcpwakeup_stage _ .readers)
  | close =>
      unfold Desk.work
      dsimp only
      split <;> rfl
  | refuse =>
      unfold Desk.work
      dsimp only
      split <;> rfl
  | enter state =>
      unfold Desk.work
      dsimp only
      split <;> rfl
  | _ => rfl

theorem write_stage {other : Pid} (away : pid ≠ other) (octets : List Octet) (isurg : Bool) :
    (s.write other octets isurg).stage pid = s.stage pid := by
  unfold Desk.write
  dsimp only
  split_ifs
  · exact place_other s _ away
  · rw [place_other _ _ away, tcpwakeup_stage]
  · exact place_other s _ away
  · rw [place_other _ _ away, tcpwakeup_stage]
  · exact place_other s _ away

theorem read_stage {other : Pid} (away : pid ≠ other) (len : Word) :
    (s.read other len).stage pid = s.stage pid := by
  unfold Desk.read
  dsimp only
  split_ifs
  · exact place_other s _ away
  · rw [place_other _ _ away, tcpwakeup_stage]
  · rw [place_other _ _ away, tcpwakeup_stage]
  · rw [place_other _ _ away, tcpwakeup_stage]
  · rw [place_other _ _ away, tcpwakeup_stage]
  · exact place_other s _ away
  · rw [place_other _ _ away, tcpwakeup_stage]

theorem waitMutex_stage (other : Pid) : (s.waitMutex other).stage = s.stage := by
  unfold Desk.waitMutex
  split <;> rfl

theorem signalMutex_stage : s.signalMutex.stage = s.stage := by
  unfold Desk.signalMutex
  split <;> rfl

/-- An event changes the stage of its own process only. -/
theorem unnamed_stage (event : DeskEvent) (unnamed : ¬ event.Names pid) :
    (deskStep s event).stage pid = s.stage pid := by
  cases event with
  | call other request =>
      have away : pid ≠ other := fun same => unnamed same.symm
      rw [deskStep]
      split
      · exact place_other s _ away
      · rfl
  | advance other =>
      have away : pid ≠ other := fun same => unnamed same.symm
      rw [deskStep]
      unfold Desk.advance
      split
      · next request _ =>
          rw [place_other _ _ away]
          unfold Desk.waitSema
          split <;> rfl
      · split
        · rfl
        · rw [place_other _ _ away, waitMutex_stage]
      · next request _ =>
          split
          · cases request with
            | read len => exact read_stage s away len
            | write octets isurg => exact write_stage s away octets isurg
          · rfl
      · next request written _ =>
          rw [place_other _ _ away]
          cases request with
          | read len => exact congrFun (signalMutex_stage s) pid
          | write octets isurg =>
              unfold Desk.kick
              dsimp only
              split
              · exact congrFun (signalMutex_stage s) pid
              · exact congrFun (signalMutex_stage s) pid
      · rw [place_other _ _ away, signalMutex_stage]
      · rfl
  | keep other =>
      have away : pid ≠ other := fun same => unnamed same.symm
      rw [deskStep]
      split
      · rw [place_other _ _ away, waitMutex_stage]
      · rfl
  | work other work =>
      rw [deskStep]
      split
      · exact congrFun (work_stage s work) pid
      · rfl
  | leave other =>
      have away : pid ≠ other := fun same => unnamed same.symm
      rw [deskStep]
      split
      · rw [place_other _ _ away, signalMutex_stage]
      · rfl
  | dealloc =>
      rw [deskStep]
      split <;> rfl

theorem unnamed_run (events : List DeskEvent) (unnamed : ∀ event ∈ events, ¬ event.Names pid) :
    (events.foldl deskStep s).stage pid = s.stage pid := by
  induction events generalizing s with
  | nil => rfl
  | cons event rest ih =>
      rw [List.foldl_cons, ih _ fun later member => unnamed later (List.mem_cons_of_mem _ member)]
      exact unnamed_stage s event (unnamed event List.mem_cons_self)

end Untouched

/-- A server's block for a SYN with sequence number `seq`. -/
def synListener (seq : Tcpseq) : Conn :=
  { tcb := tcplisten 100 512 0 { seq := seq, code := { syn := true }, window := 100 }
    tcbnum := 3 }

theorem syn_allotted (seq : Tcpseq) : Allotted (synListener seq) :=
  Allotted.passive 100 512 0 { seq := seq, code := { syn := true }, window := 100 } 3 [] [] 0

def synDesk (seq : Tcpseq) : Desk := Desk.start (synListener seq) 0 fun _ => false

/-- The connection is opened and process 1 writes. -/
def writerRun (octets : List Octet) : List DeskEvent :=
  [.work 0 (.enter .established), .leave 0, .call 1 (.write octets false), .advance 1, .advance 1,
    .advance 1, .advance 1]

/-- Process 1 asks for 8193 octets in full buffers, and the peer fills the buffer. -/
def greedyRun : List DeskEvent :=
  [.work 0 (.enter .established), .work 0 (.option true false true),
    .work 0 (.deliver { segment := { seq := 0x90000000, code := { syn := true } } }), .leave 0,
    .call 1 (.read 8193), .advance 1, .keep 0,
    .work 0 (.deliver { segment := {
      seq := 0x90000001
      code := { ack := true }
      tcpData := List.replicate 8192 7 } }),
    .leave 0, .advance 1, .advance 1, .advance 1, .advance 1]

@[irreducible]
def greedyDesk : Desk := greedyRun.foldl deskStep (synDesk 0x90000000)

theorem greedy_waits : 1 ∈ (greedyDesk.sema .readers).waiting := by decide +kernel

theorem greedy_reached : Runs.Reach deskStep (fun _ _ => True) (synDesk 0x90000000) greedyDesk := by
  unfold greedyDesk
  apply Runs.reach_of_permitted greedyRun Runs.Reach.start
  exact ⟨trivial, trivial, trivial, trivial, trivial, trivial, trivial, trivial, trivial, trivial,
    trivial, trivial, trivial, trivial⟩

theorem greedy_quiet : greedyDesk.Quiet := by
  intro (pid : Nat) stands
  have asks : greedyDesk.stage 1 = .call (.read 8193) .token := by decide +kernel
  have others : greedyDesk.stage 0 = .away := by decide +kernel
  rcases Nat.lt_or_ge pid 2 with known | other
  · have first : pid = 0 ∨ pid = 1 := by omega
    rcases first with rfl | rfl
    · exact absurd others stands
    · unfold Desk.Blocked
      rw [asks]
      exact greedy_waits
  · -- the run is about processes 0 and 1 only
    have unnamed : ∀ event ∈ greedyRun, ¬ event.Names pid := by
      have mentioned : ∀ event ∈ greedyRun, event.Names 0 ∨ event.Names 1 := by decide +kernel
      intro event member names
      have same : ∀ first : Nat, event.Names first → first = pid := by
        intro first named
        cases event with
        | dealloc => exact absurd named id
        | _ => exact named.symm.trans names
      rcases mentioned event member with named | named
      · exact absurd (same 0 named) (by omega)
      · exact absurd (same 1 named) (by omega)
    unfold greedyDesk at stands
    rw [unnamed_run _ _ unnamed] at stands
    have apart : pid ≠ 0 := by omega
    have isAway : (synDesk 0x90000000).stage pid = .away :=
      place_other ({ synDesk 0x90000000 with stage := fun _ => .away }) .keeper apart
    exact absurd isAway stands

end MvsXinu.Tcp
