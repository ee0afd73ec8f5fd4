import MvsXinu.Tcp.SendSide

/-!
# Leaving SYN_RCVD

`tcpsynrcvd` goes on to ESTABLISHED whenever `tcpacked` does not return `SYSERR`, and that
it returns only for a segment without the ACK bit. `Early` says what holds before: the SYN
is not acknowledged and nothing else is sent. An acknowledgement that is old or too new
therefore opens the connection as well as a good one.
-/

namespace MvsXinu.Tcp

open MvsXinu.SeqSpace

set_option autoImplicit false

/-- In SYN_SENT and SYN_RCVD the SYN is outstanding and no FIN is. -/
def Early (core : Core) : Prop :=
  core.state = .synsent ∨ core.state = .synrcvd →
    core.code.syn = true ∧ core.suna = core.iss ∧ core.sndfin = false ∧ core.code.fin = false

/-- The fields `Early` is about. -/
structure Core.Same (core after : Core) : Prop where
  syn : after.code.syn = core.code.syn
  fin : core.sndfin = false → after.code.fin = core.code.fin
  suna : after.suna = core.suna
  iss : after.iss = core.iss
  sndfin : after.sndfin = core.sndfin

theorem same_refl (core : Core) : core.Same core := ⟨rfl, fun _ => rfl, rfl, rfl, rfl⟩

theorem same_trans {core middle after : Core} (first : core.Same middle)
    (second : middle.Same after) : core.Same after where
  syn := second.syn.trans first.syn
  fin := fun clear => (second.fin (first.sndfin.trans clear)).trans (first.fin clear)
  suna := second.suna.trans first.suna
  iss := second.iss.trans first.iss
  sndfin := second.sndfin.trans first.sndfin

theorem early_of_same {core after : Core} (early : Early core) (same : core.Same after)
    (state : after.state = .synsent ∨ after.state = .synrcvd →
      core.state = .synsent ∨ core.state = .synrcvd) : Early after := by
  intro found
  obtain ⟨syn, suna, sndfin, fin⟩ := early (state found)
  refine ⟨same.syn.trans syn, ?_, same.sndfin.trans sndfin, (same.fin sndfin).trans fin⟩
  rw [same.suna, same.iss, suna]

theorem sent_same (tcb : Tcb) (rexmt : Bool) : tcb.core.Same (tcpsent tcb rexmt).core := by
  rw [tcpsent_core]
  refine ⟨sendcode_syn tcb _ _, ?_, rfl, rfl, rfl⟩
  intro clear
  have sndfin : tcb.flags.sndfin = false := clear
  simp [tcpsendcode, sndfin, Tcb.core]

/-- The output process keeps the state or frees the block. -/
theorem emits_same {main after : Main} (emits : Emits main after) :
    main.core.Same after.core ∧
      (after.core.state = main.core.state ∨ after.core.state = .free) := by
  induction emits with
  | refl => exact ⟨same_refl _, Or.inl rfl⟩
  | tail _ emit ih =>
      obtain ⟨same, state⟩ := ih
      cases emit with
      | freed => exact ⟨⟨same.syn, same.fin, same.suna, same.iss, same.sndfin⟩, Or.inr rfl⟩
      | sent tcb found rexmt =>
          rw [← found] at same state
          refine ⟨same_trans same (sent_same tcb rexmt), ?_⟩
          rw [tcpsent_core]
          exact state

/-- No step leads back into the handshake. -/
theorem chain_late {main after : Main} (chain : Chain main after)
    (late : main.core.state ≠ .synsent ∧ main.core.state ≠ .synrcvd) :
    after.core.state ≠ .synsent ∧ after.core.state ≠ .synrcvd := by
  induction chain with
  | refl => exact late
  | tail _ step ih =>
      cases step with
      | sent tcb found rexmt =>
          rw [← found] at ih
          rw [tcpsent_core]
          exact ih
      | looked tcb found segment flag => exact ih
      | accepted tcb found segment logged new known =>
          rw [← found] at ih
          exact ih
      | wrote tcb found octets isurg nonempty space =>
          rw [← found] at ih
          exact ih
      | closed tcb found opened =>
          change (tcpclosedtcb tcb).state ≠ _ ∧ (tcpclosedtcb tcb).state ≠ _
          unfold tcpclosedtcb
          simp only
          split <;> simp
      | entered state enters =>
          constructor
          · rintro rfl
            exact enters
          · rintro rfl
            exact ih.1 enters.1

/-- `tcpacked` with the SYN still outstanding afterwards has changed nothing. -/
theorem tcpacked_unopened (conn : Conn) (segment : Segment)
    (syn : (tcpacked conn segment).2.tcb.code.syn = true) :
    (tcpacked conn segment).2.main.core = conn.main.core := by
  cases flag : segment.code.ack with
  | false => rw [tcpacked_without_flag conn segment flag]
  | true =>
      rcases tcpacked_with_flag conn segment flag with
        ⟨_, _, main⟩ | ⟨_, _, _, main⟩ | ⟨_, _, _, main⟩
      · rw [main]
        rfl
      · rw [main]
        rfl
      · have cleared : (tcpacked conn segment).2.tcb.code.syn = false :=
          congrArg (fun main => main.core.code.syn) main
        exact absurd (syn.symm.trans cleared) (by decide)

theorem tcpsynsent_early (conn : Conn) (inbound : Inbound) (early : Early conn.main.core)
    (state : conn.tcb.state = .synsent) : Early (tcpsynsent conn inbound).main.core := by
  unfold tcpsynsent
  simp only
  split_ifs with refused rst noSyn syn
  · rw [tcpreset_main]
    exact early
  · rintro (found | found) <;> cases found
  · exact early
  · generalize opened : ({ conn with tcb := { conn.tcb with
      swindow := inbound.segment.window.setWidth 32
      lwseq := inbound.segment.seq
      rnext := inbound.segment.seq
      cwin := inbound.segment.seq + conn.tcb.rbsize } } : Conn) = start at *
    have same : start.main = conn.main := by
      rw [← opened]
      rfl
    have delivered := tcpdeliver_main (tcpacked start inbound.segment).2 inbound
    rw [main_code delivered] at syn
    have core := tcpacked_unopened start inbound.segment syn
    rw [← delivered, same] at core
    intro _
    have before := early (Or.inl state)
    rw [← core] at before
    exact before
  · rintro (found | found) <;> cases found

/-- `SYSERR` means no ACK bit: the other returned values are not negative. -/
theorem tcpacked_refused (conn : Conn) (segment : Segment) (syn : conn.tcb.code.syn = true)
    (fin : conn.tcb.code.fin = false) :
    (tcpacked conn segment).1 = sysErr ↔ segment.code.ack = false := by
  constructor
  · intro refused
    apply eq_false_of_ne_true
    intro flag
    rcases tcpacked_with_flag conn segment flag with
      ⟨_, zero, _⟩ | ⟨_, _, one, _⟩ | ⟨new, _, len, _⟩
    · rw [zero] at refused
      exact absurd refused (by decide)
    · rw [one] at refused
      exact absurd refused (by decide)
    · rw [len] at refused
      simp only [tcpackedlen, tcpackedsyn, tcpackedfin, syn, fin, sysErr] at refused
      simp at refused
      omega
  · intro flag
    rw [tcpacked_without_flag conn segment flag]

theorem tcbdealloc_state (conn : Conn) : (tcbdealloc conn).tcb.state = .free := by
  unfold tcbdealloc
  split
  · assumption
  · rfl

theorem tcpsynopened_state (conn : Conn) (inbound : Inbound) :
    (tcpsynopened conn inbound).tcb.state = .established ∨
      (tcpsynopened conn inbound).tcb.state = .closewait := by
  have delivered := main_state (tcpdeliver_main (conn.enter .established) inbound)
  unfold tcpsynopened
  simp only
  split
  · exact Or.inr rfl
  · exact Or.inl delivered

section Passive

variable (conn : Conn)

theorem tcpkick_tcb : (tcpkick conn).tcb = conn.tcb := by
  unfold tcpkick
  split <;> rfl

theorem tcpreset_tcb (segment : Segment) : (tcpreset conn segment).tcb = conn.tcb := by
  unfold tcpreset
  split <;> rfl

theorem tcpackit_passive (segment : Segment) :
    (tcpackit conn segment).tcb.passive = conn.tcb.passive := by
  unfold tcpackit
  split
  · rfl
  · split
    · rfl
    · have same := congrArg Tcb.passive (tcprwindow_sending conn.tcb)
      exact same

theorem tcprtt_passive : (tcprtt conn).tcb.passive = conn.tcb.passive := by
  unfold tcprtt
  simp only
  split
  · rfl
  · split <;> rfl

theorem tcpostate_passive (acked : Int) :
    (tcpostate conn acked).tcb.passive = conn.tcb.passive := by
  unfold tcpostate
  simp only
  split_ifs <;> simp only [tcpkick_tcb]

theorem tcpacked_passive (segment : Segment) :
    (tcpacked conn segment).2.tcb.passive = conn.tcb.passive := by
  unfold tcpacked
  simp only
  split
  · rfl
  · split
    · rfl
    · split
      · simp only
        split
        · rw [tcpreset_tcb]
        · exact tcpackit_passive _ segment
      · rw [tcpostate_passive]
        exact tcprtt_passive _

end Passive

/-- The segments that `tcpsynrcvd` takes for an answer to the SYN. -/
def Answers (passive : Bool) (inbound : Inbound) : Prop :=
  inbound.segment.code.rst = false ∧ inbound.segment.code.syn = false ∧
    inbound.segment.code.ack = true ∧ (passive = true → inbound.parent = .accepts)

section SynRcvd

variable (conn : Conn) (inbound : Inbound)
  (syn : conn.tcb.code.syn = true) (fin : conn.tcb.code.fin = false)

include syn fin

theorem tcpsynrcvd_answered (answers : Answers conn.tcb.passive inbound) :
    tcpsynrcvd conn inbound = tcpsynopened (tcpacked conn inbound.segment).2 inbound := by
  obtain ⟨rst, noSyn, flag, accepts⟩ := answers
  have taken : (tcpacked conn inbound.segment).1 ≠ sysErr := by
    intro refused
    exact absurd (flag.symm.trans ((tcpacked_refused conn _ syn fin).mp refused)) (by decide)
  have room : ¬ ((tcpacked conn inbound.segment).2.tcb.passive = true ∧
      inbound.parent ≠ .accepts) := by
    rw [tcpacked_passive]
    rintro ⟨passive, full⟩
    exact full (accepts passive)
  unfold tcpsynrcvd
  simp only [rst, noSyn, Bool.false_eq_true, if_false, if_neg taken, if_neg room]

theorem tcpsynrcvd_unanswered (other : ¬ Answers conn.tcb.passive inbound) :
    (tcpsynrcvd conn inbound).main = conn.main ∨ (tcpsynrcvd conn inbound).tcb.state = .free := by
  unfold tcpsynrcvd
  simp only
  split_ifs with rst passive noSyn refused turned
  · exact Or.inr (tcbdealloc_state conn)
  · exact Or.inl rfl
  · left
    rw [tcpabort_main, tcpreset_main]
  · rw [tcpacked_without_flag conn _ ((tcpacked_refused conn _ syn fin).mp refused)]
    exact Or.inl rfl
  · exact Or.inr (tcbdealloc_state _)
  · exfalso
    apply other
    refine ⟨eq_false_of_ne_true rst, eq_false_of_ne_true noSyn, ?_, ?_⟩
    · by_contra clear
      exact refused ((tcpacked_refused conn _ syn fin).mpr (eq_false_of_ne_true clear))
    · intro passive
      rw [tcpacked_passive] at turned
      by_contra full
      exact turned ⟨passive, full⟩

end SynRcvd

theorem tcpsynrcvd_early (conn : Conn) (inbound : Inbound) (early : Early conn.main.core)
    (state : conn.tcb.state = .synrcvd) : Early (tcpsynrcvd conn inbound).main.core := by
  obtain ⟨syn, _, _, fin⟩ := early (Or.inr state)
  by_cases answers : Answers conn.tcb.passive inbound
  · rw [tcpsynrcvd_answered conn inbound syn fin answers]
    rintro (found | found)
    · rcases tcpsynopened_state (tcpacked conn inbound.segment).2 inbound with other | other <;>
        exact absurd (found.symm.trans other) (by decide)
    · rcases tcpsynopened_state (tcpacked conn inbound.segment).2 inbound with other | other <;>
        exact absurd (found.symm.trans other) (by decide)
  · rcases tcpsynrcvd_unanswered conn inbound syn fin answers with same | freed
    · rw [same]
      exact early
    · rintro (found | found) <;> exact absurd (found.symm.trans freed) (by decide)

theorem early_of_late {core : Core} (late : core.state ≠ .synsent ∧ core.state ≠ .synrcvd) :
    Early core := by
  rintro (found | found)
  · exact absurd found late.1
  · exact absurd found late.2

theorem segment_early (conn : Conn) (inbound : Inbound) (early : Early conn.main.core) :
    Early (connStep conn (.segment inbound)).main.core := by
  by_cases late : conn.tcb.state ≠ .synsent ∧ conn.tcb.state ≠ .synrcvd
  · exact early_of_late (chain_late (step_chain conn (.segment inbound)) late)
  · have state : conn.tcb.state = .synsent ∨ conn.tcb.state = .synrcvd := by tauto
    have alive : conn.tcb.state ≠ .free := by
      rcases state with state | state <;> simp [state]
    rcases segment_cases conn inbound alive with same | ⟨read, core, _, _, after⟩
    · rw [same]
      exact early
    · have found : read.1.state = conn.tcb.state := congrArg Core.state core
      have before : Early ({ conn with tcb := read.1 } : Conn).main.core := by
        change Early read.1.core
        rw [core]
        exact early
      rw [after]
      unfold tcpswitch
      simp only [found]
      rcases state with state | state
      · simp only [state]
        exact tcpsynsent_early _ _ before (found.trans state)
      · simp only [state]
        exact tcpsynrcvd_early _ _ before (found.trans state)

theorem tcpgetspace_same (conn : Conn) (index : Nat) :
    conn.main.core.Same (tcpgetspace conn index).main.core ∧
      (tcpgetspace conn index).tcb.state = conn.tcb.state := by
  have same : conn.main.core.Same conn.main.core := same_refl _
  unfold tcpgetspace
  split
  · exact ⟨same, rfl⟩
  · simp only
    split_ifs
    · exact ⟨same, rfl⟩
    · unfold tcpwr
      simp only
      split_ifs
      · exact ⟨same, rfl⟩
      · rw [tcpkick_main, tcpkick_tcb]
        exact ⟨⟨rfl, fun _ => rfl, rfl, rfl, rfl⟩, rfl⟩
      · exact ⟨⟨rfl, fun _ => rfl, rfl, rfl, rfl⟩, rfl⟩
    · exact ⟨same, rfl⟩

/-- Before the connection is open only a segment does more than send or free. -/
theorem quiet_same (conn : Conn) (event : Event) (noSegment : ∀ inbound, event ≠ .segment inbound)
    (state : conn.tcb.state = .synsent ∨ conn.tcb.state = .synrcvd) :
    conn.main.core.Same (connStep conn event).main.core ∧
      ((connStep conn event).tcb.state = conn.tcb.state ∨
        (connStep conn event).tcb.state = .free) := by
  have unchanged : ∀ after : Conn, after.main = conn.main →
      conn.main.core.Same after.main.core ∧
        (after.tcb.state = conn.tcb.state ∨ after.tcb.state = .free) := by
    intro after same
    refine ⟨?_, Or.inl (main_state same)⟩
    rw [same]
    exact same_refl _
  cases event with
  | segment inbound => exact absurd rfl (noSegment inbound)
  | output fuel =>
      rw [connStep]
      cases ended : tcpout fuel conn with
      | none => exact unchanged conn rfl
      | some after => exact emits_same (tcpout_emits conn fuel after ended)
  | tick delta => exact unchanged _ rfl
  | clock ctr100 => exact unchanged _ rfl
  | write octets isurg => exact unchanged _ (tcpwrcall_main conn octets isurg)
  | resume index =>
      have same := tcpgetspace_same conn index
      exact ⟨same.1, Or.inl same.2⟩
  | close =>
      have unopened : conn.tcb.state ≠ .established ∧ conn.tcb.state ≠ .closewait := by
        rcases state with state | state <;> simp [state]
      rw [connStep, tcpclose, if_pos unopened]
      exact unchanged conn rfl
  | closeEnd =>
      rw [connStep, tcpcloseend, if_neg (by rcases state with state | state <;> simp [state])]
      exact unchanged conn rfl
  | read len => exact unchanged _ (tcpread_main conn len)
  | option set delack buffer => exact unchanged _ rfl
  | otherKick event tcbnum =>
      rw [connStep]
      split <;> exact unchanged _ rfl
  | otherSet key time =>
      rw [connStep]
      split <;> exact unchanged _ rfl
  | otherClear key =>
      rw [connStep]
      split <;> exact unchanged _ rfl

theorem step_early (conn : Conn) (event : Event) (early : Early conn.main.core) :
    Early (connStep conn event).main.core := by
  by_cases late : conn.tcb.state ≠ .synsent ∧ conn.tcb.state ≠ .synrcvd
  · exact early_of_late (chain_late (step_chain conn event) late)
  · have state : conn.tcb.state = .synsent ∨ conn.tcb.state = .synrcvd := by tauto
    by_cases arrives : ∃ inbound, event = .segment inbound
    · obtain ⟨inbound, rfl⟩ := arrives
      exact segment_early conn inbound early
    · rw [not_exists] at arrives
      exact early_of_same early (quiet_same conn event arrives state).1 (fun _ => state)

theorem opened_early {start : Conn} (opened : Opened start) : Early start.main.core := by
  cases opened with
  | active iss mss lip rip lport rport tcbnum timers oport ctr100 others foreign =>
      rw [tcpkick_main]
      exact fun _ => ⟨rfl, rfl, rfl, rfl⟩
  | passive iss mss parentSmss inbound tcbnum timers oport ctr100 syn others foreign =>
      rw [tcpdeliver_main]
      exact fun _ => ⟨rfl, rfl, rfl, rfl⟩

theorem reached_early {start conn : Conn} (opened : Opened start)
    (reached : Runs.Reach connStep (fun _ _ => True) start conn) : Early conn.main.core := by
  induction reached with
  | start => exact opened_early opened
  | step event _ _ ih => exact step_early _ event ih

/-- The event takes the connection from SYN_RCVD to ESTABLISHED, or past it to CLOSE_WAIT
when the segment carries a FIN. -/
def Opens (conn : Conn) (event : Event) : Prop :=
  conn.tcb.state = .synrcvd ∧ ((connStep conn event).tcb.state = .established ∨
    (connStep conn event).tcb.state = .closewait)

/-- The SYN is acknowledged by `ack`. -/
def AcksSyn (tcb : Tcb) (ack : Tcpseq) : Prop :=
  0 < seqcmp ack tcb.iss ∧ seqcmp ack tcb.snext ≤ 0

/-- The event is a segment that acknowledges the SYN, and this is recorded. -/
def OpensProperly (conn : Conn) (event : Event) : Prop :=
  ∃ inbound, event = .segment inbound ∧ inbound.segment.code.ack = true ∧
    AcksSyn conn.tcb inbound.segment.ack ∧ (connStep conn event).tcb.code.syn = false ∧
    0 < seqcmp (connStep conn event).tcb.suna (connStep conn event).tcb.iss

/-- A segment that reaches `tcpsynrcvd` and is taken for an answer there. -/
def Reaches (conn : Conn) (inbound : Inbound) : Prop :=
  (tcpok conn.tcb inbound.segment).1 = true ∧
    (tcpopts conn.tcb { inbound with
      segment := (tcpok conn.tcb inbound.segment).2 }).isSome = true ∧
    Answers conn.tcb.passive inbound

theorem tcpopts_outside (tcb : Tcb) (inbound : Inbound) (read : Tcb × Inbound)
    (ended : tcpopts tcb inbound = some read) :
    read.1.passive = tcb.passive ∧ read.2.parent = inbound.parent := by
  obtain ⟨smss, same⟩ := tcpopts_smss tcb inbound read ended
  refine ⟨by rw [same], ?_⟩
  unfold tcpopts at ended
  split at ended
  · cases ended
    rfl
  · rw [Option.map_eq_some_iff] at ended
    obtain ⟨taken, _, rfl⟩ := ended
    rfl

section Segment

variable (conn : Conn) (inbound : Inbound) (early : Early conn.main.core)
  (state : conn.tcb.state = .synrcvd)

include state

/-- The handler sees the segment with the data and options dealt with. -/
theorem synrcvd_step (read : Tcb × Inbound)
    (ok : (tcpok conn.tcb inbound.segment).1 = true)
    (ended : tcpopts conn.tcb { inbound with
      segment := (tcpok conn.tcb inbound.segment).2 } = some read) :
    connStep conn (.segment inbound) = tcpsynrcvd { conn with tcb := read.1 } read.2 ∧
      ({ conn with tcb := read.1 } : Conn).main = conn.main ∧
      read.2.segment.ack = inbound.segment.ack ∧
      (Answers read.1.passive read.2 ↔ Answers conn.tcb.passive inbound) := by
  have core := tcpopts_core conn.tcb _ read ended
  have found : read.1.state = .synrcvd := (congrArg Core.state core).trans state
  have header := tcpok_header conn.tcb inbound.segment
  have kept := tcpopts_header _ conn.tcb read ended
  have outside := tcpopts_outside conn.tcb _ read ended
  have code : read.2.segment.code = inbound.segment.code := kept.2.trans header.2
  refine ⟨?_, congrArg (Main.mk · _ _ _) core, kept.1.trans header.1, ?_⟩
  · rw [connStep, tcpinp, if_neg (by simp [state])]
    simp only [ok, if_true, ended, Option.map_some, Option.getD_some]
    simp only [tcpswitch, found]
  · unfold Answers
    rw [code, outside.1, outside.2]

include early

theorem reaching_opens (reaches : Reaches conn inbound) :
    ∃ other reading, other.main = conn.main ∧ reading.segment.ack = inbound.segment.ack ∧
      reading.segment.code.ack = true ∧
      connStep conn (.segment inbound) =
        tcpsynopened (tcpacked other reading.segment).2 reading := by
  obtain ⟨ok, options, answers⟩ := reaches
  obtain ⟨read, ended⟩ := Option.isSome_iff_exists.mp options
  obtain ⟨step, same, ack, alike⟩ := synrcvd_step conn inbound state read ok ended
  obtain ⟨syn, _, _, fin⟩ := early (Or.inr state)
  have code := main_code same
  refine ⟨_, read.2, same, ack, (alike.mpr answers).2.2.1, ?_⟩
  rw [step]
  apply tcpsynrcvd_answered
  · exact (congrArg Code.syn code).trans syn
  · exact (congrArg Code.fin code).trans fin
  · exact alike.mpr answers

theorem other_stays (other : ¬ Reaches conn inbound) :
    (connStep conn (.segment inbound)).tcb.state = .synrcvd ∨
      (connStep conn (.segment inbound)).tcb.state = .free := by
  by_cases ok : (tcpok conn.tcb inbound.segment).1 = true
  · cases ended : tcpopts conn.tcb { inbound with
      segment := (tcpok conn.tcb inbound.segment).2 } with
    | none =>
        left
        rw [connStep, tcpinp, if_neg (by simp [state])]
        simp only [ok, if_true, ended, Option.map_none, Option.getD_none]
        exact state
    | some read =>
        obtain ⟨step, same, _, alike⟩ := synrcvd_step conn inbound state read ok ended
        obtain ⟨syn, _, _, fin⟩ := early (Or.inr state)
        have code := main_code same
        have none : ¬ Answers read.1.passive read.2 := by
          intro answers
          exact other ⟨ok, by simp [ended], alike.mp answers⟩
        rw [step]
        rcases tcpsynrcvd_unanswered { conn with tcb := read.1 } read.2
          ((congrArg Code.syn code).trans syn) ((congrArg Code.fin code).trans fin) none with
          unchanged | freed
        · exact Or.inl ((main_state (unchanged.trans same)).trans state)
        · exact Or.inr freed
  · left
    rw [connStep, tcpinp, if_neg (by simp [state])]
    simp only [if_neg ok, Option.getD_some]
    exact (main_state (tcpackit_main conn _)).trans state

end Segment

theorem tcpsynopened_fields (conn : Conn) (inbound : Inbound) :
    (tcpsynopened conn inbound).tcb.code = conn.tcb.code ∧
      (tcpsynopened conn inbound).tcb.suna = conn.tcb.suna ∧
      (tcpsynopened conn inbound).tcb.iss = conn.tcb.iss := by
  have core : (tcpdeliver (conn.enter .established) inbound).tcb.core =
      (conn.enter .established).tcb.core :=
    congrArg Main.core (tcpdeliver_main (conn.enter .established) inbound)
  have fields : (tcpdeliver (conn.enter .established) inbound).tcb.code = conn.tcb.code ∧
      (tcpdeliver (conn.enter .established) inbound).tcb.suna = conn.tcb.suna ∧
      (tcpdeliver (conn.enter .established) inbound).tcb.iss = conn.tcb.iss :=
    ⟨congrArg Core.code core, congrArg Core.suna core, congrArg Core.iss core⟩
  unfold tcpsynopened
  simp only
  split
  · exact fields
  · exact fields

/-- A good acknowledgement is recorded. -/
theorem syn_recorded (conn : Conn) (segment : Segment) (flag : segment.code.ack = true)
    (suna : conn.tcb.suna = conn.tcb.iss) (acks : AcksSyn conn.tcb segment.ack) :
    (tcpacked conn segment).2.tcb.code.syn = false ∧
      (tcpacked conn segment).2.tcb.suna = segment.ack ∧
      (tcpacked conn segment).2.tcb.iss = conn.tcb.iss := by
  obtain ⟨new, known⟩ := acks
  rw [← suna] at new
  rcases tcpacked_with_flag conn segment flag with ⟨old, _⟩ | ⟨_, late, _⟩ | ⟨_, _, _, main⟩
  · omega
  · omega
  · have core : (tcpacked conn segment).2.tcb.core = (tcpaccepted conn.tcb segment.ack).core :=
      congrArg Main.core main
    exact ⟨congrArg (fun core => core.code.syn) core, congrArg Core.suna core,
      congrArg Core.iss core⟩

theorem opens_properly_iff (start conn : Conn) (opened : Opened start)
    (reached : Runs.Reach connStep (fun _ _ => True) start conn) (event : Event) :
    (Opens conn event → OpensProperly conn event) ↔
      ∀ inbound, event = .segment inbound → conn.tcb.state = .synrcvd →
        Reaches conn inbound → AcksSyn conn.tcb inbound.segment.ack := by
  have early := reached_early opened reached
  constructor
  · rintro proper inbound rfl state reaches
    obtain ⟨other, reading, _, _, _, step⟩ := reaching_opens conn inbound early state reaches
    have opens : Opens conn (.segment inbound) := by
      refine ⟨state, ?_⟩
      rw [step]
      exact tcpsynopened_state _ _
    obtain ⟨same, event, _, acks, _⟩ := proper opens
    cases event
    exact acks
  · rintro condition ⟨state, after⟩
    by_cases arrives : ∃ inbound, event = .segment inbound
    · obtain ⟨inbound, rfl⟩ := arrives
      by_cases reaches : Reaches conn inbound
      · have acks := condition inbound rfl state reaches
        obtain ⟨other, reading, same, ack, flag, step⟩ :=
          reaching_opens conn inbound early state reaches
        have core : other.tcb.core = conn.tcb.core := congrArg Main.core same
        have iss : other.tcb.iss = conn.tcb.iss := congrArg Core.iss core
        have snext : other.tcb.snext = conn.tcb.snext := congrArg Core.snext core
        have suna : other.tcb.suna = other.tcb.iss := by
          have found : conn.tcb.suna = conn.tcb.iss := (early (Or.inr state)).2.1
          rw [iss, ← found]
          exact congrArg Core.suna core
        have good : AcksSyn other.tcb reading.segment.ack := by
          unfold AcksSyn
          rw [ack, iss, snext]
          exact acks
        have recorded := syn_recorded other reading.segment flag suna good
        have fields := tcpsynopened_fields (tcpacked other reading.segment).2 reading
        refine ⟨inbound, rfl, reaches.2.2.2.2.1, acks, ?_, ?_⟩
        · rw [step, fields.1]
          exact recorded.1
        · rw [step, fields.2.1, fields.2.2, recorded.2.1, recorded.2.2]
          exact good.1
      · rcases other_stays conn inbound early state reaches with stays | freed
        · rw [stays] at after
          simp at after
        · rw [freed] at after
          simp at after
    · rw [not_exists] at arrives
      rcases (quiet_same conn event arrives (Or.inr state)).2 with stays | freed
      · rw [stays, state] at after
        simp at after
      · rw [freed] at after
        simp at after

/-- A server's block for a SYN with sequence number 500, `iss` 100. -/
def passiveConn : Conn :=
  tcpdeliver { tcb := tcplisten 100 512 0 { seq := 500, code := { syn := true }, window := 100 }
               tcbnum := 3 }
    { segment := { seq := 500, code := { syn := true }, window := 100 } }

theorem passive_opened : Opened passiveConn :=
  Opened.passive 100 512 0 { segment := { seq := 500, code := { syn := true }, window := 100 } }
    3 [] [] 0 rfl (by simp [Running]) (by simp)

/-- The answer to the SYN that `passiveConn` sends, with acknowledgement number `ack`. -/
def answer (ack : Tcpseq) : Event :=
  .segment { segment := { seq := 501, ack := ack, code := { ack := true }, window := 100 } }

theorem passive_sent_reached : Runs.Reach connStep (fun _ _ => True) passiveConn
    (connStep passiveConn (.output 4)) :=
  Runs.Reach.step _ Runs.Reach.start trivial

/-- The acknowledgement of the SYN opens properly. -/
theorem good_answer_opens :
    Opens (connStep passiveConn (.output 4)) (answer 101) ∧
      OpensProperly (connStep passiveConn (.output 4)) (answer 101) := by
  have opens : Opens (connStep passiveConn (.output 4)) (answer 101) := by
    unfold Opens
    decide
  refine ⟨opens, (opens_properly_iff _ _ passive_opened passive_sent_reached _).mpr ?_ opens⟩
  intro inbound event _ _
  cases event
  unfold AcksSyn
  decide

/-- So does an old one, and the SYN stays outstanding. -/
theorem old_answer_opens :
    ¬ ∀ (start conn : Conn) (event : Event), Opened start →
      Runs.Reach connStep (fun _ _ => True) start conn →
      Opens conn event → OpensProperly conn event := by
  intro claimed
  have opens : Opens (connStep passiveConn (.output 4)) (answer 100) := by
    unfold Opens
    decide
  obtain ⟨inbound, _, _, _, syn, _⟩ :=
    claimed _ _ _ passive_opened passive_sent_reached opens
  revert syn
  decide

end MvsXinu.Tcp
