import MvsXinu.Tcp.ControlFlags
import MvsXinu.Tcp.Handshake

/-!
# Segments in SYN_SENT

`tcpsynsent` looks at the acknowledgement first, then at the RST bit, then at the SYN bit. What
it does is one of five things, told apart by these bits and by the acknowledgement number.
-/

namespace MvsXinu.Tcp

open MvsXinu.SeqSpace

set_option autoImplicit false

/-- What should become of an open when a segment arrives in SYN_SENT. -/
structure AnsweredInSynsent (conn : Conn) (segment : Segment) (after : Conn) : Prop where
  reset : after.tcb.state = .closed ∧ after.tcb.error = some .reset →
    segment.code.rst = true ∧ segment.code.ack = true ∧ AcksSyn conn.tcb segment.ack
  refused : segment.code.ack = true → ¬ AcksSyn conn.tcb segment.ack → segment.code.rst = false →
    after.tcb = conn.tcb ∧ ∃ reply, after.trace.replies = conn.trace.replies ++ [reply] ∧
      reply.code.rst = true ∧ reply.seq = segment.ack
  established : after.tcb.state = .established ↔
    segment.code.syn = true ∧ segment.code.ack = true ∧ AcksSyn conn.tcb segment.ack
  synrcvd : after.tcb.state = .synrcvd ↔ segment.code.syn = true ∧ segment.code.ack = false

/-- `tcpinp` gets through the options and answers as it should. -/
def Answered (conn : Conn) (inbound : Inbound) : Prop :=
  ∃ after, tcpinp conn inbound = some after ∧ AnsweredInSynsent conn inbound.segment after

/-- A reset acknowledges the SYN and is no SYN itself, or its acknowledgement is unacceptable;
and the options of a segment that is refused leave the block as it is. -/
structure RightlyMarked (conn : Conn) (inbound : Inbound) : Prop where
  options : ∃ read, tcpopts conn.tcb inbound = some read ∧
    (inbound.segment.code.ack = true → ¬ AcksSyn conn.tcb inbound.segment.ack →
      inbound.segment.code.rst = false → read.1 = conn.tcb)
  reset : inbound.segment.code.rst = true →
    inbound.segment.code.ack = true ∧
      (AcksSyn conn.tcb inbound.segment.ack → inbound.segment.code.syn = false)

section Synsent

variable {conn : Conn} {inbound : Inbound}

theorem acks_syn_iff (tcb : Tcb) (ack : Tcpseq) :
    (seqcmp ack tcb.iss ≤ 0 ∨ 0 < seqcmp ack tcb.snext) ↔ ¬ AcksSyn tcb ack := by
  rw [AcksSyn]
  omega

theorem tcpsynsent_refuses (flag : inbound.segment.code.ack = true)
    (other : ¬ AcksSyn conn.tcb inbound.segment.ack) :
    tcpsynsent conn inbound = tcpreset conn inbound.segment := by
  have refused := (acks_syn_iff conn.tcb inbound.segment.ack).mpr other
  simp only [tcpsynsent]
  rw [if_pos ⟨flag, refused⟩]

/-- Not refused for its acknowledgement. -/
def Passes (conn : Conn) (segment : Segment) : Prop :=
  segment.code.ack = true → AcksSyn conn.tcb segment.ack

theorem passes_not_refused (passes : Passes conn inbound.segment) :
    ¬ (inbound.segment.code.ack = true ∧ (seqcmp inbound.segment.ack conn.tcb.iss ≤ 0 ∨
      0 < seqcmp inbound.segment.ack conn.tcb.snext)) := by
  intro refused
  exact (acks_syn_iff conn.tcb inbound.segment.ack).mp refused.2 (passes refused.1)

theorem tcpsynsent_fails (passes : Passes conn inbound.segment)
    (rst : inbound.segment.code.rst = true) :
    (tcpsynsent conn inbound).tcb.state = .closed ∧
      (tcpsynsent conn inbound).tcb.error = some .reset := by
  simp only [tcpsynsent]
  rw [if_neg (passes_not_refused passes), if_pos rst]
  exact ⟨rfl, rfl⟩

theorem tcpsynsent_ignores (passes : Passes conn inbound.segment)
    (noRst : inbound.segment.code.rst = false) (noSyn : inbound.segment.code.syn = false) :
    tcpsynsent conn inbound = conn := by
  simp only [tcpsynsent]
  rw [if_neg (passes_not_refused passes), noRst, noSyn]
  rfl

/-- A SYN is answered by the state that the acknowledgement, or the lack of one, leads to. -/
theorem tcpsynsent_opens (passes : Passes conn inbound.segment)
    (noRst : inbound.segment.code.rst = false) (isSyn : inbound.segment.code.syn = true)
    (early : conn.tcb.code.syn = true) (unacked : conn.tcb.suna = conn.tcb.iss) :
    (tcpsynsent conn inbound).tcb.state =
      if inbound.segment.code.ack then .established else .synrcvd := by
  set start : Conn := { conn with tcb := { conn.tcb with
    swindow := inbound.segment.window.setWidth 32
    lwseq := inbound.segment.seq
    rnext := inbound.segment.seq
    cwin := inbound.segment.seq + conn.tcb.rbsize } } with isStart
  have entered : (tcpsynsent conn inbound).tcb.state =
      if (tcpacked start inbound.segment).2.tcb.code.syn then .synrcvd else .established := by
    simp only [tcpsynsent]
    rw [if_neg (passes_not_refused passes), noRst, isSyn]
    simp only [Bool.not_true, Bool.false_eq_true, if_false, Conn.enter, ← isStart]
    rw [main_code (tcpdeliver_main (tcpacked start inbound.segment).2 inbound)]
  rw [entered]
  cases flag : inbound.segment.code.ack with
  | false =>
      rw [tcpacked_without_flag start inbound.segment flag]
      show (if conn.tcb.code.syn = true then _ else _) = _
      rw [early]
      rfl
  | true =>
      rcases passes flag with ⟨new, known⟩
      have cleared : (tcpacked start inbound.segment).2.tcb.code.syn = false :=
        (tcpacked_syn start inbound.segment flag).2 (by rw [← unacked] at new; exact new) known
      rw [cleared]
      rfl

theorem refused_tcb (flag : inbound.segment.code.ack = true)
    (other : ¬ AcksSyn conn.tcb inbound.segment.ack) :
    (tcpsynsent conn inbound).tcb = conn.tcb := by
  rw [tcpsynsent_refuses flag other, tcpreset_tcb]

theorem refused_reply (flag : inbound.segment.code.ack = true)
    (other : ¬ AcksSyn conn.tcb inbound.segment.ack) (noRst : inbound.segment.code.rst = false) :
    ∃ reply, (tcpsynsent conn inbound).trace.replies = conn.trace.replies ++ [reply] ∧
      reply.code.rst = true ∧ reply.seq = inbound.segment.ack := by
  rw [tcpsynsent_refuses flag other]
  simp only [tcpreset, noRst, Bool.false_eq_true, if_false, flag, if_true, Conn.reply]
  exact ⟨_, rfl, rfl, rfl⟩

theorem tcpinp_synsent (synsent : conn.tcb.state = .synsent) :
    tcpinp conn inbound = (tcpopts conn.tcb inbound).map fun read =>
      tcpsynsent { conn with tcb := read.1 } read.2 := by
  have alive : ¬ conn.tcb.state = .free := by
    rw [synsent]
    exact TcpState.noConfusion
  have unchecked : tcpok conn.tcb inbound.segment = (true, inbound.segment) := by
    simp only [tcpok, synsent]
    rfl
  simp only [tcpinp, if_neg alive, unchecked, if_true]
  apply Option.map_congr
  intro read ended
  obtain ⟨smss, same⟩ := tcpopts_smss conn.tcb inbound read ended
  simp only [tcpswitch, same, synsent]

/-- The block that the options leave is as far as the one before. -/
theorem read_acks (read : Tcb × Inbound) (ended : tcpopts conn.tcb inbound = some read)
    (ack : Tcpseq) : AcksSyn read.1 ack ↔ AcksSyn conn.tcb ack := by
  obtain ⟨smss, same⟩ := tcpopts_smss conn.tcb inbound read ended
  simp only [AcksSyn, same]

/-- What becomes of the connection, in terms of the segment before its options are read. -/
structure Final (conn : Conn) (inbound : Inbound) (read : Tcb × Inbound) : Prop where
  refused : inbound.segment.code.ack = true → ¬ AcksSyn conn.tcb inbound.segment.ack →
    (tcpsynsent { conn with tcb := read.1 } read.2).tcb = read.1 ∧
      (inbound.segment.code.rst = false →
        ∃ reply, (tcpsynsent { conn with tcb := read.1 } read.2).trace.replies =
          conn.trace.replies ++ [reply] ∧
            reply.code.rst = true ∧ reply.seq = inbound.segment.ack)
  failed : Passes conn inbound.segment → inbound.segment.code.rst = true →
    (tcpsynsent { conn with tcb := read.1 } read.2).tcb.state = .closed ∧
      (tcpsynsent { conn with tcb := read.1 } read.2).tcb.error = some .reset
  ignored : Passes conn inbound.segment → inbound.segment.code.rst = false →
    inbound.segment.code.syn = false →
      (tcpsynsent { conn with tcb := read.1 } read.2).tcb.state = .synsent
  opened : Passes conn inbound.segment → inbound.segment.code.rst = false →
    inbound.segment.code.syn = true →
      (tcpsynsent { conn with tcb := read.1 } read.2).tcb.state =
        if inbound.segment.code.ack then .established else .synrcvd

theorem final_of_read (early : conn.tcb.code.syn = true) (unacked : conn.tcb.suna = conn.tcb.iss)
    (synsent : conn.tcb.state = .synsent) {read : Tcb × Inbound}
    (ended : tcpopts conn.tcb inbound = some read) : Final conn inbound read := by
  rcases tcpopts_header inbound conn.tcb read ended with ⟨ack, code⟩
  rcases tcpopts_smss conn.tcb inbound read ended with ⟨smss, block⟩
  have acks := read_acks read ended inbound.segment.ack
  have passing : Passes conn inbound.segment →
      Passes { conn with tcb := read.1 } read.2.segment := by
    intro passes flag
    rw [code] at flag
    rw [ack]
    exact acks.mpr (passes flag)
  constructor
  · intro flag other
    rw [← code] at flag
    rw [← acks, ← ack] at other
    constructor
    · exact @refused_tcb { conn with tcb := read.1 } read.2 flag other
    · intro noRst
      rw [← code] at noRst
      rw [← ack]
      exact @refused_reply { conn with tcb := read.1 } read.2 flag other noRst
  · intro passes rst
    rw [← code] at rst
    exact tcpsynsent_fails (passing passes) rst
  · intro passes noRst noSyn
    rw [← code] at noRst noSyn
    rw [tcpsynsent_ignores (passing passes) noRst noSyn, block]
    exact synsent
  · intro passes noRst isSyn
    rw [← code] at noRst isSyn
    rw [← code]
    apply tcpsynsent_opens (passing passes) noRst isSyn
    · rw [block]
      exact early
    · rw [block]
      exact unacked

/-- A segment that is not refused passes. -/
theorem refused_or_passes (conn : Conn) (segment : Segment) :
    (segment.code.ack = true ∧ ¬ AcksSyn conn.tcb segment.ack) ∨ Passes conn segment := by
  by_cases passes : Passes conn segment
  · exact Or.inr passes
  · rw [Passes, Classical.not_imp] at passes
    exact Or.inl passes

theorem marked_of_answered {read : Tcb × Inbound}
    (ended : tcpopts conn.tcb inbound = some read) (final : Final conn inbound read)
    (answered : AnsweredInSynsent conn inbound.segment
      (tcpsynsent { conn with tcb := read.1 } read.2)) : RightlyMarked conn inbound := by
  constructor
  · constructor
    constructor
    · exact ended
    · intro flag other noRst
      rw [← (answered.refused flag other noRst).1]
      exact (final.refused flag other).1.symm
  · intro rst
    have flag : inbound.segment.code.ack = true := by
      by_contra unset
      have passes : Passes conn inbound.segment := fun set => absurd set unset
      exact unset (answered.reset (final.failed passes rst)).2.1
    constructor
    · exact flag
    · intro acks
      have passes : Passes conn inbound.segment := fun _ => acks
      by_contra syn
      rw [Bool.not_eq_false] at syn
      have established := answered.established.mpr ⟨syn, flag, acks⟩
      rw [(final.failed passes rst).1] at established
      exact absurd established TcpState.noConfusion

theorem answered_of_marked {read : Tcb × Inbound}
    (ended : tcpopts conn.tcb inbound = some read) (synsent : conn.tcb.state = .synsent)
    (final : Final conn inbound read) (marked : RightlyMarked conn inbound) :
    AnsweredInSynsent conn inbound.segment (tcpsynsent { conn with tcb := read.1 } read.2) := by
  have block : read.1.state = .synsent := by
    rcases tcpopts_smss conn.tcb inbound read ended with ⟨smss, same⟩
    rw [same]
    exact synsent
  have kept : inbound.segment.code.ack = true → ¬ AcksSyn conn.tcb inbound.segment.ack →
      inbound.segment.code.rst = false → read.1 = conn.tcb := by
    rcases marked.options with ⟨other, found, same⟩
    rw [ended] at found
    cases found
    exact same
  rcases refused_or_passes conn inbound.segment with refused | passes
  · rcases final.refused refused.1 refused.2 with ⟨same, replied⟩
    rw [← same] at block
    constructor
    · intro failed
      rw [block] at failed
      exact absurd failed.1 TcpState.noConfusion
    · intro flag other noRst
      exact ⟨same.trans (kept flag other noRst), replied noRst⟩
    · simp only [block, reduceCtorEq, false_iff]
      intro opens
      exact refused.2 opens.2.2
    · simp only [block, reduceCtorEq, refused.1, Bool.true_eq_false, and_false]
  · have notRefused : inbound.segment.code.ack = true →
        ¬ ¬ AcksSyn conn.tcb inbound.segment.ack :=
      fun flag other => other (passes flag)
    cases rst : inbound.segment.code.rst with
    | true =>
        rcases marked.reset rst with ⟨flag, noSyn⟩
        have acks := passes flag
        rcases final.failed passes rst with ⟨closed, _⟩
        constructor
        · intro _
          exact ⟨rst, flag, acks⟩
        · intro _ other
          exact absurd acks other
        · simp only [closed, reduceCtorEq, noSyn acks, Bool.false_eq_true, false_and]
        · simp only [closed, reduceCtorEq, noSyn acks, Bool.false_eq_true, false_and]
    | false =>
        cases syn : inbound.segment.code.syn with
        | false =>
            have stays := final.ignored passes rst syn
            constructor
            · intro failed
              rw [stays] at failed
              exact absurd failed.1 TcpState.noConfusion
            · intro flag other
              exact absurd other (notRefused flag)
            · simp only [stays, reduceCtorEq, syn, Bool.false_eq_true, false_and]
            · simp only [stays, reduceCtorEq, syn, Bool.false_eq_true, false_and]
        | true =>
            have opens := final.opened passes rst syn
            cases flag : inbound.segment.code.ack with
            | true =>
                rw [flag, if_pos rfl] at opens
                constructor
                · intro failed
                  rw [opens] at failed
                  exact absurd failed.1 TcpState.noConfusion
                · intro _ other
                  exact absurd (passes flag) other
                · simp only [opens, syn, flag, passes flag, and_self]
                · simp only [opens, reduceCtorEq, flag, Bool.true_eq_false, and_false]
            | false =>
                rw [flag] at opens
                simp only [Bool.false_eq_true, if_false] at opens
                constructor
                · intro failed
                  rw [opens] at failed
                  exact absurd failed.1 TcpState.noConfusion
                · intro set
                  rw [flag] at set
                  exact absurd set Bool.false_ne_true
                · simp only [opens, reduceCtorEq, flag, Bool.false_eq_true, false_and, and_false]
                · simp only [opens, syn, flag, and_self]

end Synsent

/-- What happens to an open is what should, for the segments that are rightly marked and for
no others. -/
theorem synsent_answered_iff (start conn : Conn) (opened : Opened start)
    (reached : Runs.Reach connStep (fun _ _ => True) start conn)
    (synsent : conn.tcb.state = .synsent) (inbound : Inbound) :
    Answered conn inbound ↔ RightlyMarked conn inbound := by
  have early := reached_early opened reached (Or.inl synsent)
  rw [Answered, tcpinp_synsent synsent]
  constructor
  · rintro ⟨after, ended, answered⟩
    rw [Option.map_eq_some_iff] at ended
    rcases ended with ⟨read, ended, isAfter⟩
    have final : Final conn inbound read := final_of_read early.1 early.2.1 synsent ended
    rw [← isAfter] at answered
    exact marked_of_answered ended final answered
  · intro marked
    rcases marked.options with ⟨read, ended, _⟩
    have final : Final conn inbound read := final_of_read early.1 early.2.1 synsent ended
    constructor
    constructor
    · rw [ended]
      rfl
    · exact answered_of_marked ended synsent final marked

/-- The acknowledgement of the SYN that `activeConn` sends, with a SYN. -/
def synAck : Inbound :=
  { segment := { seq := 500, ack := 101, code := { syn := true, ack := true }, window := 100 } }

theorem syn_ack_answered : Answered (connStep activeConn (.output 4)) synAck := by
  have reached : Runs.Reach connStep (fun _ _ => True) activeConn
      (connStep activeConn (.output 4)) :=
    Runs.Reach.step _ Runs.Reach.start trivial
  apply (synsent_answered_iff _ _ active_opened reached rfl synAck).mpr
  constructor
  · constructor
    constructor
    · rfl
    · intro _ _ _
      rfl
  · intro rst
    cases rst

/-- A reset that acknowledges nothing. -/
def blindReset : Inbound := { segment := { seq := 77, code := { rst := true } } }

theorem blind_reset_unanswered :
    ¬ ∀ (start conn : Conn) (inbound : Inbound), Opened start →
      Runs.Reach connStep (fun _ _ => True) start conn → conn.tcb.state = .synsent →
      Answered conn inbound := by
  intro claimed
  have reached : Runs.Reach connStep (fun _ _ => True) activeConn
      (connStep activeConn (.output 4)) :=
    Runs.Reach.step _ Runs.Reach.start trivial
  rcases claimed _ _ blindReset active_opened reached rfl with ⟨after, ended, answered⟩
  cases ended
  have acknowledged := (answered.reset ⟨rfl, rfl⟩).2.1
  cases acknowledged

end MvsXinu.Tcp
