import MvsXinu.Tcp.SendGauge

/-!
# Where the FIN goes

`tcpclose` notes in `slast` where the data end at that time. The note stays right while octets
are acknowledged, since `suna` moves by what leaves the buffer, and while nothing more is stored.
-/

namespace MvsXinu.Tcp

open MvsXinu.SeqSpace

set_option autoImplicit false

/-- A FIN that is asked for ends at the last octet stored. -/
def FinBehind (core : Core) : Prop :=
  core.sndfin = true → core.code.syn = false ∧ core.slast = core.suna + core.sbcount

/-- The core without its state. -/
def Conn.stateless (conn : Conn) : Core := { conn.main.core with state := .free }

theorem fin_behind_of_stateless {conn after : Conn} (same : after.stateless = conn.stateless)
    (behind : FinBehind conn.main.core) : FinBehind after.main.core := by
  change FinBehind after.stateless
  rw [same]
  exact behind

/-- A segment changes the core by an acknowledgement, or not at all. -/
def Acknowledges (conn after : Conn) : Prop :=
  after.stateless = conn.stateless ∨
    ∃ ack, after.stateless = { (tcpaccepted conn.tcb ack).core with state := .free }

theorem Acknowledges.of_eq {conn middle after : Conn} (acknowledges : Acknowledges conn middle)
    (same : after.stateless = middle.stateless) : Acknowledges conn after := by
  rw [Acknowledges, same]
  exact acknowledges

section Acknowledge

variable (conn : Conn) (inbound : Inbound)

theorem acknowledges_refl : Acknowledges conn conn := Or.inl rfl

@[simp] theorem enter_stateless (state : TcpState) :
    (conn.enter state).stateless = conn.stateless := rfl

@[simp] theorem tcbdealloc_stateless : (tcbdealloc conn).stateless = conn.stateless := by
  simp only [tcbdealloc]
  split <;> rfl

theorem stateless_of_main {conn after : Conn} (same : after.main = conn.main) :
    after.stateless = conn.stateless := by
  rw [Conn.stateless, Conn.stateless, same]

theorem tcpacked_acknowledges (segment : Segment) :
    Acknowledges conn (tcpacked conn segment).2 := by
  cases flag : segment.code.ack with
  | false =>
      rw [tcpacked_without_flag conn segment flag]
      exact acknowledges_refl conn
  | true =>
      rcases tcpacked_with_flag conn segment flag with
        ⟨_, _, main⟩ | ⟨_, _, _, main⟩ | ⟨_, _, _, main⟩
      · left
        rw [Conn.stateless, main]
        rfl
      · left
        rw [Conn.stateless, main]
        rfl
      · right
        constructor
        rw [Conn.stateless, main]

theorem aborts_acknowledges {rest : Conn} (segment : Segment)
    (acknowledges : Acknowledges conn rest) :
    Acknowledges conn ((tcpaborts conn segment).getD rest) := by
  cases aborts : tcpaborts conn segment with
  | none => exact acknowledges
  | some after => exact Or.inl (stateless_of_main (tcpaborts_main conn after segment aborts))

theorem frees_acknowledges {rest : Conn} (segment : Segment)
    (acknowledges : Acknowledges conn rest) :
    Acknowledges conn ((tcpfrees conn segment).getD rest) := by
  simp only [tcpfrees]
  split_ifs
  · exact Or.inl (tcbdealloc_stateless conn)
  · left
    rw [Option.getD_some, tcbdealloc_stateless]
    exact stateless_of_main (tcpreset_main conn segment)
  · exact acknowledges

theorem handled_acknowledges : Acknowledges conn
    (tcpswindow (tcpdeliver (tcpacked conn inbound.segment).2 inbound) inbound.segment) :=
  (tcpacked_acknowledges conn inbound.segment).of_eq
    (stateless_of_main (handled_main conn inbound))

theorem delivered_acknowledges :
    Acknowledges conn (tcpdeliver (tcpacked conn inbound.segment).2 inbound) :=
  (tcpacked_acknowledges conn inbound.segment).of_eq
    (stateless_of_main (tcpdeliver_main (tcpacked conn inbound.segment).2 inbound))

theorem tcpsynsent_acknowledges : Acknowledges conn (tcpsynsent conn inbound) := by
  simp only [tcpsynsent]
  split_ifs
  · exact Or.inl (stateless_of_main (tcpreset_main conn inbound.segment))
  · exact Or.inl rfl
  · exact acknowledges_refl conn
  all_goals
    exact (delivered_acknowledges { conn with tcb := { conn.tcb with
      swindow := inbound.segment.window.setWidth 32
      lwseq := inbound.segment.seq
      rnext := inbound.segment.seq
      cwin := inbound.segment.seq + conn.tcb.rbsize } } inbound)

theorem tcpsynopened_stateless : (tcpsynopened conn inbound).stateless = conn.stateless := by
  have delivered := stateless_of_main (tcpdeliver_main (conn.enter .established) inbound)
  simp only [tcpsynopened]
  split
  · rw [enter_stateless, delivered, enter_stateless]
  · rw [delivered, enter_stateless]

theorem tcpsynrcvd_acknowledges : Acknowledges conn (tcpsynrcvd conn inbound) := by
  have acked := tcpacked_acknowledges conn inbound.segment
  have reset := stateless_of_main (tcpreset_main conn inbound.segment)
  simp only [tcpsynrcvd]
  split_ifs
  · exact Or.inl (tcbdealloc_stateless conn)
  · exact Or.inl rfl
  · exact Or.inl reset
  · exact acked
  · apply acked.of_eq
    rw [tcbdealloc_stateless]
    exact stateless_of_main (tcpreset_main (tcpacked conn inbound.segment).2 inbound.segment)
  · exact acked.of_eq (tcpsynopened_stateless _ inbound)

theorem tcpswitch_acknowledges : Acknowledges conn (tcpswitch conn inbound) := by
  have acked := tcpacked_acknowledges conn inbound.segment
  have handled := handled_acknowledges conn inbound
  have delivered := delivered_acknowledges conn inbound
  simp only [tcpswitch]
  split
  · exact acknowledges_refl conn
  · exact Or.inl (stateless_of_main (tcpreset_main conn inbound.segment))
  · exact acknowledges_refl conn
  · exact tcpsynsent_acknowledges conn inbound
  · exact tcpsynrcvd_acknowledges conn inbound
  · simp only [tcpestablished]
    apply aborts_acknowledges
    split_ifs
    · exact acked
    · exact handled
    · exact handled
  · simp only [tcpfin1]
    apply aborts_acknowledges
    split_ifs
    · exact acked
    · exact handled
    · exact handled
    · exact handled
    · exact handled
  · simp only [tcpfin2]
    apply aborts_acknowledges
    split_ifs
    · exact acked
    · exact delivered
    · exact delivered
  · simp only [tcpclosewait]
    apply aborts_acknowledges
    exact acked.of_eq (stateless_of_main (tcpswindow_main _ inbound.segment))
  · simp only [tcplastack]
    apply aborts_acknowledges
    exact acked
  · simp only [tcpclosing]
    apply frees_acknowledges
    split
    · exact acked
    · exact acked
  · simp only [tcptimewait]
    apply frees_acknowledges
    exact delivered

theorem segment_acknowledges : Acknowledges conn (connStep conn (.segment inbound)) := by
  simp only [connStep, tcpinp]
  split
  · exact acknowledges_refl conn
  · split
    · cases ended : tcpopts conn.tcb { inbound with
        segment := (tcpok conn.tcb inbound.segment).2 } with
      | none => exact acknowledges_refl conn
      | some read =>
          have core := tcpopts_core conn.tcb _ read ended
          have same : ({ conn with tcb := read.1 } : Conn).main = conn.main :=
            congrArg (Main.mk · _ _ _) core
          rcases tcpswitch_acknowledges { conn with tcb := read.1 } read.2 with kept | ⟨ack, taken⟩
          · exact Or.inl (kept.trans (stateless_of_main same))
          · right
            use ack
            rw [← tcpaccepted_core core ack]
            exact taken
    · exact Or.inl (stateless_of_main (tcpackit_main conn _))

end Acknowledge

/-- An acknowledgement moves `suna` by what it takes from the buffer. -/
theorem fin_behind_accepted {tcb : Tcb} (ack : Tcpseq) (behind : FinBehind tcb.core) :
    FinBehind { (tcpaccepted tcb ack).core with state := .free } := by
  intro asked
  have both : (tcb.flags.sndfin && !tcpackedfin tcb ack) = true := asked
  rw [Bool.and_eq_true, Bool.not_eq_true'] at both
  rcases behind both.1 with ⟨syn, slast⟩
  have noSyn : tcpackedsyn tcb = false := syn
  have len : BitVec.ofInt 32 (tcpackedlen tcb ack) = ack - tcb.suna := by
    simp only [tcpackedlen, noSyn, both.2, Bool.false_eq_true, if_false, Int.sub_zero]
    exact of_int_to_int (ack - tcb.suna)
  have stays : tcb.slast = tcb.suna + tcb.sbcount := slast
  constructor
  · rfl
  · show tcb.slast = ack + (tcb.sbcount - BitVec.ofInt 32 (tcpackedlen tcb ack))
    rw [len, stays]
    grind

theorem fin_behind_sent {tcb : Tcb} (rexmt : Bool) (behind : FinBehind tcb.core) :
    FinBehind (tcpsent tcb rexmt).core := by
  rw [tcpsent_core]
  intro asked
  rcases behind asked with ⟨syn, slast⟩
  constructor
  · show (tcpsendcode tcb _ _).syn = false
    rw [sendcode_syn]
    exact syn
  · exact slast

theorem fin_behind_emits {main after : Main} (emits : Emits main after)
    (behind : FinBehind main.core) : FinBehind after.core := by
  induction emits with
  | refl => exact behind
  | tail _ emit ih =>
      cases emit with
      | freed => exact ih
      | sent tcb found rexmt =>
          rw [← found] at ih
          exact fin_behind_sent rexmt ih

/-- `tcpclose` asks for a FIN. -/
def Conn.closes (conn : Conn) : Prop :=
  (conn.tcb.state = .established ∨ conn.tcb.state = .closewait) ∧ conn.tcb.error = none

instance (conn : Conn) : Decidable conn.closes := inferInstanceAs (Decidable (_ ∧ _))

theorem tcpclose_closes (conn : Conn) (closes : conn.closes) :
    (tcpclose conn).main.core = (tcpclosedtcb conn.tcb).core := by
  rcases closes with ⟨state, error⟩
  have opened : ¬ (conn.tcb.state ≠ .established ∧ conn.tcb.state ≠ .closewait) := by tauto
  have noError : ¬ conn.tcb.error.isSome = true := by
    rw [error]
    decide
  rw [tcpclose, if_neg opened, if_neg noError, tcpkick_main]
  rfl

theorem tcpclose_refused (conn : Conn) (refused : ¬ conn.closes) :
    (tcpclose conn).stateless = conn.stateless := by
  rw [tcpclose]
  split_ifs with other error
  · rfl
  · exact tcbdealloc_stateless conn
  · have none : conn.tcb.error = .none := Option.not_isSome_iff_eq_none.mp error
    exact absurd ⟨by tauto, none⟩ refused

theorem idle_stateless (conn : Conn) (event : Event) (idle : event.Idle)
    (notClose : event ≠ .close) : (connStep conn event).stateless = conn.stateless := by
  cases event with
  | segment inbound => exact absurd idle id
  | output fuel => exact absurd idle id
  | tick delta => rfl
  | clock ctr100 => rfl
  | write octets isurg => exact stateless_of_main (tcpwrcall_main conn octets isurg)
  | resume index => exact absurd idle id
  | close => exact absurd rfl notClose
  | closeEnd =>
      rw [connStep, tcpcloseend]
      split
      · exact tcbdealloc_stateless conn
      · rfl
  | read len => exact stateless_of_main (tcpread_main conn len)
  | option set delack buffer => rfl
  | otherKick event tcbnum =>
      rw [connStep]
      split <;> rfl
  | otherSet key time =>
      rw [connStep]
      split <;> rfl
  | otherClear key =>
      rw [connStep]
      split <;> rfl

end MvsXinu.Tcp
