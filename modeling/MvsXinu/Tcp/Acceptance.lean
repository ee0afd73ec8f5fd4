import MvsXinu.Tcp.Input

/-!
# Acceptance of a segment and the answer to a refused one

The four cases of the acceptability test of RFC 793, computed modulo `2 ^ 32`, against the
signed comparisons of `tcpok`, and the acknowledgement that `tcpackit` owes to a segment
which `tcpok` refuses.
-/

namespace MvsXinu.Tcp

open MvsXinu.SeqSpace

set_option autoImplicit false

/-- `RCV.NXT =< seq < RCV.NXT + RCV.WND`. -/
def InReceiveWindow (tcb : Tcb) (seq : Tcpseq) : Prop :=
  (seq - tcb.rnext).toNat < tcb.rbsize.toNat - tcb.rbcount.toNat

/-- The number of the last octet of a segment that has a length. -/
def Segment.last (segment : Segment) : Tcpseq :=
  segment.seq + BitVec.ofInt 32 segment.seglen - 1

/-- The acceptability test of RFC 793: segment length zero or not, receive window zero or
not. -/
def Acceptable (tcb : Tcb) (segment : Segment) : Prop :=
  if segment.seglen = 0 then
    if tcb.rbcount = tcb.rbsize then segment.seq = tcb.rnext else InReceiveWindow tcb segment.seq
  else
    if tcb.rbcount = tcb.rbsize then False
    else InReceiveWindow tcb segment.seq ∨ InReceiveWindow tcb segment.last

/-- A buffer whose count lies within its size, which fits 16 bits. -/
structure Tcb.Roomy (tcb : Tcb) : Prop where
  count_le : tcb.rbcount.toNat ≤ tcb.rbsize.toNat
  size_le : tcb.rbsize.toNat ≤ 65535

/-- What acceptance has to be: the test of RFC 793, and with no window only segments that
take no sequence space. -/
structure AcceptsRightly (tcb : Tcb) (segment : Segment) : Prop where
  tested : (tcpok tcb segment).1 = true ↔ Acceptable tcb segment
  empty : (tcpok tcb segment).1 = true → tcb.rwindow = 0 →
    segment.seglen = 0 ∧ (tcpok tcb segment).2.seglen = 0

/-- A segment at a closed window whose first or last octet is the farthest number ahead of
`rnext`. -/
def FarAtClosedWindow (tcb : Tcb) (segment : Segment) : Prop :=
  tcb.rwindow = 0 ∧ segment.seglen ≠ 0 ∧
    (segment.seq = seqAt tcb.rnext (2 ^ 31 - 1) ∨ segment.last = seqAt tcb.rnext (2 ^ 31 - 1))

section Window

variable {tcb : Tcb}

theorem Tcb.Roomy.rwindow (roomy : tcb.Roomy) :
    tcb.rwindow = (tcb.rbsize.toNat - tcb.rbcount.toNat : Nat) := by
  have size_le := roomy.size_le
  have difference := word_sub_to_nat _ _ roomy.count_le
  rw [Tcb.rwindow, to_int_of_small _ (by omega), difference]

theorem Tcb.Roomy.full_iff (roomy : tcb.Roomy) :
    tcb.rwindow = 0 ↔ tcb.rbcount = tcb.rbsize := by
  have count_le := roomy.count_le
  rw [roomy.rwindow, BitVec.toNat_eq]
  omega

theorem wlast_eq (tcb : Tcb) :
    tcb.rnext + BitVec.ofInt 32 tcb.rwindow - 1 = seqAt tcb.rnext (tcb.rwindow - 1) := by
  rw [← seq_at_sub_const, seqAt]
  rfl

/-- The two comparisons of `tcpok` on a number, window open. -/
theorem between_iff_open (roomy : tcb.Roomy) (isOpen : tcb.rwindow ≠ 0) (seq : Tcpseq) :
    (0 ≤ seqcmp seq tcb.rnext ∧
        seqcmp seq (tcb.rnext + BitVec.ofInt 32 tcb.rwindow - 1) ≤ 0) ↔
      InReceiveWindow tcb seq := by
  have size_le := roomy.size_le
  have window := roomy.rwindow
  rw [wlast_eq, window, InReceiveWindow]
  exact signed_window_iff _ _ _ (by omega) (by omega)

/-- The same with the window closed: one number is left. -/
theorem between_iff_closed (isClosed : tcb.rwindow = 0) (seq : Tcpseq) :
    (0 ≤ seqcmp seq tcb.rnext ∧
        seqcmp seq (tcb.rnext + BitVec.ofInt 32 tcb.rwindow - 1) ≤ 0) ↔
      seq = seqAt tcb.rnext (2 ^ 31 - 1) := by
  rw [wlast_eq, isClosed]
  exact signed_empty_window_iff _ _

end Window

section Test

variable {tcb : Tcb} {segment : Segment}

/-- `tcpok` with its four cases side by side. -/
theorem tcpok_cases (atLeast : TcpState.synrcvd.number ≤ tcb.state.number) (roomy : tcb.Roomy) :
    (tcpok tcb segment).1 = true ↔
      if segment.seglen = 0 then
        if tcb.rwindow = 0 then segment.seq = tcb.rnext else InReceiveWindow tcb segment.seq
      else
        if tcb.rwindow = 0 then
          segment.seq = seqAt tcb.rnext (2 ^ 31 - 1) ∨
            segment.last = seqAt tcb.rnext (2 ^ 31 - 1)
        else InReceiveWindow tcb segment.seq ∨ InReceiveWindow tcb segment.last := by
  have notBelow : ¬ tcb.state.number < TcpState.synrcvd.number := by omega
  simp only [tcpok, if_neg notBelow]
  by_cases isClosed : tcb.rwindow = 0
  · by_cases isEmpty : segment.seglen = 0
    · simp only [isClosed, isEmpty, and_self, if_true, decide_eq_true_eq]
    · simp only [isClosed, isEmpty, and_false, if_false, if_true, Bool.or_eq_true,
        decide_eq_true_eq]
      have first := between_iff_closed isClosed segment.seq
      have last := between_iff_closed isClosed segment.last
      rw [isClosed] at first last
      exact or_congr first last
  · by_cases isEmpty : segment.seglen = 0
    · simp only [isClosed, isEmpty, false_and, if_false, if_true, decide_eq_true_eq]
      exact between_iff_open roomy isClosed segment.seq
    · simp only [isClosed, isEmpty, false_and, if_false, Bool.or_eq_true, decide_eq_true_eq]
      exact or_congr (between_iff_open roomy isClosed segment.seq)
        (between_iff_open roomy isClosed segment.last)

/-- A segment without sequence space is handed on as it came. -/
theorem tcpok_keeps_empty (isEmpty : segment.seglen = 0) : (tcpok tcb segment).2 = segment := by
  simp only [tcpok, isEmpty]
  split
  · rfl
  · split
    · rfl
    · rfl

/-- Data octets are cut off at a closed window, whatever the verdict. -/
theorem tcpok_strips (atLeast : TcpState.synrcvd.number ≤ tcb.state.number)
    (occupies : segment.seglen ≠ 0) :
    (tcpok tcb segment).2 =
      if tcb.rwindow = 0 then
        { segment with tcpData := segment.tcpData.take (segment.hlen - tcpmhlen) }
      else segment := by
  have notBelow : ¬ tcb.state.number < TcpState.synrcvd.number := by omega
  simp only [tcpok, if_neg notBelow, occupies, and_false, if_false]

/-- Acceptance is right exactly when no end of the segment is the number half the space
away from a closed window. -/
theorem tcpok_accepts_rightly_iff (tcb : Tcb) (segment : Segment)
    (atLeast : TcpState.synrcvd.number ≤ tcb.state.number) (roomy : tcb.Roomy) :
    AcceptsRightly tcb segment ↔ ¬ FarAtClosedWindow tcb segment := by
  have verdict := @tcpok_cases tcb segment atLeast roomy
  constructor
  · intro rightly far
    rcases far with ⟨isClosed, occupies, reaches⟩
    rw [if_neg occupies, if_pos isClosed] at verdict
    exact occupies (rightly.empty (verdict.mpr reaches) isClosed).1
  · intro near
    by_cases isEmpty : segment.seglen = 0
    · constructor
      · rw [verdict, Acceptable, if_pos isEmpty, if_pos isEmpty]
        simp only [roomy.full_iff]
      · intro accepted isClosed
        rw [tcpok_keeps_empty isEmpty]
        exact ⟨isEmpty, isEmpty⟩
    · have refused : tcb.rwindow = 0 → ¬ (tcpok tcb segment).1 = true := by
        intro isClosed accepted
        rw [verdict, if_neg isEmpty, if_pos isClosed] at accepted
        exact near ⟨isClosed, isEmpty, accepted⟩
      constructor
      · by_cases isClosed : tcb.rwindow = 0
        · have full := roomy.full_iff.mp isClosed
          simp only [Acceptable, if_neg isEmpty, if_pos full]
          exact iff_of_false (refused isClosed) id
        · have notFull : ¬ tcb.rbcount = tcb.rbsize := fun full =>
            isClosed (roomy.full_iff.mpr full)
          rw [verdict, Acceptable, if_neg isEmpty, if_neg isEmpty, if_neg isClosed,
            if_neg notFull]
      · intro accepted isClosed
        exact absurd accepted (refused isClosed)

end Test

/-- A connection whose receive buffer is full. -/
def fullTcb : Tcb :=
  { state := .established, rbcount := BitVec.ofNat 32 tcprbs, sbcount := 0 }

theorem full_tcb_roomy : fullTcb.Roomy :=
  { count_le := by decide
    size_le := by decide }

/-- One octet half the space ahead of `rnext`. -/
def farSegment : Segment := { seq := 0x7fffffff, code := { ack := true }, tcpData := [7] }

theorem tcpok_accepts_far_segment :
    ¬ ∀ (tcb : Tcb) (segment : Segment), TcpState.synrcvd.number ≤ tcb.state.number →
      tcb.Roomy → segment.WellFormed → AcceptsRightly tcb segment := by
  intro always
  have rightly := always fullTcb farSegment (by decide) full_tcb_roomy (by decide)
  have occupied := (rightly.empty (by decide) (by decide)).1
  exact absurd occupied (by decide)

theorem tcpok_accepts_rightly_at_next :
    AcceptsRightly fullTcb { seq := 0, code := { ack := true } } :=
  (tcpok_accepts_rightly_iff _ _ (by decide) full_tcb_roomy).mpr
    (fun far => absurd far.2.1 (by decide))

/-- One acknowledgement went out, of the next octet expected, and nothing else. -/
structure AcknowledgedOnce (before : Conn) (segment : Segment) (after : Conn) : Prop where
  replied : ∃ reply, after.trace.replies = before.trace.replies ++ [reply] ∧
    reply.dst = segment.src ∧ reply.seq = before.tcb.snext ∧ reply.ack = before.tcb.rnext ∧
    reply.code = { ack := true }
  sends : after.trace.sends = before.trace.sends

/-- `tcpok` has cut the segment down to its header, so that `tcpackit` takes it for a
duplicate acknowledgement. -/
def StrippedProbe (tcb : Tcb) (segment : Segment) : Prop :=
  tcb.rwindow = 0 ∧ segment.code.syn = false ∧ segment.code.fin = false

theorem tcpackit_answers (conn : Conn) (segment : Segment) (notRst : segment.code.rst = false)
    (occupies : 0 < segment.datalen ∨ segment.code.syn = true ∨ segment.code.fin = true) :
    AcknowledgedOnce conn segment (tcpackit conn segment) := by
  have notDuplicate : ¬ (segment.datalen ≤ 0 ∧ (!segment.code.syn) = true ∧
      (!segment.code.fin) = true) := by
    intro duplicate
    rcases duplicate with ⟨noData, noSyn, noFin⟩
    rcases occupies with data | syn | fin
    · omega
    · simp [syn] at noSyn
    · simp [fin] at noFin
  simp only [tcpackit, notRst, Bool.false_eq_true, if_false, if_neg notDuplicate]
  constructor
  · exact ⟨_, rfl, rfl, rfl, rfl, rfl⟩
  · rfl

theorem tcpackit_ignores (conn : Conn) (segment : Segment) (noData : segment.datalen ≤ 0)
    (noSyn : segment.code.syn = false) (noFin : segment.code.fin = false) :
    tcpackit conn segment = conn := by
  simp [tcpackit, noData, noSyn, noFin]

/-- Nothing is left behind the options of a stripped segment. -/
theorem stripped_datalen (segment : Segment) (wellFormed : segment.WellFormed) :
    ({ segment with tcpData := segment.tcpData.take (segment.hlen - tcpmhlen) } :
      Segment).datalen = 0 := by
  rcases wellFormed with ⟨low, high, size⟩
  show ((tcpmhlen + (segment.tcpData.take (segment.hlen - tcpmhlen)).length : Nat) : Int) -
    segment.hlen = 0
  rw [List.length_take]
  omega

theorem tcpinp_of_refused (conn : Conn) (inbound : Inbound)
    (atLeast : TcpState.synrcvd.number ≤ conn.tcb.state.number)
    (refused : (tcpok conn.tcb inbound.segment).1 = false) :
    tcpinp conn inbound = some (tcpackit conn (tcpok conn.tcb inbound.segment).2) := by
  have notFree : conn.tcb.state ≠ .free := by
    intro isFree
    rw [isFree] at atLeast
    exact absurd atLeast (by decide)
  simp [tcpinp, notFree, refused]

/-- A refused segment that takes sequence space is acknowledged exactly when it did not
lose all of it to a closed window. -/
theorem tcpinp_acknowledges_refused_iff (conn : Conn) (inbound : Inbound)
    (atLeast : TcpState.synrcvd.number ≤ conn.tcb.state.number)
    (wellFormed : inbound.segment.WellFormed) (notRst : inbound.segment.code.rst = false)
    (occupies : inbound.segment.seglen ≠ 0)
    (refused : (tcpok conn.tcb inbound.segment).1 = false) :
    (∃ after, tcpinp conn inbound = some after ∧
        AcknowledgedOnce conn inbound.segment after) ↔
      ¬ StrippedProbe conn.tcb inbound.segment := by
  have answer := tcpinp_of_refused conn inbound atLeast refused
  have stripped := tcpok_strips atLeast occupies
  have noData := stripped_datalen inbound.segment wellFormed
  constructor
  · intro answered probe
    rcases answered with ⟨after, result, acknowledged⟩
    rcases probe with ⟨isClosed, noSyn, noFin⟩
    rw [if_pos isClosed] at stripped
    rw [answer, stripped, tcpackit_ignores conn _ (le_of_eq noData) noSyn noFin] at result
    rcases acknowledged.replied with ⟨reply, appended, rest⟩
    rw [← Option.some.inj result] at appended
    simp at appended
  · intro notProbe
    refine ⟨_, answer, ?_⟩
    by_cases isClosed : conn.tcb.rwindow = 0
    · have controls : inbound.segment.code.syn = true ∨ inbound.segment.code.fin = true := by
        by_contra neither
        rw [not_or, Bool.not_eq_true, Bool.not_eq_true] at neither
        exact notProbe ⟨isClosed, neither⟩
      rw [stripped, if_pos isClosed]
      have acknowledged := tcpackit_answers conn
        { inbound.segment with
          tcpData := inbound.segment.tcpData.take (inbound.segment.hlen - tcpmhlen) }
        notRst (Or.inr controls)
      exact { replied := acknowledged.replied, sends := acknowledged.sends }
    · rw [stripped, if_neg isClosed]
      apply tcpackit_answers conn inbound.segment notRst
      by_cases controls : inbound.segment.code.syn = true ∨ inbound.segment.code.fin = true
      · exact Or.inr controls
      · rw [not_or, Bool.not_eq_true, Bool.not_eq_true] at controls
        have data := (datalen_of_well_formed wellFormed).1
        rw [Segment.seglen, controls.1, controls.2] at occupies
        simp only [Bool.false_eq_true, if_false, add_zero] at occupies
        exact Or.inl (by omega)

/-- A connection with a full receive buffer. -/
def fullConn : Conn := { tcb := fullTcb, tcbnum := 0 }

/-- One octet that probes a closed window. -/
def windowProbe : Segment := { seq := 0, code := { ack := true }, tcpData := [7] }

theorem tcpinp_ignores_window_probe :
    ¬ ∀ (conn : Conn) (inbound : Inbound), TcpState.synrcvd.number ≤ conn.tcb.state.number →
      inbound.segment.WellFormed → inbound.segment.code.rst = false →
      inbound.segment.seglen ≠ 0 → (tcpok conn.tcb inbound.segment).1 = false →
      ∃ after, tcpinp conn inbound = some after ∧
        AcknowledgedOnce conn inbound.segment after := by
  intro always
  rcases always fullConn { segment := windowProbe } (by decide) (by decide) rfl
    (by decide) (by decide) with ⟨after, result, acknowledged⟩
  rcases acknowledged.replied with ⟨reply, appended, rest⟩
  have nothing : tcpinp fullConn { segment := windowProbe } =
      some (tcpackit fullConn (tcpok fullTcb windowProbe).2) :=
    tcpinp_of_refused _ _ (by decide) (by decide)
  rw [tcpackit_ignores _ _ (by decide) rfl rfl, result] at nothing
  rw [Option.some.inj nothing] at appended
  simp at appended

theorem tcpinp_acknowledges_fin_probe :
    ∃ after, tcpinp fullConn
        { segment := { seq := 0, code := { ack := true, fin := true }, tcpData := [7] } } =
        some after ∧
      AcknowledgedOnce fullConn
        { seq := 0, code := { ack := true, fin := true }, tcpData := [7] } after :=
  (tcpinp_acknowledges_refused_iff fullConn
    { segment := { seq := 0, code := { ack := true, fin := true }, tcpData := [7] } }
    (by decide) (by decide) rfl (by decide) (by decide)).mpr
    (fun probe => absurd probe.2.2 (by decide))

end MvsXinu.Tcp
