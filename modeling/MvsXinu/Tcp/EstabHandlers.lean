import MvsXinu.Tcp.EstabCount

/-!
# What the handlers add to the established-connection count

A handler adds as much as the connection's entry in the count changes by, unless the segment
revives an aborted connection.
-/

namespace MvsXinu.Tcp

open MvsXinu.Runs MvsXinu.SeqSpace MvsXinu.Locks MvsXinu.Headcount

set_option autoImplicit false

/-! ## The handlers -/

section Handlers

variable {conn after : Conn} {inbound : Inbound}

theorem Carried.current {state : TcpState} (carried : Carried conn after state) :
    after.Current ↔ (state = .established ∨ state = .closewait) ∧ conn.tcb.error = none := by
  simp only [Conn.Current, carried.state, carried.error]

theorem Steady.current (steady : Steady conn after) : after.Current ↔ conn.Current :=
  Carried.current steady

theorem Failed.current (failed : Failed conn after) : ¬ after.Current := by
  intro current
  have isSome := failed.error
  rw [current.2] at isSome
  cases isSome

/-- The states that the counter has nothing to do with. -/
def TcpState.Uncounted (state : TcpState) : Prop := state ≠ .established ∧ state ≠ .closewait

instance (state : TcpState) : Decidable state.Uncounted := inferInstanceAs (Decidable (_ ∧ _))

theorem uncounted_current (uncounted : conn.tcb.state.Uncounted) : ¬ conn.Current := by
  intro current
  rcases current.1 with isEstablished | isClosewait
  · exact uncounted.1 isEstablished
  · exact uncounted.2 isClosewait

theorem Steady.uncounted (steady : Steady conn after) (uncounted : conn.tcb.state.Uncounted) :
    after.tcb.state.Uncounted := by
  rw [steady.state]
  exact uncounted

theorem uncounted_of {state : TcpState} (same : after.tcb.state = state)
    (uncounted : state.Uncounted) : after.tcb.state.Uncounted := by
  rw [same]
  exact uncounted

theorem no_error_of_not_revives {code : Code} (fresh : ¬ conn.Revives code)
    (revives : conn.tcb.error.isSome = true → conn.Revives code) : conn.tcb.error = none := by
  cases isError : conn.tcb.error with
  | none => rfl
  | some error =>
      apply absurd (revives _) fresh
      rw [isError]
      rfl

theorem synsent_counts (found : conn.tcb.state = .synsent)
    (fresh : ¬ conn.Revives inbound.segment.code) :
    weight (tcpsynsent conn inbound).Current = switchCounts conn inbound := by
  have before : conn.tcb.state.Uncounted := by
    rw [found]
    decide
  simp only [switchCounts, found]
  split
  · rename_i refused
    have same : tcpsynsent conn inbound = tcpreset conn inbound.segment := if_pos refused
    rw [same]
    exact weight_not (uncounted_current
      ((tcpreset_steady conn inbound.segment).uncounted before))
  · rename_i accepted
    split
    · rename_i rst
      have closed : (tcpsynsent conn inbound).tcb.state = .closed := by
        simp only [tcpsynsent, if_neg accepted, if_pos rst]
        rfl
      exact weight_not (uncounted_current (uncounted_of closed (by decide)))
    · rename_i noRst
      split
      · rename_i noSyn
        have same : tcpsynsent conn inbound = conn := by
          simp only [tcpsynsent, if_neg accepted, if_neg noRst, if_pos noSyn]
        rw [same]
        exact weight_not (uncounted_current before)
      · rename_i syn
        have isSyn : inbound.segment.code.syn = true := by
          simpa using syn
        have isPlain : inbound.segment.code.rst = false := by
          simpa using noRst
        have noError : conn.tcb.error = none := by
          apply no_error_of_not_revives fresh
          intro isError
          simp only [Conn.Revives, found]
          exact ⟨isError, isSyn, isPlain⟩
        have moved : ∃ state, Carried conn (tcpsynsent conn inbound) state ∧
            (state = .synrcvd ∨ state = .established) := by
          simp only [tcpsynsent, if_neg accepted, if_neg noRst, if_neg syn]
          generalize isTaken : tcpdeliver (tcpacked _ inbound.segment).2 inbound = taken
          have steady : Steady conn taken := by
            rw [← isTaken]
            apply Steady.trans (Steady.trans _ (tcpacked_steady _ inbound.segment))
              (tcpdeliver_steady _ inbound)
            exact ⟨rfl, rfl, rfl, id⟩
          split
          · exact ⟨.synrcvd, enter_carried steady .synrcvd, Or.inl rfl⟩
          · exact ⟨.established, enter_carried steady .established, Or.inr rfl⟩
        rcases moved with ⟨state, carried, isSynrcvd | isEstablished⟩
        · rw [if_pos (carried.state.trans isSynrcvd)]
          apply weight_not
          rw [carried.current, isSynrcvd]
          intro both
          exact absurd both.1 (by decide)
        · rw [if_neg (by rw [carried.state, isEstablished]; decide)]
          apply weight_of
          rw [carried.current, isEstablished]
          exact ⟨Or.inl rfl, noError⟩

/-- `tcpsynrcvd` counts the connection in ESTABLISHED or in CLOSE_WAIT. -/
theorem tcpsynopened_carried (inbound : Inbound) {middle : Conn} (steady : Steady conn middle) :
    ∃ state, Carried conn (tcpsynopened middle inbound) state ∧
      (state = .established ∨ state = .closewait) := by
  have delivered := tcpdeliver_steady (middle.enter .established) inbound
  have moved := enter_carried steady .established
  have carried : Carried conn (tcpdeliver (middle.enter .established) inbound) .established :=
    ⟨delivered.state, delivered.error.trans moved.error, delivered.origin.trans moved.origin,
      fun due => delivered.delete (moved.delete due)⟩
  simp only [tcpsynopened]
  split
  · exact ⟨.closewait, ⟨rfl, carried.error, carried.origin, carried.delete⟩, Or.inr rfl⟩
  · exact ⟨.established, carried, Or.inl rfl⟩

theorem tcpsynopened_current {middle : Conn} (steady : Steady conn middle)
    (noError : conn.tcb.error = none) : (tcpsynopened middle inbound).Current := by
  rcases tcpsynopened_carried inbound steady with ⟨state, carried, counted⟩
  rw [carried.current]
  exact ⟨counted, noError⟩

theorem acked_of_ack {segment : Segment} (acked : (tcpacked conn segment).1 ≠ sysErr) :
    segment.code.ack = true := by
  by_contra noAck
  apply acked
  have isFalse : segment.code.ack = false := by
    simpa using noAck
  simp only [tcpacked, isFalse, Bool.not_false, if_true]

theorem synrcvd_counts (found : conn.tcb.state = .synrcvd)
    (fresh : ¬ conn.Revives inbound.segment.code) :
    weight (tcpsynrcvd conn inbound).Current = switchCounts conn inbound := by
  have before : conn.tcb.state.Uncounted := by
    rw [found]
    decide
  have acked := tcpacked_steady conn inbound.segment
  simp only [switchCounts, found, tcpsynrcvd]
  split
  · split
    · exact weight_not (uncounted_current (uncounted_of (tcbdealloc_state conn) (by decide)))
    · exact weight_not (tcpabort_failed conn .refused).current
  · rename_i noRst
    split
    · exact weight_not (tcpabort_failed _ .reset).current
    · rename_i noSyn
      split
      · exact weight_not (uncounted_current (acked.uncounted before))
      · rename_i noErr
        split
        · exact weight_not (uncounted_current (uncounted_of (tcbdealloc_state _) (by decide)))
        · have isPlain : inbound.segment.code.rst = false ∧ inbound.segment.code.syn = false := by
            simpa using And.intro noRst noSyn
          have noError : conn.tcb.error = none := by
            apply no_error_of_not_revives fresh
            intro isError
            simp only [Conn.Revives, found]
            exact ⟨isError, acked_of_ack noErr, isPlain⟩
          exact weight_of (tcpsynopened_current acked noError)

/-- RST and SYN in ESTABLISHED and CLOSE_WAIT. -/
theorem ends_counts {rest : Conn} (found : conn.tcb.state = .established ∨
    conn.tcb.state = .closewait) (fresh : ¬ conn.Revives inbound.segment.code)
    (same : (inbound.segment.code.rst || inbound.segment.code.syn) = false →
      (rest.Current ↔ conn.Current)) :
    weight ((tcpaborts conn inbound.segment).getD rest).Current =
      weight conn.Current + switchCounts conn inbound := by
  have counts : switchCounts conn inbound =
      if inbound.segment.code.rst then -1 else if inbound.segment.code.syn then -1 else 0 := by
    rcases found with isEstablished | isClosewait
    · simp only [switchCounts, isEstablished]
    · simp only [switchCounts, isClosewait]
  rw [counts]
  cases ends : inbound.segment.code.rst || inbound.segment.code.syn with
  | true =>
      have noError : conn.tcb.error = none := by
        apply no_error_of_not_revives fresh
        intro isError
        refine ⟨isError, ?_⟩
        rcases found with isEstablished | isClosewait
        · simp only [isEstablished]
          exact ends
        · simp only [isClosewait]
          exact ends
      rw [weight_not (aborts_failed conn rest inbound.segment ends).current,
        weight_of (show conn.Current from ⟨found, noError⟩)]
      split
      · rfl
      · rename_i noRst
        have syn : inbound.segment.code.syn = true :=
          (Bool.or_eq_true_iff.mp ends).resolve_left noRst
        rw [if_pos syn]
        rfl
  | false =>
      rcases no_ends ends with ⟨noRst, noSyn⟩
      rw [aborts_none conn rest inbound.segment ends, weight_congr (same ends), noRst, noSyn]
      simp only [Bool.false_eq_true, if_false, add_zero]

theorem established_counts (found : conn.tcb.state = .established)
    (fresh : ¬ conn.Revives inbound.segment.code) :
    weight (tcpestablished conn inbound).Current =
      weight conn.Current + switchCounts conn inbound := by
  simp only [tcpestablished]
  apply ends_counts (Or.inl found) fresh
  intro plain
  have handled := handled_steady conn inbound
  split
  · exact (tcpacked_steady conn inbound.segment).current
  · split
    · rw [(enter_carried handled .closewait).current]
      simp only [Conn.Current, found, true_or, or_true]
    · exact handled.current

theorem closewait_counts (found : conn.tcb.state = .closewait)
    (fresh : ¬ conn.Revives inbound.segment.code) :
    weight (tcpclosewait conn inbound).Current =
      weight conn.Current + switchCounts conn inbound := by
  simp only [tcpclosewait]
  apply ends_counts (Or.inr found) fresh
  intro plain
  exact ((tcpacked_steady conn inbound.segment).trans (tcpswindow_steady _ inbound.segment)).current

/-- Behind ESTABLISHED and CLOSE_WAIT nothing is counted again. -/
theorem Turn.uncounted {signals : Nat} (turn : Turn conn after signals)
    (uncounted : conn.tcb.state.Uncounted)
    (opened : conn.tcb.state ≠ .synsent ∧ conn.tcb.state ≠ .synrcvd) :
    after.tcb.state.Uncounted := by
  cases turn with
  | steady steady awaited => exact steady.uncounted uncounted
  | failed failed other => exact uncounted_of failed.state uncounted
  | freed freed => exact uncounted_of freed (by decide)
  | closed found closed => exact uncounted_of closed (by decide)
  | synrcvd found moved => exact absurd found opened.1
  | opened found moved opens one =>
      rcases found with isSynsent | isSynrcvd
      · exact absurd isSynsent opened.1
      · exact absurd isSynrcvd opened.2
  | closewait found moved => exact absurd found uncounted.1
  | finwait2 found moved => exact uncounted_of moved.state (by decide)
  | closing found moved => exact uncounted_of moved.state (by decide)
  | timewait found moved due => exact uncounted_of moved.state (by decide)

theorem switch_uncounted (uncounted : conn.tcb.state.Uncounted)
    (opened : conn.tcb.state ≠ .synsent ∧ conn.tcb.state ≠ .synrcvd) :
    (tcpswitch conn inbound).tcb.state.Uncounted := by
  by_cases plain : conn.tcb.state = .finwait1 ∨ conn.tcb.state = .finwait2 →
      (inbound.segment.code.rst || inbound.segment.code.syn) = false
  · have turn := switch_turn 0 (fun found => absurd found opened.1) plain
    exact turn.uncounted uncounted opened
  · have both := Classical.not_imp.mp plain
    have ends : (inbound.segment.code.rst || inbound.segment.code.syn) = true :=
      (Bool.not_eq_false _).mp both.2
    apply uncounted_of _ uncounted
    rcases both.1 with isFinwait1 | isFinwait2
    · simp only [tcpswitch, isFinwait1]
      rw [← isFinwait1]
      exact (aborts_failed conn _ inbound.segment ends).state
    · simp only [tcpswitch, isFinwait2]
      rw [← isFinwait2]
      exact (aborts_failed conn _ inbound.segment ends).state

theorem switch_counts (fresh : ¬ conn.Revives inbound.segment.code) :
    weight (tcpswitch conn inbound).Current =
      weight conn.Current + switchCounts conn inbound := by
  by_cases isSynsent : conn.tcb.state = .synsent
  · rw [weight_not (uncounted_current (uncounted_of isSynsent (by decide))), zero_add,
      ← synsent_counts isSynsent fresh]
    simp only [tcpswitch, isSynsent]
  · by_cases isSynrcvd : conn.tcb.state = .synrcvd
    · rw [weight_not (uncounted_current (uncounted_of isSynrcvd (by decide))), zero_add,
        ← synrcvd_counts isSynrcvd fresh]
      simp only [tcpswitch, isSynrcvd]
    · by_cases isEstablished : conn.tcb.state = .established
      · rw [← established_counts isEstablished fresh]
        simp only [tcpswitch, isEstablished]
      · by_cases isClosewait : conn.tcb.state = .closewait
        · rw [← closewait_counts isClosewait fresh]
          simp only [tcpswitch, isClosewait]
        · have uncounted : conn.tcb.state.Uncounted := ⟨isEstablished, isClosewait⟩
          have none : switchCounts conn inbound = 0 := by
            simp only [switchCounts]
          rw [weight_not (uncounted_current uncounted), weight_not (uncounted_current
            (switch_uncounted uncounted ⟨isSynsent, isSynrcvd⟩)), none, add_zero]

end Handlers

end MvsXinu.Tcp
