import MvsXinu.Tcp.SendGauge
import MvsXinu.Tcp.PeerWindow

/-!
# The urgent pointer of the send side

A run with the sequence number of the last octet of the last urgent write beside it, until that
octet is acknowledged. `tcpwr` takes `snext` for the end of the buffer, `tcpacked` clears
`TCBF_SUPOK` on an acknowledgement of the octet before, and `tcpsend` squeezes the distance into
16 bits; the property holds along exactly those runs where none of this makes a difference.
-/

namespace MvsXinu.Tcp

open MvsXinu.SeqSpace

set_option autoImplicit false

/-- Sequence number behind the octets buffered. -/
def Tcb.storedEnd (tcb : Tcb) : Tcpseq :=
  tcb.suna + (if tcb.code.syn then 1 else 0) + tcb.sbcount

/-- A run, the octet that urgent segments should point at, and what was to be pointed at when
each segment was sent. -/
structure Urging where
  conn : Conn
  urgent : Option Tcpseq := none
  marks : List ((Tcb × Bool) × Option Tcpseq) := []

/-- The octet is acknowledged by a step that moves `suna`. -/
def covers (before after octet : Tcpseq) : Bool :=
  decide (after ≠ before) && decide (0 < seqcmp after octet)

def Urging.next (run : Urging) (event : Event) : Option Tcpseq :=
  let left := run.urgent.filter fun octet =>
    !covers run.conn.tcb.suna (connStep run.conn event).tcb.suna octet
  match event with
  | .resume index =>
      match run.conn.stores index with
      | some (octets, true) =>
          some (run.conn.tcb.storedEnd + BitVec.ofNat 32 octets.length - 1)
      | _ => left
  | _ => left

def urgStep (run : Urging) (event : Event) : Urging where
  conn := connStep run.conn event
  urgent := run.next event
  marks := run.marks ++ (newSends run.conn event).map fun send => (send, run.urgent)

/-- A segment that starts at the urgent octet or before it points at it. -/
def Designates (mark : (Tcb × Bool) × Option Tcpseq) : Prop :=
  let tcb := mark.1.1
  let segment := tcpsegment tcb mark.1.2
  tcb.flags.supok = true → seqcmp segment.seq tcb.supseq ≤ 0 →
    segment.code.urg = true ∧ mark.2 = some (segment.seq + segment.urgptr.setWidth 32)

/-- Every segment so far pointed where it should, and `supseq` is the urgent octet until it is
acknowledged. -/
structure Pointed (run : Urging) : Prop where
  marks : ∀ mark ∈ run.marks, Designates mark
  kept : ∀ octet, run.urgent = some octet →
    run.conn.tcb.flags.supok = true ∧ run.conn.tcb.supseq = octet

/-- Everything before an urgent write has been sent; no acknowledgement ends just before the
urgent octet; and no segment that should point at it starts `2 ^ 15` before it or earlier. -/
structure PointsRight (run : Urging) (event : Event) : Prop where
  written : ∀ index octets, event = .resume index →
    run.conn.stores index = some (octets, true) → run.conn.tcb.snext = run.conn.tcb.storedEnd
  looked : ∀ look ∈ newAcks run.conn event, run.conn.tcb.flags.supok = true →
    AcksNew look.1 look.2 → look.2.ack ≠ run.conn.tcb.supseq
  near : ∀ send ∈ newSends run.conn event, send.1.flags.supok = true →
    seqcmp (tcpsendseq send.1 send.2) send.1.supseq ≤ 0 →
    (send.1.supseq - tcpsendseq send.1 send.2).toNat < 2 ^ 15

/-- The write of the event, if it is an urgent one, finds everything sent. -/
def WrittenRight (run : Urging) : Event → Prop
  | .resume index =>
      ((run.conn.stores index).any fun write => write.2) = true →
        run.conn.tcb.snext = run.conn.tcb.storedEnd
  | _ => True

instance (run : Urging) (event : Event) : Decidable (WrittenRight run event) :=
  match event with
  | .resume _ => inferInstanceAs (Decidable (_ → _))
  | .segment _ | .output _ | .tick _ | .clock _ | .write _ _ | .close | .closeEnd | .read _
  | .option _ _ _ | .otherKick _ _ | .otherSet _ _ | .otherClear _ => .isTrue trivial

theorem written_right_iff (run : Urging) (event : Event) :
    WrittenRight run event ↔ ∀ index octets, event = .resume index →
      run.conn.stores index = some (octets, true) →
      run.conn.tcb.snext = run.conn.tcb.storedEnd := by
  constructor
  · intro right index octets resume stored
    rw [resume, WrittenRight, stored] at right
    exact right rfl
  · intro written
    cases event with
    | resume index =>
        intro urgent
        cases stored : run.conn.stores index with
        | none =>
            rw [stored] at urgent
            cases urgent
        | some write =>
            rcases write with ⟨octets, isurg⟩
            rw [stored] at urgent
            have set : isurg = true := urgent
            rw [set] at stored
            exact written index octets rfl stored
    | _ => trivial

instance (run : Urging) (event : Event) : Decidable (PointsRight run event) :=
  decidable_of_iff (WrittenRight run event ∧
      (∀ look ∈ newAcks run.conn event, run.conn.tcb.flags.supok = true →
        AcksNew look.1 look.2 → look.2.ack ≠ run.conn.tcb.supseq) ∧
      ∀ send ∈ newSends run.conn event, send.1.flags.supok = true →
        seqcmp (tcpsendseq send.1 send.2) send.1.supseq ≤ 0 →
        (send.1.supseq - tcpsendseq send.1 send.2).toNat < 2 ^ 15)
    ⟨fun ⟨written, looked, near⟩ => ⟨(written_right_iff run event).mp written, looked, near⟩,
      fun right => ⟨(written_right_iff run event).mpr right.written, right.looked, right.near⟩⟩

/-- `supseq` is the urgent octet while `TCBF_SUPOK` is set. -/
structure Urged (run : Urging) : Prop where
  marks : ∀ mark ∈ run.marks, Designates mark
  urgent : run.urgent = if run.conn.tcb.flags.supok then some run.conn.tcb.supseq else none

theorem Urged.pointed {run : Urging} (urged : Urged run) : Pointed run := by
  constructor
  · exact urged.marks
  · intro octet isUrgent
    rw [urged.urgent] at isUrgent
    split at isUrgent
    · rename_i flag
      exact ⟨flag, Option.some.inj isUrgent⟩
    · cases isUrgent

section Sends

/-- The 16 bits hold a distance below `2 ^ 15` and no other. -/
theorem narrow_distance (distance : Word) :
    (0 ≤ (distance.setWidth 16).toInt ∧ (distance.setWidth 16).setWidth 32 = distance) ↔
      distance.toNat < 2 ^ 15 := by
  have value : (distance.setWidth 16).toNat = distance.toNat % 2 ^ 16 := BitVec.toNat_setWidth _ _
  have signed := BitVec.toInt_eq_toNat_cond (distance.setWidth 16)
  have wide : (distance.setWidth 16).setWidth 32 = distance ↔
      distance.toNat % 2 ^ 16 = distance.toNat := by
    rw [← BitVec.toNat_inj, BitVec.toNat_setWidth, value]
    omega
  rw [wide]
  split at signed <;> omega

theorem segment_urgent (tcb : Tcb) (rexmt : Bool) (flag : tcb.flags.supok = true) :
    (tcpsegment tcb rexmt).urgptr =
        (if 0 ≤ ((tcb.supseq - tcpsendseq tcb rexmt).setWidth 16).toInt then
          (tcb.supseq - tcpsendseq tcb rexmt).setWidth 16 else 0) ∧
      (0 ≤ ((tcb.supseq - tcpsendseq tcb rexmt).setWidth 16).toInt →
        (tcpsegment tcb rexmt).code.urg = true) := by
  simp only [tcpsegment, tcpsendurg, flag, true_and]
  constructor
  · split <;> rfl
  · intro fits
    rw [if_pos fits, Option.isSome_some, Bool.or_true]

/-- The pointer of a segment is right exactly when the distance fits. -/
theorem designates_iff (send : Tcb × Bool) (flag : send.1.flags.supok = true)
    (before : seqcmp (tcpsendseq send.1 send.2) send.1.supseq ≤ 0) :
    Designates (send, some send.1.supseq) ↔
      (send.1.supseq - tcpsendseq send.1 send.2).toNat < 2 ^ 15 := by
  rcases segment_urgent send.1 send.2 flag with ⟨pointer, bit⟩
  have narrow := narrow_distance (send.1.supseq - tcpsendseq send.1 send.2)
  have whole : tcpsendseq send.1 send.2 + (send.1.supseq - tcpsendseq send.1 send.2) =
      send.1.supseq := by
    grind
  rw [← narrow]
  constructor
  · intro designates
    rcases designates flag before with ⟨_, octet⟩
    have points : send.1.supseq = tcpsendseq send.1 send.2 +
        (tcpsegment send.1 send.2).urgptr.setWidth 32 := Option.some.inj octet
    rw [pointer] at points
    split at points
    · rename_i fits
      refine ⟨fits, ?_⟩
      generalize ((send.1.supseq - tcpsendseq send.1 send.2).setWidth 16).setWidth 32 = octets
        at points ⊢
      grind
    · have same : send.1.supseq - tcpsendseq send.1 send.2 = 0 := by
        rw [points]
        simp
      rw [same]
      decide
  · rintro ⟨fits, same⟩ _ _
    refine ⟨bit fits, ?_⟩
    show some send.1.supseq = some (tcpsendseq send.1 send.2 +
      (tcpsegment send.1 send.2).urgptr.setWidth 32)
    rw [pointer, if_pos fits, same, whole]

end Sends

section Steps

variable {run : Urging} {event : Event}

theorem no_new_sends {conn : Conn}
    (same : (connStep conn event).trace.sends = conn.trace.sends) : newSends conn event = [] := by
  rw [newSends, same, List.drop_length]

theorem nothing_covered {suna : Tcpseq} (urgent : Option Tcpseq) :
    (urgent.filter fun octet => !covers suna suna octet) = urgent := by
  cases urgent with
  | none => rfl
  | some octet => simp [covers]

/-- What matters of a step for the urgent octet. -/
structure SameUrgency (before after : Tcb) : Prop where
  suna : after.suna = before.suna
  supok : after.flags.supok = before.flags.supok
  supseq : after.supseq = before.supseq

theorem SameUrgency.trans {before middle after : Tcb} (first : SameUrgency before middle)
    (second : SameUrgency middle after) : SameUrgency before after where
  suna := second.suna.trans first.suna
  supok := second.supok.trans first.supok
  supseq := second.supseq.trans first.supseq

theorem SameUrgency.of_gauge {before after : Tcb} {gauge : Gauge} (same : after.gauge = gauge)
    (suna : gauge.suna = before.suna) (supok : gauge.supok = before.flags.supok)
    (supseq : gauge.supseq = before.supseq) : SameUrgency before after where
  suna := (congrArg Gauge.suna same).trans suna
  supok := (congrArg Gauge.supok same).trans supok
  supseq := (congrArg Gauge.supseq same).trans supseq

theorem windowed_urgency {before after : Conn} (window : Windowed before.readings after.readings) :
    SameUrgency before.tcb after.tcb ∧ after.trace.sends = before.trace.sends ∧
      after.trace.acks = before.trace.acks := by
  rcases window with ⟨swindow, ostate, same, _⟩
  exact ⟨SameUrgency.of_gauge (congrArg Readings.gauge same) rfl rfl rfl,
    congrArg Readings.sends same, congrArg Readings.acks same⟩

theorem paced_urgency {before after : Tcb} (paced : Paced before.gauge after.gauge) :
    SameUrgency before after := by
  rcases paced with ⟨_, _, _, _, same, _⟩
  exact SameUrgency.of_gauge same rfl rfl rfl

/-- An event that changes nothing about the urgent octet, and stores no urgent one. -/
theorem next_same (same : SameUrgency run.conn.tcb (connStep run.conn event).tcb)
    (plain : ∀ index octets, event = .resume index →
      run.conn.stores index ≠ some (octets, true)) : run.next event = run.urgent := by
  have left : (run.urgent.filter fun octet =>
      !covers run.conn.tcb.suna (connStep run.conn event).tcb.suna octet) = run.urgent := by
    rw [same.suna]
    exact nothing_covered run.urgent
  simp only [Urging.next, left]
  split
  · rename_i index
    split
    · rename_i octets stored
      exact absurd stored (plain index octets rfl)
    · rfl
  · rfl

theorem urgent_same (urged : Urged run)
    (same : SameUrgency run.conn.tcb (connStep run.conn event).tcb)
    (plain : ∀ index octets, event = .resume index →
      run.conn.stores index ≠ some (octets, true)) :
    (urgStep run event).urgent = if (urgStep run event).conn.tcb.flags.supok then
      some (urgStep run event).conn.tcb.supseq else none := by
  show run.next event = if (connStep run.conn event).tcb.flags.supok then
    some (connStep run.conn event).tcb.supseq else none
  rw [next_same same plain, same.supok, same.supseq]
  exact urged.urgent

/-- The marks of the sends of one step. -/
theorem marks_step (urged : Urged run)
    (marked : ∀ send ∈ newSends run.conn event, Designates (send, run.urgent)) :
    ∀ mark ∈ (urgStep run event).marks, Designates mark := by
  intro mark member
  rcases List.mem_append.mp member with old | new
  · exact urged.marks mark old
  · rcases List.mem_map.mp new with ⟨send, sent, rfl⟩
    exact marked send sent

theorem marks_quiet (urged : Urged run)
    (same : (connStep run.conn event).trace.sends = run.conn.trace.sends) :
    ∀ mark ∈ (urgStep run event).marks, Designates mark := by
  apply marks_step urged
  rw [no_new_sends same]
  intro send none
  exact absurd none List.not_mem_nil

/-- The one acknowledgement that a segment has looked at. -/
structure Looked (conn after : Conn) (look : Tcb × Segment) : Prop where
  suna : look.1.suna = conn.tcb.suna
  other : ¬ AcksNew look.1 look.2 → SameUrgency conn.tcb after.tcb
  moved : AcksNew look.1 look.2 → after.tcb.suna = look.2.ack
  supseq : after.tcb.supseq = conn.tcb.supseq
  cleared : AcksNew look.1 look.2 → after.tcb.flags.supok =
    (conn.tcb.flags.supok && !decide (0 ≤ seqcmp look.2.ack conn.tcb.supseq))

theorem timed_urgency (tcb : Tcb) (roundTrip : Option Int) :
    SameUrgency tcb (tcb.timed roundTrip) := by
  simp only [Tcb.timed]
  split
  · exact ⟨rfl, rfl, rfl⟩
  · split <;> exact ⟨rfl, rfl, rfl⟩

theorem acked_looked {conn start middle : Conn} {segment : Segment}
    (before : SameUrgency conn.tcb start.tcb) (looked : Acked start segment middle.readings) :
    Looked conn middle (start.tcb, segment) := by
  have timed := timed_urgency start.tcb start.roundTrip
  by_cases acceptable : AcksNew start.tcb segment
  · rcases looked.accepted acceptable with ⟨ostate, rexmtcount, _, gauge⟩
    have supok : middle.tcb.flags.supok = ((start.tcb.timed start.roundTrip).flags.supok &&
        !decide (0 ≤ seqcmp segment.ack (start.tcb.timed start.roundTrip).supseq)) :=
      congrArg Gauge.supok gauge
    have supseq : middle.tcb.supseq = (start.tcb.timed start.roundTrip).supseq :=
      congrArg Gauge.supseq gauge
    have suna : middle.tcb.suna = segment.ack := congrArg Gauge.suna gauge
    constructor
    · exact before.suna
    · intro other
      exact absurd acceptable other
    · intro _
      exact suna
    · rw [supseq, timed.supseq, before.supseq]
    · intro _
      rw [supok, timed.supok, timed.supseq, before.supok, before.supseq]
  · have gauge : middle.tcb.gauge = start.tcb.gauge := looked.other acceptable
    have same : SameUrgency conn.tcb middle.tcb :=
      SameUrgency.of_gauge gauge before.suna before.supok before.supseq
    constructor
    · exact before.suna
    · intro _
      exact same
    · intro accepted
      exact absurd accepted acceptable
    · exact same.supseq
    · intro accepted
      exact absurd accepted acceptable

/-- A segment sends nothing and has at most one acknowledgement looked at. -/
theorem segment_urgency (conn : Conn) (inbound : Inbound) :
    (connStep conn (.segment inbound)).trace.sends = conn.trace.sends ∧
      ((newAcks conn (.segment inbound) = [] ∧
          SameUrgency conn.tcb (connStep conn (.segment inbound)).tcb) ∨
        ∃ look, newAcks conn (.segment inbound) = [look] ∧
          Looked conn (connStep conn (.segment inbound)) look) := by
  rcases segment_handled conn inbound with same | ⟨read, ended, handled⟩
  · exact ⟨congrArg Readings.sends same, Or.inl ⟨no_new_acks (congrArg Readings.acks same),
      SameUrgency.of_gauge (congrArg Readings.gauge same) rfl rfl rfl⟩⟩
  · rcases tcpopts_smss conn.tcb _ read ended with ⟨smss, options⟩
    have read_same : SameUrgency conn.tcb read.1 := by
      rw [options]
      exact ⟨rfl, rfl, rfl⟩
    cases handled with
    | aside same =>
        rcases windowed_urgency same with ⟨urgency, sends, acks⟩
        exact ⟨sends, Or.inl ⟨no_new_acks acks, read_same.trans urgency⟩⟩
    | acked start middle opened ostate clock flag looked closed =>
        rcases windowed_urgency opened with ⟨first, sends, acks⟩
        rcases windowed_urgency closed with ⟨last, lastSends, lastAcks⟩
        have found := acked_looked (read_same.trans first) looked
        refine ⟨lastSends.trans (looked.sends.trans sends),
          Or.inr ⟨(start.tcb, read.2.segment), ?_, ?_⟩⟩
        · have listed : (connStep conn (.segment inbound)).trace.acks =
              conn.trace.acks ++ [(start.tcb, read.2.segment)] := by
            rw [lastAcks, ← acks]
            exact looked.acks
          rw [newAcks, listed, List.drop_left]
        · constructor
          · exact found.suna
          · intro other
            exact (found.other other).trans last
          · intro acceptable
            exact last.suna.trans (found.moved acceptable)
          · exact last.supseq.trans found.supseq
          · intro acceptable
            exact last.supok.trans (found.cleared acceptable)

/-- While the flag is set, the octet is left behind by an acceptable acknowledgement exactly if
the flag is cleared, unless the acknowledgement stops at the octet. -/
theorem covers_iff_cleared (look : Tcb × Segment) (suna supseq : Tcpseq)
    (same : look.1.suna = suna) (acceptable : AcksNew look.1 look.2)
    (apart : look.2.ack ≠ supseq) :
    covers suna look.2.ack supseq = decide (0 ≤ seqcmp look.2.ack supseq) := by
  have moved : look.2.ack ≠ suna := by
    intro still
    have new := acceptable.1
    rw [same, still, seqcmp, signed_dist_self] at new
    omega
  have notSame : seqcmp look.2.ack supseq ≠ 0 := by
    intro zero
    exact apart ((signed_dist_eq_zero _ _).mp zero)
  simp only [covers, ne_eq, moved, not_false_eq_true, decide_true, Bool.true_and]
  apply decide_eq_decide.mpr
  omega

theorem segment_urged (inbound : Inbound) (urged : Urged run)
    (right : PointsRight run (.segment inbound)) : Urged (urgStep run (.segment inbound)) := by
  rcases segment_urgency run.conn inbound with ⟨sends, ⟨_, same⟩ | ⟨look, listed, looked⟩⟩
  · constructor
    · exact marks_quiet urged sends
    · exact urgent_same urged same (by simp)
  · constructor
    · exact marks_quiet urged sends
    · by_cases acceptable : AcksNew look.1 look.2
      · show (run.urgent.filter fun octet => !covers run.conn.tcb.suna
            (connStep run.conn (.segment inbound)).tcb.suna octet) =
          if (connStep run.conn (.segment inbound)).tcb.flags.supok then
            some (connStep run.conn (.segment inbound)).tcb.supseq else none
        rw [looked.moved acceptable, looked.cleared acceptable, looked.supseq, urged.urgent]
        cases flag : run.conn.tcb.flags.supok with
        | false => rfl
        | true =>
            have apart := right.looked look (by rw [listed]; exact List.mem_singleton_self _) flag
              acceptable
            simp only [if_true, Option.filter_some, Bool.true_and,
              covers_iff_cleared look _ _ looked.suna acceptable apart]
      · exact urgent_same urged (looked.other acceptable) (by simp)

theorem segment_right (inbound : Inbound) (urged : Urged run)
    (pointed : Pointed (urgStep run (.segment inbound))) :
    PointsRight run (.segment inbound) := by
  rcases segment_urgency run.conn inbound with ⟨sends, found⟩
  constructor
  · intro index octets event
    cases event
  · intro look member flag acceptable stops
    rcases found with ⟨none, _⟩ | ⟨other, listed, looked⟩
    · rw [none] at member
      exact absurd member List.not_mem_nil
    · rw [listed, List.mem_singleton] at member
      rw [member] at acceptable stops
      have urgent : run.urgent = some run.conn.tcb.supseq := by
        rw [urged.urgent, flag, if_pos rfl]
      have left : (urgStep run (.segment inbound)).urgent = some run.conn.tcb.supseq := by
        show (run.urgent.filter fun octet => !covers run.conn.tcb.suna
            (connStep run.conn (.segment inbound)).tcb.suna octet) = _
        rw [urgent, looked.moved acceptable, stops, Option.filter_some]
        simp [covers, seqcmp]
      have stays := (pointed.kept _ left).1
      have cleared : (connStep run.conn (.segment inbound)).tcb.flags.supok = false := by
        rw [looked.cleared acceptable, stops]
        simp [seqcmp]
      have clash := cleared.symm.trans stays
      cases clash
  · intro send member
    rw [no_new_sends sends] at member
    exact absurd member List.not_mem_nil

theorem output_sends (conn : Conn) (fuel : Nat) :
    ∀ send ∈ newSends conn (.output fuel), SameUrgency conn.tcb send.1 := by
  have emitting := output_emitting conn fuel
  rcases emitting.sends with ⟨new, sent, paced⟩
  intro send member
  rw [newSends, sent, List.drop_left] at member
  exact paced_urgency (paced send member)

/-- The segments of one step point right exactly if they start near enough. -/
theorem output_marked_iff (fuel : Nat) (urged : Urged run) :
    (∀ send ∈ newSends run.conn (.output fuel), Designates (send, run.urgent)) ↔
      ∀ send ∈ newSends run.conn (.output fuel), send.1.flags.supok = true →
        seqcmp (tcpsendseq send.1 send.2) send.1.supseq ≤ 0 →
        (send.1.supseq - tcpsendseq send.1 send.2).toNat < 2 ^ 15 := by
  have urgent : ∀ send ∈ newSends run.conn (.output fuel), send.1.flags.supok = true →
      run.urgent = some send.1.supseq := by
    intro send member flag
    have same := output_sends run.conn fuel send member
    rw [urged.urgent, ← same.supok, flag, if_pos rfl, same.supseq]
  constructor
  · intro marked send member flag before
    have mark := marked send member
    rw [urgent send member flag] at mark
    exact (designates_iff send flag before).mp mark
  · intro near send member flag before
    have mark := (designates_iff send flag before).mpr (near send member flag before)
    rw [urgent send member flag]
    exact mark flag before

theorem output_urged (fuel : Nat) (urged : Urged run)
    (right : PointsRight run (.output fuel)) : Urged (urgStep run (.output fuel)) := by
  have emitting := output_emitting run.conn fuel
  constructor
  · exact marks_step urged ((output_marked_iff fuel urged).mpr right.near)
  · exact urgent_same urged (paced_urgency emitting.gauge) (by simp)

theorem output_right (fuel : Nat) (urged : Urged run)
    (pointed : Pointed (urgStep run (.output fuel))) : PointsRight run (.output fuel) := by
  have emitting := output_emitting run.conn fuel
  constructor
  · intro index octets event
    cases event
  · intro look member
    rw [no_new_acks emitting.acks] at member
    exact absurd member List.not_mem_nil
  · apply (output_marked_iff fuel urged).mp
    intro send member
    apply pointed.marks (send, run.urgent)
    exact List.mem_append_right _ (List.mem_map_of_mem member)

/-- An event without sends and acknowledgements is right if its write is. -/
theorem quiet_right (sends : (connStep run.conn event).trace.sends = run.conn.trace.sends)
    (acks : (connStep run.conn event).trace.acks = run.conn.trace.acks)
    (written : ∀ index octets, event = .resume index →
      run.conn.stores index = some (octets, true) → run.conn.tcb.snext = run.conn.tcb.storedEnd) :
    PointsRight run event := by
  constructor
  · exact written
  · intro look member
    rw [no_new_acks acks] at member
    exact absurd member List.not_mem_nil
  · intro send member
    rw [no_new_sends sends] at member
    exact absurd member List.not_mem_nil

theorem resume_sends (conn : Conn) (index : Nat) :
    (connStep conn (.resume index)).trace.sends = conn.trace.sends ∧
      (connStep conn (.resume index)).trace.acks = conn.trace.acks := by
  have readings := stores_readings conn index
  split at readings <;> exact ⟨congrArg Readings.sends readings, congrArg Readings.acks readings⟩

/-- The last octet of an urgent write, as `tcpwr` has it and as it is. -/
theorem urgent_write (index : Nat) (octets : List Octet)
    (stored : run.conn.stores index = some (octets, true)) :
    (connStep run.conn (.resume index)).tcb.flags.supok = true ∧
      (connStep run.conn (.resume index)).tcb.supseq =
        run.conn.tcb.snext + BitVec.ofNat 32 octets.length - 1 ∧
      (urgStep run (.resume index)).urgent =
        some (run.conn.tcb.storedEnd + BitVec.ofNat 32 octets.length - 1) := by
  have readings := stores_readings run.conn index
  rw [stored] at readings
  refine ⟨?_, congrArg (fun readings => readings.gauge.supseq) readings, ?_⟩
  · have flag := congrArg (fun readings => readings.gauge.supok) readings
    simp only [Bool.or_true] at flag
    exact flag
  · show run.next (.resume index) = _
    simp only [Urging.next, stored]

theorem plain_write (index : Nat)
    (plain : ∀ octets, run.conn.stores index ≠ some (octets, true)) :
    SameUrgency run.conn.tcb (connStep run.conn (.resume index)).tcb := by
  have readings := stores_readings run.conn index
  cases stored : run.conn.stores index with
  | none =>
      rw [stored] at readings
      exact SameUrgency.of_gauge (congrArg Readings.gauge readings) rfl rfl rfl
  | some write =>
      rcases write with ⟨octets, isurg⟩
      cases isurg with
      | true => exact absurd stored (plain octets)
      | false =>
          rw [stored] at readings
          refine SameUrgency.of_gauge (congrArg Readings.gauge readings) rfl ?_ rfl
          exact Bool.or_false _

theorem resume_urged (index : Nat) (urged : Urged run)
    (right : PointsRight run (.resume index)) : Urged (urgStep run (.resume index)) := by
  constructor
  · exact marks_quiet urged (resume_sends run.conn index).1
  · by_cases urgent : ∃ octets, run.conn.stores index = some (octets, true)
    · rcases urgent with ⟨octets, stored⟩
      rcases urgent_write index octets stored with ⟨supok, supseq, next⟩
      rw [next]
      show _ = if (connStep run.conn (.resume index)).tcb.flags.supok then
        some (connStep run.conn (.resume index)).tcb.supseq else none
      rw [supok, if_pos rfl, supseq, right.written index octets rfl stored]
    · have plain : ∀ octets, run.conn.stores index ≠ some (octets, true) := by
        intro octets stored
        exact urgent ⟨octets, stored⟩
      apply urgent_same urged (plain_write index plain)
      intro other octets event
      cases event
      exact plain octets

theorem resume_right (index : Nat) (pointed : Pointed (urgStep run (.resume index))) :
    PointsRight run (.resume index) := by
  rcases resume_sends run.conn index with ⟨sends, acks⟩
  apply quiet_right sends acks
  intro other octets event stored
  cases event
  rcases urgent_write index octets stored with ⟨_, supseq, next⟩
  have last : (connStep run.conn (.resume index)).tcb.supseq = _ := (pointed.kept _ next).2
  rw [supseq] at last
  grind

theorem idle_urged (idle : event.Idle) (urged : Urged run) : Urged (urgStep run event) := by
  have readings := idle_readings run.conn event idle
  constructor
  · exact marks_quiet urged (congrArg Readings.sends readings)
  · apply urgent_same urged (SameUrgency.of_gauge (congrArg Readings.gauge readings) rfl rfl rfl)
    intro index octets resume
    rw [resume] at idle
    exact absurd idle id

theorem idle_right (idle : event.Idle) : PointsRight run event := by
  have readings := idle_readings run.conn event idle
  apply quiet_right (congrArg Readings.sends readings) (congrArg Readings.acks readings)
  intro index octets resume
  rw [resume] at idle
  exact absurd idle id

/-- The event is one of the three that matter, or idle. -/
theorem urg_step (urged : Urged run) (right : PointsRight run event) :
    Urged (urgStep run event) := by
  cases event with
  | segment inbound => exact segment_urged inbound urged right
  | output fuel => exact output_urged fuel urged right
  | resume index => exact resume_urged index urged right
  | _ => exact idle_urged trivial urged

theorem urg_right (urged : Urged run) (pointed : Pointed (urgStep run event)) :
    PointsRight run event := by
  cases event with
  | segment inbound => exact segment_right inbound urged pointed
  | output fuel => exact output_right fuel urged pointed
  | resume index => exact resume_right index pointed
  | _ => exact idle_right trivial

end Steps

theorem opened_unurgent {start : Conn} (opened : Opened start) :
    Urged { conn := start } := by
  have clear : start.readings.gauge.supok = false := by
    cases opened with
    | active =>
        rw [tcpkick_readings]
        rfl
    | passive =>
        rw [tcpdeliver_readings]
        rfl
  have flag : start.tcb.flags.supok = false := clear
  constructor
  · intro mark none
    exact absurd none List.not_mem_nil
  · rw [flag]
    rfl

/-- The urgent pointer is right all along a run exactly if every step of the run is one that
the three shortcuts do not affect. -/
theorem urgent_pointer_iff (start : Conn) (opened : Opened start) (events : List Event) :
    (∀ count, Pointed ((events.take count).foldl urgStep { conn := start })) ↔
      Runs.Permitted urgStep PointsRight { conn := start } events :=
  Runs.throughout_iff_permitted events (opened_unurgent opened)
    (fun _ urged => urged.pointed)
    (fun _ _ urged right => urg_step urged right)
    (fun _ _ urged pointed => urg_right urged pointed)

/-- Two urgent octets are written and sent; the pointer is 1. -/
theorem urgent_write_pointed :
    (∀ count, Pointed (((openedRun [.write [7, 8] true, .resume 0, .output 4]).take count).foldl
      urgStep { conn := activeConn })) ∧
    ((openedRun [.write [7, 8] true, .resume 0, .output 4]).foldl urgStep
      { conn := activeConn }).marks.map (fun mark =>
        ((tcpsegment mark.1.1 mark.1.2).seq, (tcpsegment mark.1.1 mark.1.2).urgptr, mark.2)) =
      [(100, 0, none), (101, 0, none), (101, 1, some 102)] := by
  constructor
  · apply (urgent_pointer_iff activeConn active_opened _).mpr
    decide
  · decide

/-- An urgent octet is written behind three that are not sent yet. -/
theorem queued_urgent_write_misplaced :
    ¬ ∀ (start : Conn) (events : List Event), Opened start →
      ∀ count, Pointed ((events.take count).foldl urgStep { conn := start }) := by
  intro claimed
  have pointed := claimed activeConn
    (openedRun [.write [7, 8, 9] false, .resume 0, .write [5] true, .resume 0]) active_opened 7
  have placed := (pointed.kept 104 (by decide)).2
  revert placed
  decide

end MvsXinu.Tcp
