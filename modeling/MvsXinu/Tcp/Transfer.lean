import MvsXinu.Tcp.Inflow
import MvsXinu.Tcp.Outflow

/-!
# Two ends and a network

Two connections whose SYNs are acknowledged, and a network between them that loses, repeats and
reorders what they send. Each end may do whatever a connection does by itself, and a segment that
has been sent arrives any number of times.

What is kept out of a run are urgent data, segments from too far back, and the inbound segments
at which the receive side slips (`RcvClear`).
-/

namespace MvsXinu.Tcp

open MvsXinu.SeqSpace

set_option autoImplicit false

/-- A segment on its way, with what its sender had written and received when it left. -/
structure Flown where
  segment : Segment
  written : Nat
  received : Nat

/-- An end, what its readers got, and everything it sent. -/
structure Host where
  conn : Conn
  out : List Octet := []
  wire : List Flown := []

/-- The octets that `tcpwr` has stored. -/
def Host.stream (host : Host) : List Octet := written host.conn.trace.writes

/-- Octets received, read or not, and the FIN. -/
def Host.received (host : Host) : Nat := RcvState.next ⟨host.conn.tcb, host.out⟩

/-- Neither given back nor in error. -/
def Host.Alive (host : Host) : Prop := host.conn.tcb.state ≠ .free ∧ host.conn.tcb.error = none

instance (host : Host) : Decidable host.Alive := inferInstanceAs (Decidable (_ ∧ _))

def Host.taken (host : Host) : Event → List Octet
  | .read len => (tcpgetdata host.conn.tcb len).1
  | _ => []

/-- The segments that a step added to the record. -/
def newSegments (before after : Trace) : List Segment :=
  (after.sends.drop before.sends.length).map (fun send => tcpsegment send.1 send.2) ++
    after.replies.drop before.replies.length

def Host.step (host : Host) (event : Event) : Host where
  conn := connStep host.conn event
  out := host.out ++ host.taken event
  wire := host.wire ++ (newSegments host.conn.trace (connStep host.conn event).trace).map
    fun segment => ⟨segment, host.stream.length, host.received⟩

inductive PairEvent where
  /-- The end on `side` does something by itself. -/
  | own (side : Bool) (event : Event)
  /-- The segment at `place` among those sent to `side` arrives there. -/
  | arrive (side : Bool) (place : Nat) (newqOk : Bool)

def pairStep (pair : Bool → Host) : PairEvent → Bool → Host
  | .own side event => Function.update pair side ((pair side).step event)
  | .arrive side place newqOk =>
      match (pair !side).wire[place]? with
      | none => pair
      | some flown => Function.update pair side ((pair side).step
          (.segment { segment := flown.segment, newqOk := newqOk }))

/-- Neither end has received much more than `2 ^ 30` octets since the segment left. -/
def Fresh (here there : Host) (flown : Flown) : Prop :=
  here.received + tcpsbs ≤ flown.written + 2 ^ 30 ∧ there.received ≤ flown.received + 2 ^ 30

/-- Segments come out of the network only, and `tcpread` gives data only while the connection
is in order. -/
def pairAllowed (pair : Bool → Host) : PairEvent → Prop
  | .own side event => event.inner = true ∨ event.isRead = true ∧ (pair side).Alive
  | .arrive side place newqOk => ∀ flown ∈ (pair !side).wire[place]?,
      Fresh (pair side) (pair !side) flown ∧ flown.segment.code.urg = false ∧
        RcvClear ⟨(pair side).conn.tcb, (pair side).out⟩ (.segment flown.segment newqOk)

instance (here there : Host) (flown : Flown) : Decidable (Fresh here there flown) :=
  inferInstanceAs (Decidable (_ ∧ _))

instance (pair : Bool → Host) : ∀ event, Decidable (pairAllowed pair event)
  | .own _ _ => inferInstanceAs (Decidable (_ ∨ _ ∧ _))
  | .arrive side place newqOk => inferInstanceAs (Decidable (∀ flown ∈ (pair !side).wire[place]?,
      Fresh (pair side) (pair !side) flown ∧ flown.segment.code.urg = false ∧
        RcvClear ⟨(pair side).conn.tcb, (pair side).out⟩ (.segment flown.segment newqOk)))

/-! ## The invariant -/

/-- The send side of an end: `acked` octets of its stream are acknowledged, and what it sent are
pieces of the stream. -/
structure Outward (base : Tcpseq) (host : Host) (acked : Nat) : Prop where
  ledger : ∃ count, Ledger base host.conn.main acked count
  wire : ∀ flown ∈ host.wire, flown.segment.code.rst = true ∧ flown.segment.offset = tcphoffset ∨
    ∃ index, Slice base host.conn.main flown.segment index ∧ flown.written ≤ index + tcpsbs

/-- The receive side of an end, for the whole stream of its peer. The acknowledgement of each
segment that it sent is what it had received then. -/
structure Inward (base : Tcpseq) (stream : List Octet) (host : Host) : Prop where
  out : host.out <+: stream
  buffer : host.Alive → RcvInv stream base ⟨host.conn.tcb, host.out⟩
  answers : host.Alive → ∀ flown ∈ host.wire,
    flown.segment.code.rst = true ∨
      flown.segment.ack = seqAt base flown.received ∧ flown.received ≤ host.received

/-- What an end has written so far fits the stream, and is all of it once the end is closed. -/
structure Ends (stream : List Octet) (host : Host) : Prop where
  written : host.stream <+: stream
  closed : ¬ Unclosed host.conn.tcb.state → host.stream = stream

/-- The conditions on what an end did. -/
structure Host.Tidy (host : Host) : Prop where
  careful : host.conn.main.Careful
  whole : RexmtWhole host.conn.trace.sends

section Hosts

variable {base peer : Tcpseq} {stream : List Octet} {host : Host} {acked : Nat} {event : Event}

theorem step_main (host : Host) (event : Event) :
    Chain host.conn.main (host.step event).conn.main :=
  step_chain host.conn event

theorem Host.Tidy.before (tidy : (host.step event).Tidy) : host.Tidy := by
  have chain := step_main host event
  refine ⟨careful_before_chain chain tidy.careful, ?_⟩
  obtain ⟨more, sends⟩ := sends_grow chain
  intro send member
  apply tidy.whole send
  change send ∈ (host.step event).conn.main.sends
  rw [sends]
  exact List.mem_append_left _ member

theorem Ends.before (tidy : (host.step event).Tidy) (ends : Ends stream (host.step event)) :
    Ends stream host := by
  have chain := step_main host event
  constructor
  · exact (writes_grow chain).trans ends.written
  · intro closed
    obtain ⟨still, writes⟩ := closed_chain chain tidy.careful closed
    rw [← ends.closed still]
    exact (congrArg MvsXinu.Tcp.written writes).symm

theorem ends_self (host : Host) : Ends host.stream host :=
  ⟨List.prefix_rfl, fun _ => rfl⟩

/-- Pieces stay pieces, and the new ones have to be looked at. -/
theorem outward_of_new (outward : Outward base host acked) (tidy : (host.step event).Tidy)
    {later : Nat} (ledger : ∃ count, Ledger base (host.step event).conn.main later count)
    (new : ∀ segment ∈ newSegments host.conn.trace (connStep host.conn event).trace,
      segment.code.rst = true ∧ segment.offset = tcphoffset ∨ ∃ index,
        Slice base (connStep host.conn event).main segment index ∧
          host.stream.length ≤ index + tcpsbs) :
    Outward base (host.step event) later := by
  refine ⟨ledger, ?_⟩
  intro flown member
  rcases List.mem_append.mp member with old | sent
  · rcases outward.wire flown old with reset | ⟨index, slice, low⟩
    · exact Or.inl reset
    · exact Or.inr ⟨index, slice.chain (step_main host event) tidy.careful, low⟩
  · obtain ⟨segment, listed, rfl⟩ := List.mem_map.mp sent
    exact new segment listed

theorem newSegments_of_own {conn after : Conn} (own : Own conn after) :
    ∃ more, after.trace.sends = conn.trace.sends ++ more ∧
      newSegments conn.trace after.trace = more.map fun send => tcpsegment send.1 send.2 := by
  obtain ⟨more, sends, _⟩ := own.sends
  refine ⟨more, sends, ?_⟩
  rw [newSegments, sends, own.replies]
  simp

theorem outward_inner (outward : Outward base host acked) (inner : event.inner = true)
    (tidy : (host.step event).Tidy) : Outward base (host.step event) acked := by
  obtain ⟨count, ledger⟩ := outward.ledger
  obtain ⟨after, more, sends, known⟩ := inner_outflow ledger event inner tidy.careful tidy.whole
  obtain ⟨others, grown, listed⟩ := newSegments_of_own (step_own event inner)
  have same : others = more := List.append_cancel_left (grown.symm.trans sends)
  refine outward_of_new outward tidy after ?_
  rw [listed, same]
  intro segment member
  obtain ⟨send, sent, rfl⟩ := List.mem_map.mp member
  exact Or.inr (known send sent)

theorem read_segments (conn : Conn) (len : Word) :
    newSegments conn.trace (connStep conn (.read len)).trace = [] := by
  obtain ⟨_, sends, replies⟩ := tcpread_tcb conn len
  rw [newSegments, connStep, sends, replies]
  simp

theorem outward_read (outward : Outward base host acked) (len : Word)
    (tidy : (host.step (.read len)).Tidy) : Outward base (host.step (.read len)) acked := by
  refine outward_of_new outward tidy ?_ ?_
  · have same : (host.step (.read len)).conn.main = host.conn.main := tcpread_main host.conn len
    rw [same]
    exact outward.ledger
  · rw [read_segments]
    simp

/-- A block that is free takes no segment. -/
theorem outward_free {inbound : Inbound} (outward : Outward base host acked)
    (free : host.conn.tcb.state = .free) (tidy : (host.step (.segment inbound)).Tidy) :
    Outward base (host.step (.segment inbound)) acked := by
  have same : connStep host.conn (.segment inbound) = host.conn := by
    rw [connStep, tcpinp, if_pos free]
    rfl
  refine outward_of_new outward tidy ?_ ?_
  · change ∃ count, Ledger base (connStep host.conn (.segment inbound)).main acked count
    rw [same]
    exact outward.ledger
  · rw [same, newSegments]
    simp

/-- A segment that arrives adds replies, and may acknowledge. -/
theorem outward_segment {inbound : Inbound} (outward : Outward base host acked)
    (synchronised : TcpState.established.number ≤ host.conn.tcb.state.number)
    (bare : inbound.segment.offset = tcphoffset)
    (tidy : (host.step (.segment inbound)).Tidy) :
    ∃ later, Outward base (host.step (.segment inbound)) later ∧
      host.stream.length ≤ later + tcpsbs ∧ later ≤ host.stream.length + 1 ∧
      (later = acked ∨ inbound.segment.code.rst = false ∧
        inbound.segment.code.ack = true ∧ inbound.segment.ack = seqAt base later) := by
  obtain ⟨count, ledger⟩ := outward.ledger
  obtain ⟨later, left, after, low, high, moved⟩ :=
    segment_outflow ledger synchronised bare tidy.careful
  refine ⟨later, outward_of_new outward tidy ⟨left, after⟩ ?_, low, high, moved⟩
  have served := (@segment_served host.conn inbound synchronised bare).1
  obtain ⟨more, replies, kinds⟩ := served.replies
  have listed : newSegments host.conn.trace (connStep host.conn (.segment inbound)).trace =
      more := by
    rw [newSegments, served.sends, replies]
    simp
  rw [listed]
  intro segment member
  rcases kinds segment member with reset | plain
  · exact Or.inl reset
  · have slice := slice_of_plain ledger rfl plain
    have near := ledger.near
    refine Or.inr ⟨acked + count, slice.chain (step_chain host.conn _) tidy.careful, ?_⟩
    change (written host.conn.main.writes).length ≤ acked + count + tcpsbs
    omega

theorem host_level (level : Level host.conn.tcb.state) :
    Level (host.step event).conn.tcb.state :=
  level_chain (step_main host event) level

theorem alive_before_free (alive : (host.step event).Alive) : host.conn.tcb.state ≠ .free := by
  intro free
  exact alive.1 (free_chain (step_main host event) free)

theorem taken_inner (host : Host) (inner : event.inner = true) : host.taken event = [] := by
  cases event with
  | read len => cases inner
  | _ => rfl

theorem inward_inner (inward : Inward base stream host) (inner : event.inner = true)
    (level : Level host.conn.tcb.state) : Inward base stream (host.step event) ∧
      ((host.step event).Alive → host.Alive ∧ (host.step event).received = host.received) := by
  have own := @step_own host.conn event inner
  have out : (host.step event).out = host.out := by
    change host.out ++ host.taken event = host.out
    rw [taken_inner host inner, List.append_nil]
  have survives : (host.step event).Alive → host.Alive ∧
      (host.step event).conn.tcb.intake = host.conn.tcb.intake := by
    intro alive
    rcases own.intake with failed | same
    · rw [show (connStep host.conn event).tcb.error = none from alive.2] at failed
      cases failed
    · exact ⟨⟨alive_before_free alive, (congrArg Intake.error same).symm.trans alive.2⟩, same⟩
  have received : (host.step event).Alive → (host.step event).received = host.received := by
    intro alive
    rw [Host.received, Host.received, out]
    exact next_of_intake (survives alive).2
  refine ⟨⟨?_, ?_, ?_⟩, fun alive => ⟨(survives alive).1, received alive⟩⟩
  · rw [out]
    exact inward.out
  · intro alive
    rw [out]
    refine (inward.buffer (survives alive).1).of_intake (survives alive).2 ?_
    exact (host_level level).resolve_left alive.1
  · intro alive flown member
    rw [received alive]
    rcases List.mem_append.mp member with old | sent
    · exact inward.answers (survives alive).1 flown old
    · obtain ⟨segment, listed, rfl⟩ := List.mem_map.mp sent
      obtain ⟨more, sends, known⟩ := own.sends
      obtain ⟨others, grown, same⟩ := newSegments_of_own own
      have equal : others = more := List.append_cancel_left (grown.symm.trans sends)
      rw [same, equal] at listed
      obtain ⟨send, found, rfl⟩ := List.mem_map.mp listed
      have rnext : send.1.rnext = host.conn.tcb.rnext := congrArg Intake.rnext (known send found)
      refine Or.inr ⟨?_, le_rfl⟩
      change send.1.rnext = _
      rw [rnext]
      exact (inward.buffer (survives alive).1).body.rnext_eq

theorem inward_read (inward : Inward base stream host) (alive : host.Alive) (len : Word)
    (level : Level host.conn.tcb.state) : Inward base stream (host.step (.read len)) ∧
      (host.step (.read len)).received = host.received := by
  have inv := inward.buffer alive
  have synchronised := level.resolve_left alive.1
  have tcb : (host.step (.read len)).conn.tcb = (tcpgetdata host.conn.tcb len).2.1 :=
    (tcpread_tcb host.conn len).1
  have read : RcvInv stream base (rcvStep ⟨host.conn.tcb, host.out⟩ (.getdata len)) :=
    rcv_step_invariant _ (.getdata len) inv ⟨trivial, trivial⟩
  have received : (host.step (.read len)).received = host.received := by
    rw [Host.received, Host.received, tcb]
    exact getdata_next inv len
  refine ⟨⟨?_, ?_, ?_⟩, received⟩
  · have out : (host.step (.read len)).out = stream.take _ := read.body.out_eq
    rw [out]
    exact List.take_prefix _ _
  · intro _
    rw [tcb]
    exact read
  · intro _ flown member
    rw [received]
    rcases List.mem_append.mp member with old | sent
    · exact inward.answers alive flown old
    · rw [read_segments] at sent
      cases sent

/-- An end in error stays in error. -/
theorem segment_survives {inbound : Inbound} (bare : inbound.segment.offset = tcphoffset)
    (level : Level host.conn.tcb.state) (alive : (host.step (.segment inbound)).Alive) :
    host.Alive ∧ TcpState.established.number ≤ host.conn.tcb.state.number := by
  have used := alive_before_free alive
  have synchronised := level.resolve_left used
  refine ⟨⟨used, ?_⟩, synchronised⟩
  rcases (@segment_served host.conn inbound synchronised bare).1.intake with
    failed | same | ⟨_, _, tcb, same, _, taken⟩
  · rw [show (connStep host.conn (.segment inbound)).tcb.error = none from alive.2] at failed
    cases failed
  · exact (congrArg Intake.error same).symm.trans alive.2
  · have kept := congrArg Tcb.error (tcpdata_sending tcb
      (tcpok host.conn.tcb inbound.segment).2 inbound.newqOk)
    have error : tcb.error = none := kept.symm.trans
      ((congrArg Intake.error taken).symm.trans alive.2)
    exact (congrArg Intake.error same).symm.trans error

theorem inward_segment {inbound : Inbound} (inward : Inward base stream host)
    (bare : inbound.segment.offset = tcphoffset) (level : Level host.conn.tcb.state)
    (carries : host.Alive → inbound.segment.code.rst = true ∨
      ∃ position, Carries stream base ⟨host.conn.tcb, host.out⟩ inbound.segment position)
    (clear : RcvClear ⟨host.conn.tcb, host.out⟩ (.segment inbound.segment inbound.newqOk)) :
    Inward base stream (host.step (.segment inbound)) ∧
      ((host.step (.segment inbound)).Alive →
        host.Alive ∧ host.received ≤ (host.step (.segment inbound)).received) := by
  have out : (host.step (.segment inbound)).out = host.out := List.append_nil _
  have taken : (host.step (.segment inbound)).Alive →
      RcvInv stream base ⟨(host.step (.segment inbound)).conn.tcb, host.out⟩ ∧
        host.received ≤ (host.step (.segment inbound)).received := by
    intro alive
    obtain ⟨before, synchronised⟩ := segment_survives bare level alive
    have inv := inward.buffer before
    have after := (@host_level host (.segment inbound) level).resolve_left alive.1
    rw [Host.received, Host.received, out]
    rcases carries before with reset | ⟨position, carries⟩
    · have same : (connStep host.conn (.segment inbound)).tcb.intake = host.conn.tcb.intake := by
        have header := tcpok_header host.conn.tcb inbound.segment
        rcases (@segment_served host.conn inbound synchronised bare).1.intake with
          failed | same | ⟨clean, _⟩
        · rw [show (connStep host.conn (.segment inbound)).tcb.error = none from alive.2] at failed
          cases failed
        · exact same
        · rw [header.2, reset] at clean
          cases clean
      exact ⟨inv.of_intake same after, Nat.le_of_eq (next_of_intake same).symm⟩
    · exact segment_inflow inv carries bare clear alive.2 after
  refine ⟨⟨?_, ?_, ?_⟩, fun alive => ⟨(segment_survives bare level alive).1, (taken alive).2⟩⟩
  · rw [out]
    exact inward.out
  · intro alive
    rw [out]
    exact (taken alive).1
  · intro alive flown member
    obtain ⟨before, synchronised⟩ := segment_survives bare level alive
    have grown := (taken alive).2
    rcases List.mem_append.mp member with old | sent
    · rcases inward.answers before flown old with reset | ⟨ack, known⟩
      · exact Or.inl reset
      · exact Or.inr ⟨ack, known.trans grown⟩
    · obtain ⟨segment, listed, rfl⟩ := List.mem_map.mp sent
      have served := (@segment_served host.conn inbound synchronised bare).1
      obtain ⟨more, replies, kinds⟩ := served.replies
      have same : newSegments host.conn.trace (connStep host.conn (.segment inbound)).trace =
          more := by
        rw [newSegments, served.sends, replies]
        simp
      rw [same] at listed
      rcases kinds segment listed with reset | plain
      · exact Or.inl reset.1
      · refine Or.inr ⟨?_, grown⟩
        rw [plain.ack]
        exact (inward.buffer before).body.rnext_eq

/-- A piece of the writer's stream is what the reader may be sent. -/
theorem carries_of_slice {writer : Host} {flown : Flown} {index : Nat}
    (slice : Slice base writer.conn.main flown.segment index) (ends : Ends stream writer)
    (plain : flown.segment.code.urg = false) (low : flown.written ≤ index + tcpsbs)
    (near : writer.stream.length ≤ host.received + tcpsbs)
    (fresh : host.received + tcpsbs ≤ flown.written + 2 ^ 30) :
    Carries stream base ⟨host.conn.tcb, host.out⟩ flown.segment index := by
  have data := (bare_eq slice.bare).2
  have reaches : index + flown.segment.tcpData.length ≤ writer.stream.length + 1 := slice.reaches
  have short := slice.short
  simp only [tcpsbs] at low near fresh short
  have header : flown.segment.hlen = tcpmhlen := by
    rw [Segment.hlen, slice.bare]
    decide
  constructor
  case wellFormed =>
    refine ⟨Nat.le_of_eq header.symm, ?_, by omega⟩
    rw [header]
    exact Nat.le_add_right _ _
  case not_urgent => exact plain
  case seq_eq => exact slice.seq
  case slice =>
    obtain ⟨more, whole⟩ := ends.written
    have piece : flown.segment.tcpData <+: stream.drop index := by
      rw [← whole, List.drop_append]
      exact slice.data.trans (List.prefix_append _ _)
    rw [data]
    exact List.prefix_iff_eq_take.mp piece
  case fin_last =>
    intro fin
    obtain ⟨last, closed⟩ := slice.fin fin
    rw [data, ← ends.closed closed]
    exact last
  case near_low =>
    change host.received ≤ _
    omega
  case near_high =>
    rw [data]
    change _ ≤ host.received + _
    omega

end Hosts

/-! ## Runs -/

/-- The two ends behind the handshake, each expecting the first octet of the other. -/
structure JoinedEnds (base : Bool → Tcpseq) (pair : Bool → Host) : Prop where
  synced : ∀ side, Synced (pair side).conn
  suna : ∀ side, (pair side).conn.tcb.suna = base side
  receives : ∀ side, RcvStart (base !side) (pair side).conn.tcb
  out : ∀ side, (pair side).out = []
  wire : ∀ side, (pair side).wire = []

/-- What is sent from `side` and received on the other. -/
structure Crossing (base : Bool → Tcpseq) (pair : Bool → Host) (acked : Bool → Nat)
    (side : Bool) : Prop where
  outward : Outward (base side) (pair side) (acked side)
  level : Level (pair side).conn.tcb.state
  inward : ∀ stream, Ends stream (pair side) → Inward (base side) stream (pair !side)
  acked : (pair !side).Alive → acked side ≤ (pair !side).received

section Pairs

variable {base : Bool → Tcpseq} {pair : Bool → Host} {acked : Bool → Nat} {side : Bool}

theorem joined_crossing (joined : JoinedEnds base pair) (side : Bool) :
    Crossing base pair (fun _ => 0) side := by
  have synced := joined.synced side
  have ledger := synced_ledger synced
  rw [joined.suna side] at ledger
  have start := joined.receives !side
  rw [Bool.not_not] at start
  constructor
  · refine ⟨⟨0, ledger⟩, ?_⟩
    rw [joined.wire side]
    simp
  · rcases synced.state with state | state <;> rw [state] <;> exact Or.inr (by decide)
  · intro stream _
    refine ⟨?_, ?_, ?_⟩
    · rw [joined.out]
      exact List.nil_prefix
    · intro _
      rw [joined.out]
      exact rcv_start_invariant start
    · rw [joined.wire]
      simp
  · intro _
    exact Nat.zero_le _

/-- One end makes a step. The other direction sees only that it may have received more. -/
theorem crossing_of_step (event : Event) (crossing : ∀ side, Crossing base pair acked side)
    (tidy : ((pair side).step event).Tidy) {later : Nat}
    (outward : Outward (base side) ((pair side).step event) later)
    (known : (pair !side).Alive → later ≤ (pair !side).received)
    (inward : ∀ stream, Ends stream (pair !side) →
      Inward (base !side) stream ((pair side).step event))
    (grown : ((pair side).step event).Alive →
      (pair side).Alive ∧ (pair side).received ≤ ((pair side).step event).received) :
    ∀ other, Crossing base (Function.update pair side ((pair side).step event))
      (Function.update acked side later) other := by
  have apart : (!side) ≠ side := by
    cases side <;> decide
  intro other
  by_cases here : other = side
  · subst here
    refine ⟨?_, ?_, ?_, ?_⟩
    · simp only [Function.update_self]
      exact outward
    · simp only [Function.update_self]
      exact host_level (crossing other).level
    · intro stream ends
      rw [Function.update_self] at ends
      rw [Function.update_of_ne apart]
      exact (crossing other).inward stream (ends.before tidy)
    · rw [Function.update_of_ne apart, Function.update_self]
      exact known
  · have there : other = !side := by
      cases other <;> cases side <;> simp_all
    subst there
    refine ⟨?_, ?_, ?_, ?_⟩
    · simp only [Function.update_of_ne apart]
      exact (crossing !side).outward
    · simp only [Function.update_of_ne apart]
      exact (crossing !side).level
    · intro stream ends
      rw [Function.update_of_ne apart] at ends
      rw [Bool.not_not, Function.update_self]
      exact inward stream ends
    · rw [Bool.not_not, Function.update_self, Function.update_of_ne apart]
      intro alive
      have before := (crossing !side).acked
      rw [Bool.not_not] at before
      exact (before (grown alive).1).trans (grown alive).2

/-- What has been received is not beyond what is written and the FIN behind it. -/
theorem Crossing.received_le (crossing : Crossing base pair acked side)
    (alive : (pair !side).Alive) :
    (pair !side).received ≤ (pair side).stream.length + 1 := by
  have body := ((crossing.inward _ (ends_self (pair side))).buffer alive).body
  have edge := body.edge_le
  change RcvState.edge _ + (if _ then 1 else 0) ≤ _
  split <;> omega

theorem own_crossing (event : Event) (crossing : ∀ side, Crossing base pair acked side)
    (permitted : event.inner = true ∨ event.isRead = true ∧ (pair side).Alive)
    (tidy : ((pair side).step event).Tidy) :
    ∀ other, Crossing base (Function.update pair side ((pair side).step event))
      (Function.update acked side (acked side)) other := by
  have level := (crossing side).level
  have other : ∀ stream, Ends stream (pair !side) →
      Inward (base !side) stream (pair side) := by
    have back := (crossing !side).inward
    rw [Bool.not_not] at back
    exact back
  rcases permitted with inner | ⟨reads, alive⟩
  · refine crossing_of_step event crossing tidy (outward_inner (crossing side).outward inner tidy)
      (crossing side).acked (fun stream ends => (inward_inner (other stream ends) inner level).1) ?_
    intro after
    have kept := (inward_inner (other _ (ends_self _)) inner level).2 after
    exact ⟨kept.1, Nat.le_of_eq kept.2.symm⟩
  · cases event with
    | read len =>
        refine crossing_of_step (.read len) crossing tidy
          (outward_read (crossing side).outward len tidy) (crossing side).acked
          (fun stream ends => (inward_read (other stream ends) alive len level).1) ?_
        intro _
        exact ⟨alive, Nat.le_of_eq (inward_read (other _ (ends_self _)) alive len level).2.symm⟩
    | _ => cases reads

theorem arrive_crossing {flown : Flown} (newqOk : Bool)
    (crossing : ∀ side, Crossing base pair acked side) (sent : flown ∈ (pair !side).wire)
    (fresh : Fresh (pair side) (pair !side) flown) (plain : flown.segment.code.urg = false)
    (clear : RcvClear ⟨(pair side).conn.tcb, (pair side).out⟩ (.segment flown.segment newqOk))
    (tidy : ((pair side).step (.segment { segment := flown.segment, newqOk := newqOk })).Tidy) :
    ∃ later, ∀ other, Crossing base (Function.update pair side
      ((pair side).step (.segment { segment := flown.segment, newqOk := newqOk })))
      (Function.update acked side later) other := by
  have level := (crossing side).level
  have writer := (crossing !side).outward
  have kinds := writer.wire flown sent
  have other : ∀ stream, Ends stream (pair !side) →
      Inward (base !side) stream (pair side) := by
    have back := (crossing !side).inward
    rw [Bool.not_not] at back
    exact back
  have bare : flown.segment.offset = tcphoffset := by
    rcases kinds with ⟨_, offset⟩ | ⟨_, slice, _⟩
    · exact offset
    · exact slice.bare
  have near : (pair side).Alive → (pair !side).stream.length ≤ (pair side).received + tcpsbs := by
    intro alive
    obtain ⟨count, ledger⟩ := writer.ledger
    have close : (pair !side).stream.length ≤
        (acked !side) + (pair !side).conn.main.core.sbcount.toNat := ledger.near.2.1
    have small := ledger.near.2.2
    have behind := (crossing !side).acked
    rw [Bool.not_not] at behind
    have covered := behind alive
    omega
  have inward : ∀ stream, Ends stream (pair !side) → _ := fun stream ends =>
    @inward_segment _ _ _ { segment := flown.segment, newqOk := newqOk } (other stream ends) bare
      level (by
        intro alive
        rcases kinds with ⟨reset, _⟩ | ⟨index, slice, low⟩
        · exact Or.inl reset
        · exact Or.inr ⟨index, carries_of_slice slice ends plain low (near alive) fresh.1⟩) clear
  have grown := (inward _ (ends_self _)).2
  rcases level with free | synchronised
  · refine ⟨acked side, crossing_of_step _ crossing tidy ?_ (crossing side).acked
      (fun stream ends => (inward stream ends).1) grown⟩
    exact outward_free (crossing side).outward free tidy
  · obtain ⟨later, outward, low, high, moved⟩ :=
      outward_segment (crossing side).outward synchronised bare tidy
    refine ⟨later, crossing_of_step _ crossing tidy outward ?_
      (fun stream ends => (inward stream ends).1) grown⟩
    intro alive
    rcases moved with same | ⟨clean, _, ack⟩
    · rw [same]
      exact (crossing side).acked alive
    · have answers := ((crossing side).inward _ (ends_self _)).answers alive flown sent
      rcases answers with reset | ⟨answered, known⟩
      · exact absurd (clean.symm.trans reset) (by decide)
      · have recent := fresh.2
        have bound := (crossing side).received_le alive
        have behind := (crossing side).acked alive
        obtain ⟨count, ledger⟩ := (crossing side).outward.ledger
        have close : (pair side).stream.length ≤
            acked side + (pair side).conn.main.core.sbcount.toNat := ledger.near.2.1
        have small := ledger.near.2.2
        simp only [tcpsbs] at low small
        have equal := seq_at_injective (base side) later flown.received (by omega) (by omega)
          (ack.symm.trans answered)
        omega

theorem pair_crossing (event : PairEvent) (crossing : ∀ side, Crossing base pair acked side)
    (permitted : pairAllowed pair event) (tidy : ∀ side, (pairStep pair event side).Tidy) :
    ∃ later, ∀ side, Crossing base (pairStep pair event) later side := by
  cases event with
  | own side event =>
      have here := tidy side
      rw [pairStep, Function.update_self] at here
      exact ⟨_, own_crossing event crossing permitted here⟩
  | arrive side place newqOk =>
      rw [pairStep] at tidy ⊢
      cases found : (pair !side).wire[place]? with
      | none => exact ⟨acked, crossing⟩
      | some flown =>
          rw [found] at tidy
          have here := tidy side
          simp only [Function.update_self] at here
          obtain ⟨fresh, plain, clear⟩ := permitted flown (by rw [found]; rfl)
          obtain ⟨later, after⟩ := arrive_crossing newqOk crossing
            (List.mem_of_getElem? found) fresh plain clear here
          exact ⟨_, after⟩

theorem tidy_before_step {event : PairEvent} (tidy : ∀ side, (pairStep pair event side).Tidy)
    (side : Bool) : (pair side).Tidy := by
  have after := tidy side
  have updated : ∀ (place : Bool) (event : Event),
      (Function.update pair place ((pair place).step event) side).Tidy → (pair side).Tidy := by
    intro place event held
    by_cases here : side = place
    · rw [here, Function.update_self] at held
      rw [here]
      exact held.before
    · rwa [Function.update_of_ne here] at held
  cases event with
  | own place event => exact updated place event after
  | arrive place index newqOk =>
      rw [pairStep] at after
      cases found : (pair !place).wire[index]? with
      | none => rwa [found] at after
      | some flown =>
          rw [found] at after
          exact updated place _ after

theorem reached_crossing {start : Bool → Host} (joined : JoinedEnds base start)
    (reached : Runs.Reach pairStep pairAllowed start pair) :
    (∀ side, (pair side).Tidy) → ∃ acked, ∀ side, Crossing base pair acked side := by
  induction reached with
  | start => exact fun _ => ⟨_, joined_crossing joined⟩
  | step event _ permitted ih =>
      intro tidy
      obtain ⟨acked, crossing⟩ := ih (tidy_before_step tidy)
      exact pair_crossing event crossing permitted tidy

end Pairs

/-- An end that has sent and received nothing since the handshake. -/
def idleHost (own other : Tcpseq) : Host where
  conn := {
    tcb := {
      state := .established
      iss := own - 1
      suna := own
      snext := own
      lwseq := other - 1
      lwack := own
      swindow := 4096
      cwnd := 512
      ssthresh := 65535
      smss := 512
      rmss := 512
      rnext := other
      cwin := other + 8192 }
    tcbnum := 3 }

def joinedBase (side : Bool) : Tcpseq := if side then 101 else 501

def joinedPair (side : Bool) : Host := idleHost (joinedBase side) (joinedBase !side)

/-- Three octets are written and the connection is closed. The FIN overtakes the octets, which
arrive twice. -/
def overtakenRun : List PairEvent :=
  [.own true (.write [7, 8, 9] false), .own true (.resume 0), .own true (.output 4),
    .own true .close, .own true (.output 4), .arrive false 1 true, .arrive false 0 true,
    .arrive false 0 true, .own false (.read 2), .own false (.output 4), .arrive true 0 true,
    .own false (.read 2)]

theorem joined_pair_joined : JoinedEnds joinedBase joinedPair := by
  constructor
  case synced => intro side; cases side <;> constructor <;> simp [joinedPair, idleHost, tcpsbs]
  case suna => exact fun _ => rfl
  case receives => intro side; cases side <;> constructor <;> decide
  case out => exact fun _ => rfl
  case wire => exact fun _ => rfl

end MvsXinu.Tcp
