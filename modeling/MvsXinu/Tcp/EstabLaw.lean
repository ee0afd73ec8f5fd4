import MvsXinu.Tcp.OpenBlocks
import MvsXinu.Tcp.EstabHandlers

/-!
# The established-connection count along a run

Every step on the table adds what it changes the number of counted blocks by. A timeout and a
stale DELETE end a connection without the counter, and a second RST for an aborted one is
counted again.
-/

namespace MvsXinu.Tcp

open MvsXinu.Runs MvsXinu.SeqSpace MvsXinu.Locks MvsXinu.Headcount

set_option autoImplicit false

/-! ## The connection of a block -/

section Causes

variable {conn after : Conn} {errand : Errand} {added : Int}

theorem freed_current : ¬ (tcbdealloc conn).Current :=
  uncounted_current (uncounted_of (tcbdealloc_state conn) (by decide))

/-- A cause adds what the connection's entry changes by. -/
theorem Cause.counts (cause : Cause conn errand after added) (apt : ErrandApt conn errand) :
    weight after.Current = weight conn.Current + added := by
  cases cause with
  | steady steady => rw [weight_congr steady.current, add_zero]
  | @switched inbound bare iss mss read isHanded =>
      rcases handed_spec isHanded with ⟨accepted, ⟨smss, isRead⟩, code⟩
      have steady : Steady conn read := by
        rw [isRead]
        exact options_steady
      have fresh : ¬ read.Revives bare.segment.code := by
        rw [code, isRead]
        exact apt accepted
      rw [← weight_congr steady.current]
      exact switch_counts fresh
  | orphaned found steady =>
      rw [weight_not freed_current, weight_not (uncounted_current (uncounted_of found (by decide)))]
      rfl
  | deleted isOpen =>
      rw [weight_not freed_current, weight_not (fun current => (apt current).1 rfl)]
      rfl
  | sent isOpen ended =>
      rcases tcposwitch_turn ended with ⟨steady, early⟩ | ⟨failed, last, sending⟩
      · rw [weight_congr steady.current, add_zero]
      · rw [weight_not failed.current,
          weight_not (fun current => (apt current).2 ⟨last, sending⟩)]
        rfl
  | shut ends =>
      have uncounted : ¬ conn.Current := by
        intro current
        rcases ends with listens | ⟨counted, isError⟩
        · exact uncounted_current (uncounted_of listens (by decide)) current
        · rw [current.2] at isError
          cases isError
      rw [weight_not freed_current, weight_not uncounted]
      rfl
  | closed isOpen noError =>
      have later : ¬ (tcpkick { conn with tcb := tcpclosedtcb conn.tcb }).Current := by
        apply uncounted_current
        apply uncounted_of (tcpkick_steady _).state
        simp only [tcpclosedtcb]
        split
        · decide
        · decide
      rw [weight_not later, weight_of (show conn.Current from ⟨isOpen, noError⟩)]
      rfl

end Causes

/-! ## One step -/

section Steps

variable {t after : Table} {party : Party} {k : Nat}

theorem still_established (still : Still t after) : after.established = t.established := by
  apply headcount_congr
  intro j isMember
  rw [still.conns]

theorem sets_established {conn : Conn} {added : Int} (sets : Sets t after k conn)
    (isBlock : k < ntcp) (counts : weight conn.Current = weight (t.slot k).conn.Current + added) :
    (after.established : Int) = t.established + added := by
  have same : ∀ j ∈ Finset.range ntcp, j ≠ k →
      ((after.slot j).conn.Current ↔ (t.slot j).conn.Current) := by
    intro j isMember away
    rw [sets.others j away]
  have change := headcount_change (Finset.mem_range.mpr isBlock) same
  rw [sets.own, counts] at change
  simp only [Table.established]
  omega

/-- A block that is not counted is written, and not counted behind it. -/
theorem writes_established {slot : Slot} {post : Post} (writes : Writes t after k slot party post)
    (before : (t.state k).Uncounted) (later : slot.conn.tcb.state.Uncounted) :
    after.established = t.established := by
  apply headcount_congr
  intro j isMember
  by_cases same : j = k
  · rw [same, writes.own]
    constructor
    · intro current
      exact absurd current (uncounted_current later)
    · intro current
      exact absurd current (uncounted_current before)
  · rw [writes.others j same]

theorem spawned_established {child : Nat} (allocated : t.tcballoc = some child)
    (server : Steady (t.slot k).conn (after.slot k).conn) (state : after.state child = .synrcvd)
    (others : ∀ j, j ≠ k → j ≠ child → (after.slot j).conn = (t.slot j).conn) :
    after.established = t.established := by
  have isFree := (tcballoc_spec allocated).2
  apply headcount_congr
  intro j isMember
  by_cases isServer : j = k
  · rw [isServer]
    exact server.current
  · by_cases isNew : j = child
    · rw [isNew]
      constructor
      · intro current
        exact absurd current (uncounted_current (uncounted_of state (by decide)))
      · intro current
        exact absurd current (uncounted_current (uncounted_of isFree (by decide)))
    · rw [others j isServer isNew]

theorem go_counts (settled : t.Settled) (apt : Aboveboard t (.go party)) :
    ((t.go party).established : Int) = t.established + goCounts t party := by
  have turn : BlockTurn t party (t.go party) (goCounts t party) := go_turn
  simp only [Aboveboard] at apt
  generalize t.go party = after at turn ⊢
  generalize goCounts t party = added at turn ⊢
  cases turn with
  | still still => rw [still_established still, add_zero]
  | works stands goesOn taken works =>
      simp only [stands] at apt
      cases works with
      | still still => rw [still_established still, add_zero]
      | sets cause sets =>
          exact sets_established sets (settled.isBlock taken) (cause.counts (apt goesOn))
      | spawns segment listens syn allocated server state paired others moves dropped =>
          rw [spawned_established allocated server state others, add_zero]
  | @refused k server inbound stands goesOn sets =>
      simp only [stands] at apt
      have found := (apt goesOn).1
      apply sets_established sets
      · apply settled.isBlock
        rw [found]
        decide
      · rw [weight_not freed_current,
          weight_not (uncounted_current (uncounted_of found (by decide)))]
        rfl
  | @opened k server inbound stands goesOn accepts sets =>
      simp only [stands] at apt
      rcases apt goesOn with ⟨found, fresh⟩
      have noError : (t.slot k).conn.tcb.error = none := by
        cases isError : (t.slot k).conn.tcb.error with
        | none => rfl
        | some error =>
            apply absurd (fresh _) accepts
            rw [isError]
            rfl
      apply sets_established sets
      · apply settled.isBlock
        rw [found]
        decide
      · rw [weight_of (tcpsynopened_current (Steady.refl _) noError),
          weight_not (uncounted_current (uncounted_of found (by decide)))]
        rfl
  | @woken k taken ends sets =>
      have uncounted : ¬ (t.slot k).conn.Current := by
        intro current
        rcases ends with isError | isLastack
        · rw [current.2] at isError
          cases isError
        · exact uncounted_current (uncounted_of isLastack (by decide)) current
      apply sets_established sets (settled.isBlock taken)
      rw [weight_not freed_current, weight_not uncounted]
      rfl

theorem opening_uncounted (settled : t.Settled) (opens : t.post party = .opening k) :
    (t.state k).Uncounted := by
  rw [(settled.opening party k opens).1]
  decide

/-- Outside `go` nothing is counted. -/
theorem table_counts (settled : t.Settled) {event : TableEvent} (apt : Aboveboard t event) :
    ((tableStep t event).established : Int) = t.established + tableCounts t event := by
  cases event with
  | go other => exact go_counts settled apt
  | demux inbound iss mss =>
      simp only [tableStep, tableCounts, add_zero]
      split
      · cases tcpdemux t inbound.segment with
        | none => rfl
        | some j => rfl
      · rfl
  | output j event fuel =>
      simp only [tableStep, tableCounts, add_zero]
      split
      · apply congrArg Int.ofNat
        show (t.wait j _).established = t.established
        exact still_established wait_still
      · rfl
  | visit pid j errand =>
      simp only [tableStep, tableCounts, add_zero]
      split
      · apply congrArg Int.ofNat
        show (t.wait j _).established = t.established
        exact still_established wait_still
      · rfl
  | allocate pid =>
      simp only [tableStep, tableCounts, add_zero]
      split
      · cases found : t.tcballoc with
        | none => rfl
        | some j =>
            apply congrArg Int.ofNat
            apply writes_established setSlot_writes
            · rw [(tcballoc_spec found).2]
              decide
            · show TcpState.closed.Uncounted
              decide
      · rfl
  | bind pid lip rip lport rport =>
      simp only [tableStep, tableCounts]
      split
      · rename_i j opens
        apply sets_established setConn_sets
        · apply settled.isBlock
          rw [(settled.opening (.user pid) j opens).1]
          decide
        · exact (add_zero _).symm
      · rw [add_zero]
  | serve pid lport =>
      simp only [tableStep, tableCounts, add_zero]
      split
      · rename_i j opens
        apply congrArg Int.ofNat
        apply writes_established setSlot_writes (opening_uncounted settled opens)
        show TcpState.listen.Uncounted
        decide
      · rfl
  | connect pid iss mss =>
      simp only [tableStep, tableCounts, add_zero]
      split
      · rename_i j opens
        apply congrArg Int.ofNat
        apply writes_established setSlot_writes (opening_uncounted settled opens)
        apply uncounted_of (tcpkick_steady _).state
        show TcpState.synsent.Uncounted
        decide
      · rfl
  | giveup pid =>
      simp only [tableStep, tableCounts, add_zero]
      split
      · rename_i j opens
        apply congrArg Int.ofNat
        apply writes_established setSlot_writes (opening_uncounted settled opens)
        show TcpState.free.Uncounted
        decide
      · rfl

/-- What `Aboveboard` says of `tcpsynrcvd` behind its `wait`. -/
theorem aboveboard_found {event : TableEvent} (apt : Aboveboard t event) :
    ∀ other j server inbound, event = .go other → t.post other = .parent j server inbound →
      ¬ t.Blocked server other → t.state j = .synrcvd := by
  intro other j server inbound isGo stands goesOn
  rw [isGo] at apt
  simp only [Aboveboard, stands] at apt
  exact (apt goesOn).1

end Steps

/-! ## Along a run -/

/-- The counter and the blocks. -/
structure Estab.Sound (s : Estab) : Prop where
  settled : s.table.Settled
  counts : s.currEstab = BitVec.ofNat 32 s.table.established

theorem start_sound (conn : Nat → Conn) : (Estab.start conn).Sound where
  settled := by
    constructor
    · intro j isBeyond
      rfl
    · intro party k opens
      cases opens
    · intro first second k opens
      cases opens
  counts := by
    have nobody : (Estab.start conn).table.established = 0 := by
      apply headcount_none
      intro j isMember
      apply uncounted_current
      show TcpState.free.Uncounted
      decide
    rw [nobody]
    rfl

theorem Estab.Sound.step {s : Estab} (sound : s.Sound) {event : TableEvent}
    (apt : Aboveboard s.table event) : (estabStep s event).Sound := by
  refine ⟨sound.settled.step (aboveboard_found apt), ?_⟩
  have counts := table_counts sound.settled apt
  have before : BitVec.ofInt 32 (s.table.established : Int) = s.currEstab := by
    rw [sound.counts, BitVec.ofInt_natCast]
  show s.currEstab + BitVec.ofInt 32 (tableCounts s.table event) =
    BitVec.ofNat 32 (tableStep s.table event).established
  rw [← BitVec.ofInt_natCast, counts, BitVec.ofInt_add, before]

theorem currEstab_along_run {conn : Nat → Conn} {s : Estab}
    (reach : Reach estabStep (fun before => Aboveboard before.table) (Estab.start conn) s) :
    s.currEstab = BitVec.ofNat 32 s.table.established := by
  have sound : s.Sound := by
    apply reach.invariant (start_sound conn)
    intro before event sound apt
    exact sound.step apt
  exact sound.counts

def blankBlock (k : Nat) : Conn := { tcb := { state := .free }, tcbnum := k }

/-- `tcpinp` takes a segment of the peer. -/
def peerSends (code : Code) (seq ack : Tcpseq) : List TableEvent :=
  let segment : Segment :=
    { src := 20, dst := 10, sport := 80, dport := 1024, seq := seq, ack := ack, code := code,
      window := 512 }
  [.demux { segment := segment } 0 0, .go .inp, .go .inp, .go .inp]

/-- An active open, with its SYN and the answer to it. -/
def opensActively : List TableEvent :=
  [.allocate 1, .bind 1 10 20 1024 80, .connect 1 1000 536, .go (.user 1),
    .output 0 .send 4, .go .out, .go .out] ++ peerSends { syn := true, ack := true } 500 1001

theorem opened_connection_counted :
    (opensActively.foldl estabStep (Estab.start blankBlock)).table.established = 1 ∧
      (opensActively.foldl estabStep (Estab.start blankBlock)).currEstab =
        BitVec.ofNat 32 (opensActively.foldl estabStep (Estab.start blankBlock)).table.established := by
  have permitted : Permitted estabStep (fun before => Aboveboard before.table)
      (Estab.start blankBlock) opensActively := by
    simp only [opensActively, peerSends, List.cons_append, List.nil_append, Permitted]
    decide +kernel
  constructor
  · decide +kernel
  · exact currEstab_along_run (reach_of_permitted opensActively Reach.start permitted)

/-- The peer resets the connection twice before the user closes it. -/
def resetTwice : List TableEvent :=
  opensActively ++ peerSends { rst := true } 501 0 ++ peerSends { rst := true } 501 0

theorem second_reset_subtracted :
    ¬ ∀ (conn : Nat → Conn) (s : Estab), Reach estabStep (fun _ _ => True) (Estab.start conn) s →
      s.currEstab = BitVec.ofNat 32 s.table.established := by
  intro law
  have same := law blankBlock _ (reach_of_permitted resetTwice Reach.start
    (unguarded_permitted resetTwice _))
  revert same
  decide +kernel

end MvsXinu.Tcp
