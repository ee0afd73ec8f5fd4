import MvsXinu.Tcp.BlockTurns

/-!
# The blocks that `tcpmopen` works on

From `tcballoc` until `tcpserver` or `tcpcon` has given it a state, a block is CLOSED and in
the hands of one user. Nobody else who has its mutex changes that.
-/

namespace MvsXinu.Tcp

open MvsXinu.SeqSpace MvsXinu.Locks

set_option autoImplicit false

/-- Where the blocks are that `tcpmopen` works on. -/
structure Table.Settled (t : Table) : Prop where
  beyond : ∀ j, ntcp ≤ j → t.state j = .free
  opening : ∀ party k, t.post party = .opening k →
    t.state k = .closed ∧ (t.slot k).conn.tcb.error = none
  sole : ∀ first second k, t.post first = .opening k → t.post second = .opening k → first = second

section Causes

variable {conn after : Conn} {errand : Errand} {added : Int}

/-- A CLOSED block stays as it is. -/
theorem Cause.of_closed (cause : Cause conn errand after added)
    (isClosed : conn.tcb.state = .closed) : Steady conn after := by
  cases cause with
  | steady steady => exact steady
  | @switched inbound bare iss mss read isHanded =>
      rcases (handed_spec isHanded).2.1 with ⟨smss, isRead⟩
      have steady : Steady conn read := by
        rw [isRead]
        exact options_steady
      simp only [tcpswitch, steady.state.trans isClosed]
      exact steady.trans (tcpreset_steady read bare.segment)
  | orphaned found steady =>
      rw [isClosed] at found
      cases found
  | deleted isOpen => exact absurd isClosed isOpen
  | sent isOpen ended => exact absurd isClosed isOpen
  | shut ends =>
      rw [isClosed] at ends
      exact absurd ends (by simp)
  | closed isOpen noError =>
      rw [isClosed] at isOpen
      exact absurd isOpen (by decide)

theorem Cause.stays_closed (cause : Cause conn errand after added)
    (isClosed : conn.tcb.state = .closed) (noError : conn.tcb.error = none) :
    after.tcb.state = .closed ∧ after.tcb.error = none := by
  have steady := cause.of_closed isClosed
  exact ⟨steady.state.trans isClosed, steady.error.trans noError⟩

end Causes

section Settled

variable {t after : Table} {party : Party} {k : Nat}

theorem Table.Settled.isBlock (settled : t.Settled) (taken : t.state k ≠ .free) : k < ntcp := by
  by_contra isBeyond
  exact taken (settled.beyond k (by omega))

/-- Blocks that nobody opens are changed. -/
theorem Table.Settled.moved (settled : t.Settled) (moves : Moves t after)
    (beyond : ∀ j, ntcp ≤ j → t.state j = .free → after.state j = .free)
    (closed : ∀ j, t.state j = .closed → (t.slot j).conn.tcb.error = none →
      after.state j = .closed ∧ (after.slot j).conn.tcb.error = none) : after.Settled where
  beyond := fun j isBeyond => beyond j isBeyond (settled.beyond j isBeyond)
  opening := by
    intro party k opens
    rcases settled.opening party k (moves.opening party k opens) with ⟨isClosed, noError⟩
    exact closed k isClosed noError
  sole := fun first second k opens alsoOpens =>
    settled.sole first second k (moves.opening first k opens) (moves.opening second k alsoOpens)

/-- A process goes to a place where it opens nothing. -/
theorem Table.Settled.placed (settled : t.Settled) {post : Post} (elsewhere : ∀ j, post ≠ .opening j) :
    (t.place party post).Settled := by
  have opened : ∀ other j, (t.place party post).post other = .opening j →
      t.post other = .opening j := by
    intro other j opens
    by_cases same : other = party
    · have own : (t.place party post).post party = post := Function.update_self _ _ _
      rw [same, own] at opens
      exact absurd opens (elsewhere j)
    · have isOther : (t.place party post).post other = t.post other :=
        Function.update_of_ne same _ _
      rw [isOther] at opens
      exact opens
  constructor
  · exact settled.beyond
  · intro other j opens
    exact settled.opening other j (opened other j opens)
  · intro first second j opensFirst opensSecond
    exact settled.sole first second j (opened first j opensFirst) (opened second j opensSecond)

theorem Table.Settled.still (settled : t.Settled) (still : Still t after) : after.Settled := by
  have state : ∀ j, after.state j = t.state j :=
    fun j => congrArg (fun conn => conn.tcb.state) (still.conns j)
  apply settled.moved still.moves
  · intro j isBeyond isFree
    rw [state]
    exact isFree
  · intro j isClosed noError
    rw [state, still.conns]
    exact ⟨isClosed, noError⟩

theorem Table.Settled.sets (settled : t.Settled) {conn : Conn} (sets : Sets t after k conn)
    (isBlock : k < ntcp)
    (closed : t.state k = .closed → (t.slot k).conn.tcb.error = none →
      conn.tcb.state = .closed ∧ conn.tcb.error = none) : after.Settled := by
  apply settled.moved sets.moves
  · intro j isBeyond isFree
    have away : j ≠ k := by
      intro same
      omega
    simp only [Table.state]
    rw [sets.others j away]
    exact isFree
  · intro j isClosed noError
    by_cases same : j = k
    · rw [same] at isClosed noError ⊢
      simp only [Table.state]
      rw [sets.own]
      exact closed isClosed noError
    · simp only [Table.state]
      rw [sets.others j same]
      exact ⟨isClosed, noError⟩

/-- `tcpbind` leaves the state as it is. -/
theorem Table.Settled.binds (settled : t.Settled) (opens : t.post party = .opening k)
    {lip rip : Word} {lport rport : BitVec 16} : (t.tcpbind k lip rip lport rport).Settled := by
  have isBlock : k < ntcp := by
    apply settled.isBlock
    rw [(settled.opening party k opens).1]
    decide
  exact settled.sets setConn_sets isBlock (fun isClosed noError => ⟨isClosed, noError⟩)

/-- One slot and one place are written. -/
structure Writes (t after : Table) (k : Nat) (slot : Slot) (party : Party) (post : Post) : Prop where
  own : after.slot k = slot
  others : ∀ j, j ≠ k → after.slot j = t.slot j
  ownPost : after.post party = post
  otherPosts : ∀ other, other ≠ party → after.post other = t.post other

theorem setSlot_writes {slot : Slot} {post : Post} :
    Writes t ((t.setSlot k slot).place party post) k slot party post where
  own := Function.update_self _ _ _
  others := fun _ away => Function.update_of_ne away _ _
  ownPost := Function.update_self _ _ _
  otherPosts := fun _ away => Function.update_of_ne away _ _

/-- `tcpmopen` is done with the block: it is a server's, or is opened, or free again. -/
theorem Writes.opened {slot : Slot} {post : Post} (writes : Writes t after k slot party post)
    (settled : t.Settled) (opens : t.post party = .opening k) (elsewhere : ∀ j, post ≠ .opening j)
    {other : Party} {j : Nat} (opensLater : after.post other = .opening j) :
    t.post other = .opening j ∧ j ≠ k := by
  have away : other ≠ party := by
    intro same
    rw [same, writes.ownPost] at opensLater
    exact elsewhere j opensLater
  rw [writes.otherPosts other away] at opensLater
  refine ⟨opensLater, ?_⟩
  intro same
  rw [same] at opensLater
  exact away (settled.sole other party k opensLater opens)

theorem Table.Settled.leaves (settled : t.Settled) {slot : Slot} {post : Post}
    (writes : Writes t after k slot party post) (opens : t.post party = .opening k)
    (elsewhere : ∀ j, post ≠ .opening j) : after.Settled where
  beyond := by
    intro j isBeyond
    have isBlock : k < ntcp := by
      apply settled.isBlock
      rw [(settled.opening party k opens).1]
      decide
    simp only [Table.state]
    rw [writes.others j (by omega)]
    exact settled.beyond j isBeyond
  opening := by
    intro other j opensLater
    rcases writes.opened settled opens elsewhere opensLater with ⟨before, away⟩
    simp only [Table.state]
    rw [writes.others j away]
    exact settled.opening other j before
  sole := fun first second j opensFirst opensSecond =>
    settled.sole first second j (writes.opened settled opens elsewhere opensFirst).1
      (writes.opened settled opens elsewhere opensSecond).1

theorem Table.Settled.unopened (settled : t.Settled) (isFree : t.state k = .free) (other : Party) :
    t.post other ≠ .opening k := by
  intro opens
  rw [(settled.opening other k opens).1] at isFree
  cases isFree

theorem Table.Settled.allocate (settled : t.Settled) {slot : Slot}
    (writes : Writes t after k slot party (.opening k)) (found : t.tcballoc = some k)
    (isClosed : slot.conn.tcb.state = .closed) (noError : slot.conn.tcb.error = none) :
    after.Settled := by
  rcases tcballoc_spec found with ⟨isBlock, isFree⟩
  have opened : ∀ other j, after.post other = .opening j →
      other = party ∧ j = k ∨ t.post other = .opening j ∧ j ≠ k := by
    intro other j opensLater
    by_cases same : other = party
    · rw [same, writes.ownPost] at opensLater
      cases opensLater
      exact Or.inl ⟨same, rfl⟩
    · rw [writes.otherPosts other same] at opensLater
      refine Or.inr ⟨opensLater, ?_⟩
      intro isNew
      rw [isNew] at opensLater
      exact settled.unopened isFree other opensLater
  constructor
  · intro j isBeyond
    simp only [Table.state]
    rw [writes.others j (by omega)]
    exact settled.beyond j isBeyond
  · intro other j opensLater
    simp only [Table.state]
    rcases opened other j opensLater with ⟨isParty, isNew⟩ | ⟨before, away⟩
    · rw [isNew, writes.own]
      exact ⟨isClosed, noError⟩
    · rw [writes.others j away]
      exact settled.opening other j before
  · intro first second j opensFirst opensSecond
    rcases opened first j opensFirst with ⟨isFirst, isNew⟩ | ⟨beforeFirst, away⟩
    · rcases opened second j opensSecond with ⟨isSecond, alsoNew⟩ | ⟨beforeSecond, away⟩
      · rw [isFirst, isSecond]
      · exact absurd isNew away
    · rcases opened second j opensSecond with ⟨isSecond, isNew⟩ | ⟨beforeSecond, alsoAway⟩
      · exact absurd isNew away
      · exact settled.sole first second j beforeFirst beforeSecond

/-- `tcplisten` fills a block that nobody opens. -/
theorem Table.Settled.spawned (settled : t.Settled) {child : Nat} (listens : t.state k = .listen)
    (allocated : t.tcballoc = some child)
    (others : ∀ j, j ≠ k → j ≠ child → (after.slot j).conn = (t.slot j).conn)
    (moves : Moves t after) : after.Settled := by
  rcases tcballoc_spec allocated with ⟨isChild, isFree⟩
  apply settled.moved moves
  · intro j isBeyond isFreeBefore
    have notServer : j ≠ k := by
      intro same
      rw [same, listens] at isFreeBefore
      cases isFreeBefore
    simp only [Table.state]
    rw [others j notServer (by omega)]
    exact isFreeBefore
  · intro j isClosed noError
    have notServer : j ≠ k := by
      intro same
      rw [same, listens] at isClosed
      cases isClosed
    have notChild : j ≠ child := by
      intro same
      rw [same, isFree] at isClosed
      cases isClosed
    simp only [Table.state]
    rw [others j notServer notChild]
    exact ⟨isClosed, noError⟩

/-- One step of a process. `tcpsynrcvd` goes on with the connection it has waited for. -/
theorem Table.Settled.turn (settled : t.Settled) {added : Int} (turn : BlockTurn t party after added)
    (found : ∀ j server inbound, t.post party = .parent j server inbound →
      ¬ t.Blocked server party → t.state j = .synrcvd) : after.Settled := by
  cases turn with
  | still still => exact settled.still still
  | @works j errand added stands goesOn taken works =>
      cases works with
      | still still => exact settled.still still
      | sets cause sets =>
          exact settled.sets sets (settled.isBlock taken) cause.stays_closed
      | spawns segment listens syn allocated server state paired others moves dropped =>
          exact settled.spawned listens allocated others moves
  | @refused j server inbound stands goesOn sets =>
      have isSynrcvd := found j server inbound stands goesOn
      apply settled.sets sets
      · apply settled.isBlock
        rw [isSynrcvd]
        decide
      · intro isClosed
        rw [isSynrcvd] at isClosed
        cases isClosed
  | @opened j server inbound stands goesOn accepts sets =>
      have isSynrcvd := found j server inbound stands goesOn
      apply settled.sets sets
      · apply settled.isBlock
        rw [isSynrcvd]
        decide
      · intro isClosed
        rw [isSynrcvd] at isClosed
        cases isClosed
  | @woken j taken ends sets =>
      apply settled.sets sets (settled.isBlock taken)
      intro isClosed noError
      rcases ends with isError | isLastack
      · rw [noError] at isError
        cases isError
      · rw [isLastack] at isClosed
        cases isClosed

theorem waiting_elsewhere {j : Nat} {errand : Errand} : ∀ i, Post.waiting j errand ≠ .opening i := by
  intro i same
  cases same

theorem Table.Settled.step (settled : t.Settled) {event : TableEvent}
    (found : ∀ other j server inbound, event = .go other → t.post other = .parent j server inbound →
      ¬ t.Blocked server other → t.state j = .synrcvd) : (tableStep t event).Settled := by
  cases event with
  | demux inbound iss mss =>
      simp only [tableStep]
      split
      · cases isFound : tcpdemux t inbound.segment with
        | none => exact settled
        | some j =>
            apply settled.placed
            intro i same
            cases same
      · exact settled
  | output j event fuel =>
      simp only [tableStep]
      split
      · exact (settled.still wait_still).placed waiting_elsewhere
      · exact settled
  | visit pid j errand =>
      simp only [tableStep]
      split
      · exact (settled.still wait_still).placed waiting_elsewhere
      · exact settled
  | allocate pid =>
      simp only [tableStep]
      split
      · cases isFound : t.tcballoc with
        | none => exact settled
        | some j => exact settled.allocate setSlot_writes isFound rfl rfl
      · exact settled
  | bind pid lip rip lport rport =>
      simp only [tableStep]
      split
      · rename_i j opens
        exact settled.binds opens
      · exact settled
  | serve pid lport =>
      simp only [tableStep]
      split
      · rename_i j opens
        exact settled.leaves setSlot_writes opens leaving_elsewhere
      · exact settled
  | connect pid iss mss =>
      simp only [tableStep]
      split
      · rename_i j opens
        exact settled.leaves setSlot_writes opens leaving_elsewhere
      · exact settled
  | giveup pid =>
      simp only [tableStep]
      split
      · rename_i j opens
        exact settled.leaves setSlot_writes opens idle_elsewhere
      · exact settled
  | go other => exact settled.turn go_turn (fun j server inbound => found other j server inbound rfl)

end Settled

end MvsXinu.Tcp
