import MvsXinu.Tcp.Binding
import MvsXinu.Tcp.OpenBlocks

/-!
# Connections stay distinct, and `tcpdemux` finds them

The ends of a connection do not change until its block is free. An open that has bound its ends
has compared them with those of every block, and `tcplisten` makes a block for a segment that no
block matched when `tcpdemux` looked, so the connections stay distinct as long as nobody binds
the ends of the segment in between.
-/

namespace MvsXinu.Tcp

open MvsXinu.Runs MvsXinu.SeqSpace MvsXinu.Locks

set_option autoImplicit false

/-! ## What keeps the ends of a block -/

/-- The block is free, or has its ends and is a server's as before. -/
def Kin (conn after : Conn) : Prop :=
  after.tcb.state = .free ∨
    conn.tcb.state ≠ .free ∧ (after.tcb.state = .listen ↔ conn.tcb.state = .listen) ∧
      after.tcb.ends = conn.tcb.ends

section Handlers

variable {conn after : Conn} {inbound : Inbound} {errand : Errand} {added : Int}

theorem Kin.refl (conn : Conn) : Kin conn conn := by
  by_cases isFree : conn.tcb.state = .free
  · exact Or.inl isFree
  · exact Or.inr ⟨isFree, Iff.rfl, rfl⟩

theorem ends_of_origin {tcb other : Tcb} (same : tcb.origin = other.origin) :
    tcb.ends = other.ends := by
  have lip := congrArg Origin.lip same
  have lport := congrArg Origin.lport same
  have rip := congrArg Origin.rip same
  have rport := congrArg Origin.rport same
  simp only [Tcb.origin] at lip lport rip rport
  simp only [Tcb.ends, lip, lport, rip, rport]

theorem Carried.kin {state : TcpState} (carried : Carried conn after state)
    (taken : conn.tcb.state ≠ .free) (same : state = .listen ↔ conn.tcb.state = .listen) :
    Kin conn after := by
  refine Or.inr ⟨taken, ?_, ends_of_origin carried.origin⟩
  rw [carried.state]
  exact same

theorem Steady.kin (steady : Steady conn after) : Kin conn after := by
  by_cases isFree : conn.tcb.state = .free
  · exact Or.inl (steady.state.trans isFree)
  · exact Carried.kin steady isFree Iff.rfl

theorem Failed.kin (failed : Failed conn after) : Kin conn after := by
  by_cases isFree : conn.tcb.state = .free
  · exact Or.inl (failed.state.trans isFree)
  · refine Or.inr ⟨isFree, ?_, ends_of_origin failed.origin⟩
    rw [failed.state]

theorem freed_kin : Kin conn (tcbdealloc after) := Or.inl (tcbdealloc_state after)

/-- A handler of a connection enters another state of a connection. -/
theorem Turn.kin {signals : Nat} (turn : Turn conn after signals) (taken : conn.tcb.state ≠ .free)
    (notListen : conn.tcb.state ≠ .listen)
    (opened : conn.tcb.state ≠ .closed ∧ conn.tcb.state ≠ .synsent) : Kin conn after := by
  have moves : ∀ state, Carried conn after state → state ≠ .listen → Kin conn after := by
    intro state carried isOther
    apply carried.kin taken
    exact ⟨fun same => absurd same isOther, fun same => absurd same notListen⟩
  cases turn with
  | steady steady awaited => exact steady.kin
  | failed failed other => exact failed.kin
  | freed freed => exact Or.inl freed
  | closed found closed =>
      rcases found with isClosed | isSynsent
      · exact absurd isClosed opened.1
      · exact absurd isSynsent opened.2
  | synrcvd found moved => exact absurd found opened.2
  | @opened found state moved opens signals one =>
      apply moves state moved
      rcases opens with isEstablished | isClosewait
      · rw [isEstablished]
        decide
      · rw [isClosewait]
        decide
  | closewait found moved => exact moves .closewait moved (by decide)
  | finwait2 found moved => exact moves .finwait2 moved (by decide)
  | closing found moved => exact moves .closing moved (by decide)
  | timewait found moved due => exact moves .timewait moved (by decide)

theorem synsent_kin (found : conn.tcb.state = .synsent) : Kin conn (tcpsynsent conn inbound) := by
  have taken : conn.tcb.state ≠ .free := by
    rw [found]
    decide
  have notListen : conn.tcb.state ≠ .listen := by
    rw [found]
    decide
  simp only [tcpsynsent]
  split
  · exact (tcpreset_steady conn inbound.segment).kin
  · split
    · have killed := killtimers_steady
        { conn with tcb := { conn.tcb with state := .closed, error := some .reset } }
      refine Or.inr ⟨taken, ?_, ends_of_origin killed.origin⟩
      rw [killed.state]
      constructor
      · intro same
        cases same
      · intro same
        exact absurd same notListen
    · split
      · exact Kin.refl conn
      · generalize isTaken : tcpdeliver (tcpacked _ inbound.segment).2 inbound = received
        have steady : Steady conn received := by
          rw [← isTaken]
          apply Steady.trans (Steady.trans _ (tcpacked_steady _ inbound.segment))
            (tcpdeliver_steady _ inbound)
          exact ⟨rfl, rfl, rfl, id⟩
        split
        · apply (enter_carried steady .synrcvd).kin taken
          exact ⟨fun same => absurd same (by decide), fun same => absurd same notListen⟩
        · apply (enter_carried steady .established).kin taken
          exact ⟨fun same => absurd same (by decide), fun same => absurd same notListen⟩

theorem switch_kin (conn : Conn) (inbound : Inbound) : Kin conn (tcpswitch conn inbound) := by
  by_cases early : conn.tcb.state = .free ∨ conn.tcb.state = .listen
  · have same : tcpswitch conn inbound = conn := by
      rcases early with isFree | isListen
      · simp only [tcpswitch, isFree]
      · simp only [tcpswitch, isListen]
    rw [same]
    exact Kin.refl conn
  · rcases not_or.mp early with ⟨taken, notListen⟩
    by_cases isClosed : conn.tcb.state = .closed
    · simp only [tcpswitch, isClosed]
      exact (tcpreset_steady conn inbound.segment).kin
    · by_cases isSynsent : conn.tcb.state = .synsent
      · simp only [tcpswitch, isSynsent]
        exact synsent_kin isSynsent
      · by_cases plain : conn.tcb.state = .finwait1 ∨ conn.tcb.state = .finwait2 →
            (inbound.segment.code.rst || inbound.segment.code.syn) = false
        · have turn := switch_turn 0 (fun found => absurd found isSynsent) plain
          exact turn.kin taken notListen ⟨isClosed, isSynsent⟩
        · have both := Classical.not_imp.mp plain
          have ends : (inbound.segment.code.rst || inbound.segment.code.syn) = true :=
            (Bool.not_eq_false _).mp both.2
          rcases both.1 with isFinwait1 | isFinwait2
          · simp only [tcpswitch, isFinwait1]
            exact (aborts_failed conn _ inbound.segment ends).kin
          · simp only [tcpswitch, isFinwait2]
            exact (aborts_failed conn _ inbound.segment ends).kin

theorem Cause.kin (cause : Cause conn errand after added) : Kin conn after := by
  cases cause with
  | steady steady => exact steady.kin
  | @switched inbound bare iss mss read isHanded =>
      rcases (handed_spec isHanded).2.1 with ⟨smss, isRead⟩
      have kin := switch_kin read bare
      rw [isRead] at kin ⊢
      exact kin
  | orphaned found steady => exact freed_kin
  | deleted isOpen => exact freed_kin
  | sent isOpen ended =>
      rcases tcposwitch_turn ended with ⟨steady, early⟩ | ⟨failed, last, sending⟩
      · exact steady.kin
      · exact failed.kin
  | shut ends => exact freed_kin
  | closed isOpen noError =>
      have kicked := tcpkick_steady { conn with tcb := tcpclosedtcb conn.tcb }
      refine Or.inr ⟨?_, ?_, ends_of_origin kicked.origin⟩
      · intro isFree
        rw [isFree] at isOpen
        exact absurd isOpen (by decide)
      · rw [kicked.state]
        simp only [tcpclosedtcb]
        constructor
        · intro same
          split at same
          · cases same
          · cases same
        · intro same
          rw [same] at isOpen
          exact absurd isOpen (by decide)

theorem tcpsynopened_kin (found : conn.tcb.state = .synrcvd) :
    Kin conn (tcpsynopened conn inbound) := by
  have turn : Turn conn (tcpsynopened conn inbound) (if conn.tcb.passive then 0 else 1) :=
    tcpsynopened_turn found (Steady.refl conn) rfl
  apply turn.kin
  · rw [found]
    decide
  · rw [found]
    decide
  · rw [found]
    decide

end Handlers

/-! ## The invariant -/

/-- What `tcpdemux` has found stays right until it has the mutex. -/
def Bindings.Found (s : Bindings) (k : Nat) (segment : Segment) : Prop :=
  k < ntcp ∧
    (s.Matches k segment ∨
      (s.table.state k = .free ∨ (s.table.slot k).Listens segment ∧ segment.code.syn = true) ∧
        ∀ j < ntcp, ¬ s.Matches j segment)

structure Bindings.Sound (s : Bindings) : Prop where
  settled : s.table.Settled
  unbound : ∀ k, s.unbound k = true →
    s.table.state k = .closed ∧ (s.table.slot k).conn.tcb.error = none
  distinct : ∀ i < ntcp, ∀ j < ntcp, s.Claimed i → s.Claimed j →
    (s.table.slot i).conn.tcb.ends = (s.table.slot j).conn.tcb.ends → i = j
  found : ∀ k segment, s.table.carried = some (k, segment) → s.Found k segment
  lone : ∀ party, party ≠ .inp → (s.table.post party).carried = none

section Invariant

variable {s after : Bindings} {k : Nat} {segment : Segment}

theorem pairs_iff {slot : Slot} : slot.Pairs segment ↔ slot.conn.tcb.ends = segment.ends := by
  simp only [Slot.Pairs, Tcb.ends, Segment.ends, Prod.mk.injEq]
  constructor
  · intro paired
    rcases paired with ⟨dport, sport, src, dst⟩
    exact ⟨src.symm, sport.symm, dst.symm, dport.symm⟩
  · intro same
    rcases same with ⟨rip, rport, lip, lport⟩
    exact ⟨lport.symm, rport.symm, rip.symm, lip.symm⟩

/-- What suits a segment goes on to. -/
theorem Kin.suits {slot after : Slot} (kin : Kin slot.conn after.conn)
    (alive : after.conn.tcb.state ≠ .free) (suits : slot.Pairs segment ∨ slot.Listens segment) :
    after.Pairs segment ∨ after.Listens segment := by
  obtain ⟨_, listens, ends⟩ := kin.resolve_left alive
  rcases suits with pairs | ⟨listening, port⟩
  · left
    rw [pairs_iff, ends]
    exact pairs_iff.mp pairs
  · right
    refine ⟨listens.mpr listening, port.trans ?_⟩
    exact (congrArg (fun ends => ends.2.2.2) ends).symm

theorem Bindings.Sound.sole (sound : s.Sound) {j : Nat} (isBlock : k < ntcp) (isOther : j < ntcp)
    (first : s.Matches k segment) (second : s.Matches j segment) : j = k := by
  apply sound.distinct j isOther k isBlock second.1 first.1
  rw [pairs_iff.mp second.2, pairs_iff.mp first.2]

/-- No connection comes to be. -/
def Subsides (s after : Bindings) : Prop :=
  ∀ j, after.Claimed j → s.Claimed j ∧
    (after.table.slot j).conn.tcb.ends = (s.table.slot j).conn.tcb.ends

theorem Subsides.matches (subsides : Subsides s after) {j : Nat}
    (matched : after.Matches j segment) : s.Matches j segment := by
  rcases subsides j matched.1 with ⟨claimed, same⟩
  refine ⟨claimed, ?_⟩
  rw [pairs_iff, ← same]
  exact pairs_iff.mp matched.2

theorem Subsides.distinct (subsides : Subsides s after) (sound : s.Sound) :
    ∀ i < ntcp, ∀ j < ntcp, after.Claimed i → after.Claimed j →
      (after.table.slot i).conn.tcb.ends = (after.table.slot j).conn.tcb.ends → i = j := by
  intro i isI j isJ claimedI claimedJ same
  rcases subsides i claimedI with ⟨beforeI, sameI⟩
  rcases subsides j claimedJ with ⟨beforeJ, sameJ⟩
  rw [sameI, sameJ] at same
  exact sound.distinct i isI j isJ beforeI beforeJ same

/-- The block that `tcpdemux` has found is as it was, or free. -/
theorem Subsides.found (subsides : Subsides s after) (sound : s.Sound) (found : s.Found k segment)
    (matched : s.Matches k segment → after.Matches k segment ∨ after.table.state k = .free)
    (free : s.table.state k = .free → after.table.state k = .free)
    (listens : (s.table.slot k).Listens segment →
      (after.table.slot k).Listens segment ∨ after.table.state k = .free) :
    after.Found k segment := by
  rcases found with ⟨isBlock, isMatch | ⟨isFree | ⟨isListen, syn⟩, none⟩⟩
  · refine ⟨isBlock, ?_⟩
    rcases matched isMatch with still | isFree
    · exact Or.inl still
    · refine Or.inr ⟨Or.inl isFree, ?_⟩
      intro j isOther matches'
      have same := sound.sole isBlock isOther isMatch (subsides.matches matches')
      rw [same] at matches'
      exact matches'.1.1 isFree
  · exact ⟨isBlock, Or.inr ⟨Or.inl (free isFree),
      fun j isOther matches' => none j isOther (subsides.matches matches')⟩⟩
  · refine ⟨isBlock, Or.inr ⟨?_, fun j isOther matches' =>
      none j isOther (subsides.matches matches')⟩⟩
    rcases listens isListen with still | isFree
    · exact Or.inr ⟨still, syn⟩
    · exact Or.inl isFree

theorem kin_back (unbound : after.unbound = s.unbound)
    (kin : ∀ j, Kin (s.table.slot j).conn (after.table.slot j).conn) : Subsides s after := by
  intro j claimed
  rcases claimed with ⟨taken, notListen, bound⟩
  rcases kin j with isFree | ⟨wasTaken, listen, ends⟩
  · exact absurd isFree taken
  · rw [unbound] at bound
    exact ⟨⟨wasTaken, fun isListen => notListen (listen.mpr isListen), bound⟩, ends⟩

theorem kin_found (unbound : after.unbound = s.unbound)
    (kin : ∀ j, Kin (s.table.slot j).conn (after.table.slot j).conn) (sound : s.Sound)
    (found : s.Found k segment) : after.Found k segment := by
  apply (kin_back unbound kin).found sound found
  · intro matched
    rcases kin k with isFree | ⟨wasTaken, listen, ends⟩
    · exact Or.inr isFree
    · by_cases isFree : after.table.state k = .free
      · exact Or.inr isFree
      · refine Or.inl ⟨⟨isFree, fun isListen => matched.1.2.1 (listen.mp isListen), ?_⟩, ?_⟩
        · rw [unbound]
          exact matched.1.2.2
        · rw [pairs_iff, ends]
          exact pairs_iff.mp matched.2
  · intro isFree
    rcases kin k with isFreeLater | ⟨wasTaken, listen, ends⟩
    · exact isFreeLater
    · exact absurd isFree wasTaken
  · intro listens
    rcases kin k with isFree | ⟨wasTaken, listen, ends⟩
    · exact Or.inr isFree
    · refine Or.inl ⟨listen.mpr listens.1, ?_⟩
      have port := congrArg (fun quad => quad.2.2.2) ends
      simp only [Tcb.ends] at port
      rw [port]
      exact listens.2

/-- Blocks that are bound or a server's change. -/
theorem Bindings.Sound.moved (sound : s.Sound) (settled : after.table.Settled)
    (unbound : after.unbound = s.unbound)
    (kin : ∀ j, Kin (s.table.slot j).conn (after.table.slot j).conn)
    (closed : ∀ j, s.table.state j = .closed → (s.table.slot j).conn.tcb.error = none →
      s.unbound j = true →
      after.table.state j = .closed ∧ (after.table.slot j).conn.tcb.error = none)
    (carried : ∀ party, (after.table.post party).carried = (s.table.post party).carried ∨
      (after.table.post party).carried = none) : after.Sound where
  settled := settled
  unbound := by
    intro j isUnbound
    rw [unbound] at isUnbound
    rcases sound.unbound j isUnbound with ⟨isClosed, noError⟩
    exact closed j isClosed noError isUnbound
  distinct := (kin_back unbound kin).distinct sound
  found := by
    intro j segment carries
    apply kin_found unbound kin sound
    rcases carried .inp with same | dropped
    · simp only [Table.carried] at carries
      rw [same] at carries
      exact sound.found j segment carries
    · simp only [Table.carried] at carries
      rw [dropped] at carries
      cases carries
  lone := by
    intro party away
    rcases carried party with same | dropped
    · rw [same]
      exact sound.lone party away
    · exact dropped

end Invariant

/-! ## The steps of a process -/

section Processes

variable {s : Bindings} {party : Party} {k : Nat} {after : Table}

def Bindings.withTable (s : Bindings) (after : Table) : Bindings := { s with table := after }

theorem still_sound (sound : s.Sound) (still : Still s.table after) : (s.withTable after).Sound := by
  have state : ∀ j, after.state j = s.table.state j :=
    fun j => congrArg (fun conn => conn.tcb.state) (still.conns j)
  apply sound.moved
  · exact sound.settled.still still
  · rfl
  · intro j
    show Kin (s.table.slot j).conn (after.slot j).conn
    rw [still.conns]
    exact Kin.refl _
  · intro j isClosed noError isUnbound
    show after.state j = .closed ∧ (after.slot j).conn.tcb.error = none
    rw [state, still.conns]
    exact ⟨isClosed, noError⟩
  · exact still.moves.carried

theorem sets_sound (sound : s.Sound) {conn : Conn} (sets : Sets s.table after k conn)
    (taken : s.table.state k ≠ .free)
    (closed : s.table.state k = .closed → (s.table.slot k).conn.tcb.error = none →
      conn.tcb.state = .closed ∧ conn.tcb.error = none)
    (kin : Kin (s.table.slot k).conn conn) : (s.withTable after).Sound := by
  apply sound.moved
  · exact sound.settled.sets sets (sound.settled.isBlock taken) closed
  · rfl
  · intro j
    show Kin (s.table.slot j).conn (after.slot j).conn
    by_cases same : j = k
    · rw [same, sets.own]
      exact kin
    · rw [sets.others j same]
      exact Kin.refl _
  · intro j isClosed noError isUnbound
    show after.state j = .closed ∧ (after.slot j).conn.tcb.error = none
    by_cases same : j = k
    · rw [same] at isClosed noError ⊢
      simp only [Table.state]
      rw [sets.own]
      exact closed isClosed noError
    · simp only [Table.state]
      rw [sets.others j same]
      exact ⟨isClosed, noError⟩
  · exact sets.moves.carried

/-- `tcplisten` makes a block for the segment that no block matches. -/
theorem spawn_sound (sound : s.Sound) {inbound : Inbound} {iss : Tcpseq} {mss : Word} {child : Nat}
    (stands : s.table.post party = .waiting k (.segment inbound iss mss))
    (listens : s.table.state k = .listen) (allocated : s.table.tcballoc = some child)
    (server : Steady (s.table.slot k).conn (after.slot k).conn)
    (paired : (after.slot child).Pairs inbound.segment)
    (others : ∀ j, j ≠ k → j ≠ child → (after.slot j).conn = (s.table.slot j).conn)
    (moves : Moves s.table after) (dropped : (after.post party).carried = none) :
    (s.withTable after).Sound := by
  rcases tcballoc_spec allocated with ⟨isChild, isFree⟩
  have carries : (s.table.post party).carried = some (k, inbound.segment) := by
    rw [stands]
    rfl
  have isInp : party = .inp := by
    by_contra away
    rw [sound.lone party away] at carries
    cases carries
  have unmatched : ∀ j < ntcp, ¬ s.Matches j inbound.segment := by
    rw [isInp] at carries
    rcases sound.found k inbound.segment carries with ⟨isBlock, matched | ⟨found, none⟩⟩
    · exact absurd listens matched.1.2.1
    · exact none
  have serverState : after.state k = .listen := server.state.trans listens
  -- a connection other than the new one was there before
  have back : ∀ j, j ≠ child → (s.withTable after).Claimed j →
      s.Claimed j ∧ (after.slot j).conn.tcb.ends = (s.table.slot j).conn.tcb.ends := by
    intro j notChild claimed
    have notServer : j ≠ k := by
      intro same
      rw [same] at claimed
      exact claimed.2.1 serverState
    have sameConn := others j notServer notChild
    rcases claimed with ⟨taken, notListen, bound⟩
    simp only [Bindings.withTable, Table.state] at taken notListen bound
    rw [sameConn] at taken notListen ⊢
    exact ⟨⟨taken, notListen, bound⟩, rfl⟩
  have distinctChild : ∀ j < ntcp, j ≠ child → (s.withTable after).Claimed j →
      (after.slot j).conn.tcb.ends ≠ (after.slot child).conn.tcb.ends := by
    intro j isOther notChild claimed same
    rcases back j notChild claimed with ⟨before, sameEnds⟩
    apply unmatched j isOther
    refine ⟨before, ?_⟩
    rw [pairs_iff, ← sameEnds, same]
    exact pairs_iff.mp paired
  constructor
  · exact sound.settled.spawned listens allocated others moves
  · intro j isUnbound
    rcases sound.unbound j isUnbound with ⟨isClosed, noError⟩
    have notServer : j ≠ k := by
      intro same
      rw [same, listens] at isClosed
      cases isClosed
    have notChild : j ≠ child := by
      intro same
      rw [same, isFree] at isClosed
      cases isClosed
    show after.state j = .closed ∧ (after.slot j).conn.tcb.error = none
    simp only [Table.state]
    rw [others j notServer notChild]
    exact ⟨isClosed, noError⟩
  · intro i isI j isJ claimedI claimedJ same
    by_cases newI : i = child
    · by_contra apart
      have notChild : j ≠ child := fun newJ => apart (newI.trans newJ.symm)
      rw [newI] at same
      exact distinctChild j isJ notChild claimedJ same.symm
    · by_cases newJ : j = child
      · rw [newJ] at same
        exact absurd same (distinctChild i isI newI claimedI)
      · rcases back i newI claimedI with ⟨beforeI, endsI⟩
        rcases back j newJ claimedJ with ⟨beforeJ, endsJ⟩
        apply sound.distinct i isI j isJ beforeI beforeJ
        rw [← endsI, ← endsJ]
        exact same
  · intro j segment carriesLater
    rw [isInp] at dropped
    simp only [Bindings.withTable, Table.carried] at carriesLater
    rw [dropped] at carriesLater
    cases carriesLater
  · intro other away
    rcases moves.carried other with same | droppedLater
    · show (after.post other).carried = none
      rw [same]
      exact sound.lone other away
    · exact droppedLater

/-- A process goes to a place; `tcpinp` may carry what it has found. -/
theorem placed_sound (sound : s.Sound) {post : Post} (elsewhere : ∀ j, post ≠ .opening j)
    (found : party = .inp → ∀ j segment, post.carried = some (j, segment) → s.Found j segment)
    (lone : party ≠ .inp → post.carried = none) :
    (s.withTable (s.table.place party post)).Sound := by
  have own : (s.table.place party post).post party = post := Function.update_self _ _ _
  have others : ∀ other, other ≠ party → (s.table.place party post).post other = s.table.post other :=
    fun other away => Function.update_of_ne away _ _
  constructor
  · exact sound.settled.placed elsewhere
  · exact sound.unbound
  · exact sound.distinct
  · intro j segment carries
    by_cases isInp : Party.inp = party
    · simp only [Bindings.withTable, Table.carried] at carries
      rw [isInp, own] at carries
      exact found isInp.symm j segment carries
    · simp only [Bindings.withTable, Table.carried] at carries
      rw [others .inp isInp] at carries
      exact sound.found j segment carries
  · intro other away
    show ((s.table.place party post).post other).carried = none
    by_cases same : other = party
    · rw [same, own]
      apply lone
      rw [← same]
      exact away
    · rw [others other same]
      exact sound.lone other away

theorem go_sound (sound : s.Sound) (unhurried : Unhurried s (.go party)) :
    (s.withTable (s.table.go party)).Sound := by
  have turn : BlockTurn s.table party (s.table.go party) (goCounts s.table party) := go_turn
  simp only [Unhurried] at unhurried
  generalize s.table.go party = after at turn ⊢
  generalize goCounts s.table party = added at turn
  cases turn with
  | still still => exact still_sound sound still
  | @works k errand added stands goesOn taken works =>
      cases works with
      | still still => exact still_sound sound still
      | sets cause sets => exact sets_sound sound sets taken cause.stays_closed cause.kin
      | spawns segment listens syn allocated server state paired others moves dropped =>
          rw [segment] at stands
          exact spawn_sound sound stands listens allocated server paired others moves dropped
  | @refused k server inbound stands goesOn sets =>
      simp only [stands] at unhurried
      have found := unhurried goesOn
      apply sets_sound sound sets
      · rw [found]
        decide
      · intro isClosed
        rw [found] at isClosed
        cases isClosed
      · exact freed_kin
  | @opened k server inbound stands goesOn accepts sets =>
      simp only [stands] at unhurried
      have found := unhurried goesOn
      apply sets_sound sound sets
      · rw [found]
        decide
      · intro isClosed
        rw [found] at isClosed
        cases isClosed
      · exact tcpsynopened_kin found
  | @woken k taken ends sets =>
      apply sets_sound sound sets taken
      · intro isClosed noError
        rcases ends with isError | isLastack
        · rw [noError] at isError
          cases isError
        · rw [isLastack] at isClosed
          cases isClosed
      · exact freed_kin

/-! ## `tcpdemux` -/

/-- The block with the four-tuple, or a server of the port where no block has it. -/
theorem tcpdemux_some {t : Table} {segment : Segment} {k : Nat}
    (found : tcpdemux t segment = some k) :
    k < ntcp ∧
      (t.state k ≠ .free ∧ (t.slot k).Pairs segment ∨
        ((t.slot k).Listens segment ∧ segment.code.syn = true) ∧
          ∀ j < ntcp, t.state j ≠ .free → ¬ (t.slot j).Pairs segment) := by
  simp only [tcpdemux] at found
  split at found
  · rename_i j isFound
    cases found
    have matched := List.find?_some isFound
    have member := List.mem_of_find?_eq_some isFound
    simp only [Bool.and_eq_true, bne_iff_ne, decide_eq_true_eq] at matched
    exact ⟨List.mem_range.mp member, Or.inl matched⟩
  · rename_i unmatched
    split at found
    · rename_i syn
      have member := List.mem_of_getLast? found
      simp only [List.mem_filter, List.mem_range, decide_eq_true_eq] at member
      refine ⟨member.1, Or.inr ⟨⟨member.2, syn⟩, ?_⟩⟩
      intro j isBlock taken paired
      apply List.find?_eq_none.mp unmatched j (List.mem_range.mpr isBlock)
      simp only [Bool.and_eq_true, bne_iff_ne, decide_eq_true_eq]
      exact ⟨taken, paired⟩
    · cases found

theorem tcpdemux_none {t : Table} {segment : Segment} (missed : tcpdemux t segment = none) :
    (∀ j < ntcp, t.state j ≠ .free → ¬ (t.slot j).Pairs segment) ∧
      (segment.code.syn = true → ∀ j < ntcp, ¬ (t.slot j).Listens segment) := by
  simp only [tcpdemux] at missed
  split at missed
  · cases missed
  · rename_i unmatched
    constructor
    · intro j isBlock taken paired
      apply List.find?_eq_none.mp unmatched j (List.mem_range.mpr isBlock)
      simp only [Bool.and_eq_true, bne_iff_ne, decide_eq_true_eq]
      exact ⟨taken, paired⟩
    · intro syn j isBlock listens
      rw [if_pos syn] at missed
      have empty := List.getLast?_eq_none_iff.mp missed
      have member : j ∈ (List.range ntcp).filter fun k => decide ((t.slot k).Listens segment) := by
        simp only [List.mem_filter, List.mem_range, decide_eq_true_eq]
        exact ⟨isBlock, listens⟩
      rw [empty] at member
      cases member

theorem demux_found {segment : Segment} {k : Nat} (found : tcpdemux s.table segment = some k)
    (unhurried : ∀ j < ntcp, s.table.state j ≠ .free → (s.table.slot j).Pairs segment → s.Claimed j) :
    s.Found k segment := by
  rcases tcpdemux_some found with ⟨isBlock, ⟨taken, paired⟩ | ⟨listens, unmatched⟩⟩
  · exact ⟨isBlock, Or.inl ⟨unhurried k isBlock taken paired, paired⟩⟩
  · refine ⟨isBlock, Or.inr ⟨Or.inr listens, ?_⟩⟩
    intro j isOther matched
    exact unmatched j isOther matched.1.1 matched.2

theorem demux_sound (sound : s.Sound) {inbound : Inbound} {iss : Tcpseq} {mss : Word}
    (unhurried : Unhurried s (.demux inbound iss mss)) :
    (s.onTable (.demux inbound iss mss)).Sound := by
  show (s.withTable (tableStep s.table (.demux inbound iss mss))).Sound
  simp only [tableStep]
  split
  · cases isFound : tcpdemux s.table inbound.segment with
    | none => exact still_sound sound (Still.refl _)
    | some k =>
        apply placed_sound sound
        · intro j same
          cases same
        · intro isInp j segment carries
          cases carries
          exact demux_found isFound unhurried
        · intro away
          exact absurd rfl away
  · exact still_sound sound (Still.refl _)

/-- A message or a user's call that waits for the mutex. -/
theorem errand_sound (sound : s.Sound) {errand : Errand} (away : party ≠ .inp)
    (other : ∀ inbound iss mss, errand ≠ .segment inbound iss mss) :
    (s.withTable ((s.table.wait k party).place party (.waiting k errand))).Sound := by
  have waited : (s.withTable (s.table.wait k party)).Sound := still_sound sound wait_still
  apply placed_sound waited waiting_elsewhere
  · intro isInp
    exact absurd isInp away
  · intro alsoAway
    cases errand with
    | segment inbound iss mss => exact absurd rfl (other inbound iss mss)
    | _ => rfl

theorem output_sound (sound : s.Sound) {event : OutEvent} {fuel : Nat} :
    (s.onTable (.output k event fuel)).Sound := by
  show (s.withTable (tableStep s.table (.output k event fuel))).Sound
  simp only [tableStep]
  split
  · apply errand_sound sound
    · intro same
      cases same
    · intro inbound iss mss same
      cases same
  · exact still_sound sound (Still.refl _)

theorem visit_sound (sound : s.Sound) {pid : Nat} {errand : Errand} :
    (s.onTable (.visit pid k errand)).Sound := by
  show (s.withTable (tableStep s.table (.visit pid k errand))).Sound
  simp only [tableStep]
  split
  · rename_i admitted
    apply errand_sound sound
    · intro same
      cases same
    · intro inbound iss mss same
      rw [same] at admitted
      cases admitted.2
  · exact still_sound sound (Still.refl _)

end Processes

/-! ## `tcpmopen` -/

section Opens

variable {s after : Bindings} {k : Nat}

/-- Only the block of one open changes; `tcpinp` waits for another one. -/
structure Rewritten (s after : Bindings) (k : Nat) : Prop where
  conns : ∀ j, j ≠ k → (after.table.slot j).conn = (s.table.slot j).conn
  unbound : ∀ j, j ≠ k → after.unbound j = s.unbound j
  opened : after.unbound k = true →
    after.table.state k = .closed ∧ (after.table.slot k).conn.tcb.error = none
  carried : ∀ party, (after.table.post party).carried = (s.table.post party).carried
  elsewhere : ∀ j segment, s.table.carried = some (j, segment) → j ≠ k

theorem Rewritten.claimed_iff (rewritten : Rewritten s after k) {j : Nat} (away : j ≠ k) :
    after.Claimed j ↔ s.Claimed j := by
  simp only [Bindings.Claimed, Table.state]
  rw [rewritten.conns j away, rewritten.unbound j away]

theorem Rewritten.matches_iff (rewritten : Rewritten s after k) {j : Nat} (away : j ≠ k)
    {segment : Segment} : after.Matches j segment ↔ s.Matches j segment := by
  simp only [Bindings.Matches, Slot.Pairs]
  rw [rewritten.claimed_iff away, rewritten.conns j away]

theorem Rewritten.found (rewritten : Rewritten s after k) {j : Nat} {segment : Segment}
    (away : j ≠ k) (found : s.Found j segment) (apart : ¬ after.Matches k segment) :
    after.Found j segment := by
  have unmatched : (∀ i < ntcp, ¬ s.Matches i segment) → ∀ i < ntcp, ¬ after.Matches i segment := by
    intro none i isBlock matched
    by_cases same : i = k
    · rw [same] at matched
      exact apart matched
    · exact none i isBlock ((rewritten.matches_iff same).mp matched)
  have sameConn := rewritten.conns j away
  rcases found with ⟨isBlock, matched | ⟨isFree | ⟨listens, syn⟩, none⟩⟩
  · exact ⟨isBlock, Or.inl ((rewritten.matches_iff away).mpr matched)⟩
  · refine ⟨isBlock, Or.inr ⟨Or.inl ?_, unmatched none⟩⟩
    simp only [Table.state]
    rw [sameConn]
    exact isFree
  · refine ⟨isBlock, Or.inr ⟨Or.inr ⟨?_, syn⟩, unmatched none⟩⟩
    simp only [Slot.Listens]
    rw [sameConn]
    exact listens

theorem Bindings.Sound.rewritten (sound : s.Sound) (rewritten : Rewritten s after k)
    (settled : after.table.Settled)
    (distinct : after.Claimed k → ∀ j < ntcp, j ≠ k → s.Claimed j →
      (after.table.slot k).conn.tcb.ends ≠ (s.table.slot j).conn.tcb.ends)
    (apart : ∀ j segment, s.table.carried = some (j, segment) → ¬ after.Matches k segment) :
    after.Sound where
  settled := settled
  unbound := by
    intro j isUnbound
    by_cases same : j = k
    · rw [same] at isUnbound ⊢
      exact rewritten.opened isUnbound
    · rw [rewritten.unbound j same] at isUnbound
      simp only [Table.state]
      rw [rewritten.conns j same]
      exact sound.unbound j isUnbound
  distinct := by
    intro i isI j isJ claimedI claimedJ same
    by_cases isOwn : i = k
    · by_contra apart
      have away : j ≠ k := fun alsoOwn => apart (isOwn.trans alsoOwn.symm)
      rw [isOwn] at claimedI
      rw [isOwn, rewritten.conns j away] at same
      exact distinct claimedI j isJ away ((rewritten.claimed_iff away).mp claimedJ) same
    · have beforeI := (rewritten.claimed_iff isOwn).mp claimedI
      rw [rewritten.conns i isOwn] at same
      by_cases isOther : j = k
      · rw [isOther] at claimedJ same
        exact absurd same.symm (distinct claimedJ i isI isOwn beforeI)
      · rw [rewritten.conns j isOther] at same
        exact sound.distinct i isI j isJ beforeI ((rewritten.claimed_iff isOther).mp claimedJ) same
  found := by
    intro j segment carries
    simp only [Table.carried] at carries
    rw [rewritten.carried .inp] at carries
    exact rewritten.found (rewritten.elsewhere j segment carries) (sound.found j segment carries)
      (apart j segment carries)
  lone := by
    intro party away
    rw [rewritten.carried party]
    exact sound.lone party away

/-- `tcpdemux` has not found a block that is still to be bound. -/
theorem Bindings.Sound.elsewhere (sound : s.Sound) (isUnbound : s.unbound k = true) :
    ∀ j segment, s.table.carried = some (j, segment) → j ≠ k := by
  intro j segment carries same
  have isClosed := (sound.unbound k isUnbound).1
  rw [same] at carries
  rcases (sound.found k segment carries).2 with matched | ⟨isFree | ⟨listens, syn⟩, none⟩
  · rw [matched.1.2.2] at isUnbound
    cases isUnbound
  · rw [isFree] at isClosed
    cases isClosed
  · rw [show s.table.state k = .listen from listens.1] at isClosed
    cases isClosed

theorem openedBy_spec {t : Table} {pid : Nat} (opens : t.openedBy pid = some k) :
    t.post (.user pid) = .opening k := by
  simp only [Table.openedBy] at opens
  split at opens
  · rename_i j isOpening
    cases opens
    exact isOpening
  · cases opens

theorem Writes.behind_setConn {t after : Table} {conn : Conn} {slot : Slot} {party : Party}
    {post : Post} (writes : Writes (t.setConn k conn) after k slot party post) :
    Writes t after k slot party post where
  own := writes.own
  others := fun j away => (writes.others j away).trans (Function.update_of_ne away _ _)
  ownPost := writes.ownPost
  otherPosts := writes.otherPosts

/-- The end of `tcpmopen`, good or bad, or a server. -/
theorem leaves_sound (sound : s.Sound) {pid : Nat} {t : Table} {slot : Slot} {post : Post}
    (writes : Writes s.table t k slot (.user pid) post)
    (opens : s.table.post (.user pid) = .opening k) (isUnbound : s.unbound k = true)
    (elsewhere : ∀ j, post ≠ .opening j) (dropped : post.carried = none)
    (unclaimed : slot.conn.tcb.state = .free ∨ slot.conn.tcb.state = .listen) :
    Bindings.Sound { s with table := t, unbound := Function.update s.unbound k false } := by
  have state : t.state k = slot.conn.tcb.state := by
    simp only [Table.state]
    rw [writes.own]
  have notClaimed : ¬ Bindings.Claimed
      { s with table := t, unbound := Function.update s.unbound k false } k := by
    intro claimed
    rcases claimed with ⟨taken, notListen, bound⟩
    rcases unclaimed with isFree | listens
    · exact taken (state.trans isFree)
    · exact notListen (state.trans listens)
  apply sound.rewritten (k := k)
  · constructor
    · intro j away
      show (t.slot j).conn = (s.table.slot j).conn
      rw [writes.others j away]
    · intro j away
      exact Function.update_of_ne away _ _
    · intro stillUnbound
      simp only [Function.update_self] at stillUnbound
      cases stillUnbound
    · intro party
      show (t.post party).carried = (s.table.post party).carried
      by_cases same : party = .user pid
      · rw [same, writes.ownPost, opens, dropped]
        rfl
      · rw [writes.otherPosts party same]
    · exact sound.elsewhere isUnbound
  · exact sound.settled.leaves writes opens elsewhere
  · intro claimed
    exact absurd claimed notClaimed
  · intro j segment carries matched
    exact notClaimed matched.1

theorem setConn_carried {t : Table} {conn : Conn} (party : Party) :
    ((t.setConn k conn).post party).carried = (t.post party).carried := rfl

/-- `tcpbind` writes an end and is not done. -/
theorem writesEnd_sound (sound : s.Sound) {pid : Nat} {lip rip : Word} {lport rport : BitVec 16}
    (opens : s.table.post (.user pid) = .opening k) (isUnbound : s.unbound k = true) :
    Bindings.Sound { s with table := s.table.tcpbind k lip rip lport rport } := by
  rcases sound.unbound k isUnbound with ⟨isClosed, noError⟩
  have notClaimed : ¬ Bindings.Claimed
      { s with table := s.table.tcpbind k lip rip lport rport } k := by
    intro claimed
    rw [show s.unbound k = false from claimed.2.2] at isUnbound
    cases isUnbound
  have sets : Sets s.table (s.table.tcpbind k lip rip lport rport) k _ := setConn_sets
  apply sound.rewritten (k := k)
  · constructor
    · exact sets.others
    · intro j away
      rfl
    · intro stillUnbound
      simp only [Table.state]
      rw [sets.own]
      exact ⟨isClosed, noError⟩
    · exact setConn_carried
    · exact sound.elsewhere isUnbound
  · exact sound.settled.binds opens
  · intro claimed
    exact absurd claimed notClaimed
  · intro j segment carries matched
    exact notClaimed matched.1

theorem tcpnxtploop_unused {t : Table} {start port : BitVec 16} (passes : Nat) :
    ∀ lastport, tcpnxtploop t start passes lastport = some port → ¬ t.portUsed port := by
  induction passes with
  | zero =>
      intro lastport found
      cases found
  | succ passes ih =>
      intro lastport found
      simp only [tcpnxtploop] at found
      split at found
      · cases found
      · generalize (if lastport = ipportReserved then 1 else lastport) = next at found
        split at found
        · exact ih (next + 1) found
        · rename_i unused
          split at found
          · cases found
          · cases found
            exact unused

/-- No other connection has the ends with which `tcpbind` returns `OK`. -/
theorem chosen_distinct {lport port : BitVec 16} (chosen : s.chosen k lport = .port port) {j : Nat}
    (isOther : j < ntcp) (away : j ≠ k) (taken : s.table.state j ≠ .free) :
    ((s.table.setPort k port).slot k).conn.tcb.ends ≠ (s.table.slot j).conn.tcb.ends := by
  intro same
  have sets : Sets s.table (s.table.setPort k port) k _ := setConn_sets
  have parts := same
  rw [sets.own] at parts
  simp only [Tcb.ends, Prod.mk.injEq] at parts
  rcases parts with ⟨rip, rport, lip, isPort⟩
  simp only [Bindings.chosen] at chosen
  split at chosen
  · split at chosen
    · cases chosen
    · rename_i next found
      cases chosen
      exact tcpnxtploop_unused _ _ found ⟨j, isOther, taken, isPort.symm⟩
  · split at chosen
    · cases chosen
    · rename_i free
      cases chosen
      apply free
      refine ⟨j, isOther, away, ?_, ?_⟩
      · simp only [Table.state]
        rw [sets.others j away]
        exact taken
      · rw [sets.own, sets.others j away]
        exact ⟨rport, isPort, rip, lip⟩

theorem port_sound (sound : s.Sound) {pid : Nat} {lport : BitVec 16}
    (opens : s.table.post (.user pid) = .opening k) (isUnbound : s.unbound k = true)
    (apart : Apart s k lport) : (s.port pid k lport).Sound := by
  rcases sound.unbound k isUnbound with ⟨isClosed, noError⟩
  simp only [Bindings.port]
  split
  · exact sound
  · have freed : ∃ slot, Writes s.table ((s.table.setPort k lport).giveup (.user pid) k) k slot
        (.user pid) .idle ∧ slot.conn.tcb.state = .free :=
      ⟨_, setSlot_writes.behind_setConn, rfl⟩
    rcases freed with ⟨slot, writes, isFree⟩
    exact leaves_sound sound writes opens isUnbound idle_elsewhere rfl (Or.inl isFree)
  · rename_i port chosen
    have sets : Sets s.table (s.table.setPort k port) k _ := setConn_sets
    apply sound.rewritten (k := k)
    · constructor
      · exact sets.others
      · intro j away
        exact Function.update_of_ne away _ _
      · intro stillUnbound
        simp only [Function.update_self] at stillUnbound
        cases stillUnbound
      · exact setConn_carried
      · exact sound.elsewhere isUnbound
    · exact sound.settled.binds opens
    · intro claimed j isOther away claimedJ
      exact chosen_distinct chosen isOther away claimedJ.1
    · intro j segment carries matched
      simp only [Apart, carries, chosen] at apart
      exact apart matched.2

/-- `tcpcon`: the connection leaves CLOSED with the ends it has. -/
theorem connect_kin {t : Table} (party : Party) (iss : Tcpseq) (mss : Word)
    (isClosed : t.state k = .closed) :
    Kin (t.slot k).conn ((t.tcpcon party k iss mss).slot k).conn := by
  have writes : Writes t (t.tcpcon party k iss mss) k _ party (.leaving k (some true)) :=
    setSlot_writes
  have taken : (t.slot k).conn.tcb.state ≠ .free := by
    rw [show (t.slot k).conn.tcb.state = .closed from isClosed]
    decide
  rw [writes.own]
  refine Or.inr ⟨taken, ?_, ?_⟩
  · rw [(tcpkick_steady _).state]
    constructor
    · intro same
      cases same
    · intro same
      rw [show (t.slot k).conn.tcb.state = .closed from isClosed] at same
      cases same
  · rw [ends_of_origin (tcpkick_steady _).origin]
    rfl

theorem connect_sound (sound : s.Sound) {pid : Nat} {iss : Tcpseq} {mss : Word}
    (opens : s.table.post (.user pid) = .opening k) (isBound : s.unbound k = false) :
    Bindings.Sound { s with table := s.table.tcpcon (.user pid) k iss mss } := by
  have isClosed := (sound.settled.opening (.user pid) k opens).1
  set after := s.table.tcpcon (.user pid) k iss mss with isAfter
  have writes : Writes s.table after k _ (.user pid) (.leaving k (some true)) := setSlot_writes
  have kin := connect_kin (.user pid) iss mss isClosed
  apply sound.moved
  · exact sound.settled.leaves writes opens leaving_elsewhere
  · rfl
  · intro j
    show Kin (s.table.slot j).conn (after.slot j).conn
    by_cases same : j = k
    · rw [same]
      exact kin
    · rw [writes.others j same]
      exact Kin.refl _
  · intro j stillClosed noError isUnbound
    have away : j ≠ k := by
      intro same
      rw [same, isBound] at isUnbound
      cases isUnbound
    show after.state j = .closed ∧ (after.slot j).conn.tcb.error = none
    simp only [Table.state]
    rw [writes.others j away]
    exact ⟨stillClosed, noError⟩
  · intro party
    show (after.post party).carried = (s.table.post party).carried ∨ (after.post party).carried = none
    by_cases same : party = .user pid
    · rw [same, writes.ownPost]
      exact Or.inr rfl
    · rw [writes.otherPosts party same]
      exact Or.inl rfl

theorem opens_sound (sound : s.Sound) {pid : Nat} {call : OpenCall}
    (opens : s.table.post (.user pid) = .opening k)
    (apart : ∀ lport, call = .port lport → s.unbound k = true → Apart s k lport) :
    (s.opens pid k call).Sound := by
  have given : s.unbound k = true → (s.giveup pid k).Sound := fun isUnbound =>
    leaves_sound sound setSlot_writes opens isUnbound idle_elsewhere rfl (Or.inl rfl)
  simp only [Bindings.opens]
  split
  · rename_i lport isUnbound
    simp only [Bindings.serve]
    split
    · exact given isUnbound
    · exact leaves_sound sound setSlot_writes opens isUnbound leaving_elsewhere rfl (Or.inr rfl)
  · rename_i rip rport isUnbound
    exact writesEnd_sound sound opens isUnbound
  · rename_i lip isUnbound
    exact writesEnd_sound sound opens isUnbound
  · rename_i lport isUnbound
    exact port_sound sound opens isUnbound (apart lport rfl isUnbound)
  · rename_i isUnbound
    exact given isUnbound
  · rename_i iss mss isBound
    exact connect_sound sound opens isBound
  · exact sound

theorem allocate_sound (sound : s.Sound) {pid : Nat} (found : s.table.tcballoc = some k)
    (idle : (s.table.post (.user pid)).isIdle = true)
    (unhurried : Unhurried s (.allocate pid)) :
    Bindings.Sound
      { s.onTable (.allocate pid) with unbound := Function.update s.unbound k true } := by
  set after := tableStep s.table (.allocate pid) with isAfter
  have opened : ∃ slot, Writes s.table after k slot (.user pid) (.opening k) ∧
      slot.conn.tcb.state = .closed ∧ slot.conn.tcb.error = none := by
    simp only [isAfter, tableStep, idle, if_true, found, Option.elim_some]
    exact ⟨_, setSlot_writes, rfl, rfl⟩
  rcases opened with ⟨slot, writes, isClosed, noError⟩
  have notClaimed : ¬ Bindings.Claimed
      { s.onTable (.allocate pid) with unbound := Function.update s.unbound k true } k := by
    intro claimed
    have bound := claimed.2.2
    simp only [Function.update_self] at bound
    cases bound
  have isIdle : (s.table.post (.user pid)).carried = none := by
    cases post : s.table.post (.user pid) with
    | idle => rfl
    | _ =>
        rw [post] at idle
        cases idle
  apply sound.rewritten (k := k)
  · constructor
    · intro j away
      show (after.slot j).conn = (s.table.slot j).conn
      rw [writes.others j away]
    · intro j away
      exact Function.update_of_ne away _ _
    · intro isUnbound
      show after.state k = .closed ∧ (after.slot k).conn.tcb.error = none
      simp only [Table.state]
      rw [writes.own]
      exact ⟨isClosed, noError⟩
    · intro party
      show (after.post party).carried = (s.table.post party).carried
      by_cases isUser : party = .user pid
      · rw [isUser, writes.ownPost, isIdle]
        rfl
      · rw [writes.otherPosts party isUser]
    · intro j segment carries isNew
      simp only [Unhurried, carries] at unhurried
      rw [isNew] at unhurried
      exact unhurried found
  · exact sound.settled.allocate writes found isClosed noError
  · intro claimed
    exact absurd claimed notClaimed
  · intro j segment carries matched
    exact notClaimed matched.1

theorem Bindings.Sound.step (sound : s.Sound) {event : BindEvent} (unhurried : Unhurried s event) :
    (bindStep s event).Sound := by
  cases event with
  | demux inbound iss mss => exact demux_sound sound unhurried
  | output j event fuel => exact output_sound sound
  | visit pid j errand => exact visit_sound sound
  | go party => exact go_sound sound unhurried
  | allocate pid =>
      simp only [bindStep]
      split
      · rename_i idle
        cases found : s.table.tcballoc with
        | none => exact sound
        | some j => exact allocate_sound sound found idle unhurried
      · exact sound
  | opens pid call =>
      simp only [bindStep]
      cases opens : s.table.openedBy pid with
      | none => exact sound
      | some j =>
          apply opens_sound sound (openedBy_spec opens)
          intro lport isPort isUnbound
          rw [isPort] at unhurried
          simp only [Unhurried, opens] at unhurried
          exact unhurried isUnbound

end Opens

/-! ## Along a run -/

section Run

variable {s : Bindings}

theorem bindings_start_sound (conn : Nat → Conn) : (Bindings.start conn).Sound where
  settled := by
    constructor
    · intro j isBeyond
      rfl
    · intro party k opens
      cases opens
    · intro first second k opens
      cases opens
  unbound := by
    intro k isUnbound
    cases isUnbound
  distinct := by
    intro i isI j isJ claimed
    exact absurd rfl claimed.1
  found := by
    intro k segment carries
    cases carries
  lone := by
    intro party away
    rfl

theorem Bindings.Sound.connected (sound : s.Sound) : s.table.Distinct := by
  have claimed : ∀ j, s.table.Connected j → s.Claimed j := by
    intro j connected
    refine ⟨connected.1, connected.2.2, ?_⟩
    cases isUnbound : s.unbound j with
    | false => rfl
    | true => exact absurd (sound.unbound j isUnbound).1 connected.2.1
  intro i isI j isJ connectedI connectedJ same
  exact sound.distinct i isI j isJ (claimed i connectedI) (claimed j connectedJ) same

theorem missed_demuxed {segment : Segment} (missed : tcpdemux s.table segment = none) :
    s.Demuxed segment none := by
  rcases tcpdemux_none missed with ⟨unmatched, unserved⟩
  exact ⟨fun j isBlock matched => unmatched j isBlock matched.1.1 matched.2, unserved⟩

theorem found_demuxed (sound : s.Sound) {k : Nat} {segment : Segment} (found : s.Found k segment)
    (lost : s.table.state k = .free → segment.code.syn = false) :
    s.Demuxed segment (if s.table.state k = .free then none else some k) := by
  rcases found with ⟨isBlock, matched | ⟨isFree | ⟨listens, syn⟩, unmatched⟩⟩
  · rw [if_neg matched.1.1]
    exact Or.inl ⟨matched, fun j isOther other => sound.sole isBlock isOther matched other⟩
  · rw [if_pos isFree]
    refine ⟨unmatched, ?_⟩
    intro syn
    rw [lost isFree] at syn
    cases syn
  · have taken : s.table.state k ≠ .free := by
      rw [show s.table.state k = .listen from listens.1]
      decide
    rw [if_neg taken]
    exact Or.inr ⟨unmatched, listens, syn⟩

theorem demux_law_along_run {conn : Nat → Conn} {event : BindEvent}
    (reach : Reach bindStep Unhurried (Bindings.start conn) s) (unhurried : Unhurried s event) :
    DemuxLaw s event := by
  have sound : s.Sound := by
    apply reach.invariant (bindings_start_sound conn)
    intro before event sound unhurried
    exact sound.step unhurried
  constructor
  · exact (sound.step unhurried).connected
  · intro inbound iss mss isDemux missed
    exact missed_demuxed missed
  · intro k inbound iss mss isGo stands goesOn
    have carries : s.table.carried = some (k, inbound.segment) := by
      simp only [Table.carried, stands]
      rfl
    rw [isGo] at unhurried
    simp only [Unhurried, stands] at unhurried
    exact found_demuxed sound (sound.found k inbound.segment carries) (unhurried goesOn)

end Run

def blankConn (k : Nat) : Conn := { tcb := { state := .free }, tcbnum := k }

/-- `tcpinp` takes a segment of the peer and comes to the `wait`. -/
def peerFinds (code : Code) (seq ack : Tcpseq) : List BindEvent :=
  let segment : Segment :=
    { src := 20, dst := 10, sport := 1024, dport := 80, seq := seq, ack := ack, code := code,
      window := 512 }
  [.demux { segment := segment } 0 0, .go .inp]

/-- An active open of a user, from `tcpmopen` to the `sleep` in `tcpcon`. -/
def opensEnds (pid : Nat) : List BindEvent :=
  [.allocate pid, .opens pid (.parse 20 1024), .opens pid (.route 10), .opens pid (.port 80),
    .opens pid (.connect 1000 536), .go (.user pid)]

theorem answer_demuxed :
    Unhurried ((opensEnds 1 ++ peerFinds { syn := true, ack := true } 500 1001).foldl bindStep
        (Bindings.start blankConn)) (.go .inp) ∧
      DemuxLaw ((opensEnds 1 ++ peerFinds { syn := true, ack := true } 500 1001).foldl bindStep
        (Bindings.start blankConn)) (.go .inp) := by
  have permitted : Permitted bindStep Unhurried (Bindings.start blankConn)
      (opensEnds 1 ++ peerFinds { syn := true, ack := true } 500 1001) := by
    simp only [opensEnds, peerFinds, List.cons_append, List.nil_append, Permitted]
    decide +kernel
  have unhurried : Unhurried ((opensEnds 1 ++ peerFinds { syn := true, ack := true } 500
      1001).foldl bindStep (Bindings.start blankConn)) (.go .inp) := by
    decide +kernel
  exact ⟨unhurried, demux_law_along_run (reach_of_permitted _ Reach.start permitted) unhurried⟩

/-- A SYN finds the server, and a user opens the same connection before `tcplisten` runs. -/
def openedMeanwhile : List BindEvent :=
  [.allocate 1, .opens 1 (.serve 80), .go (.user 1)] ++ peerFinds { syn := true } 500 0 ++
    opensEnds 3

theorem opened_meanwhile_indistinct :
    ¬ ∀ (conn : Nat → Conn) (s : Bindings) (event : BindEvent),
      Reach bindStep (fun _ _ => True) (Bindings.start conn) s → DemuxLaw s event := by
  intro law
  have distinct := (law blankConn _ (.go .inp) (reach_of_permitted openedMeanwhile Reach.start
    (unguarded_permitted openedMeanwhile _))).distinct
  have same : (1 : Nat) = 2 := by
    apply distinct 1 _ 2 <;> decide +kernel
  cases same

end MvsXinu.Tcp
