import MvsXinu.Tcp.EstabCount

/-!
# What one step of a process does to the blocks

A process that goes on changes the connection of one block, or `tcplisten` fills another one
beside it. Every cause is named here with what it adds to `TcpCurrEstab`, so that an invariant
of the table need not look into the handlers' calls again.
-/

namespace MvsXinu.Tcp

open MvsXinu.SeqSpace MvsXinu.Locks

set_option autoImplicit false

/-! ## Where the processes are -/

/-- Nobody gets a block to open or another segment to wait with. -/
structure Moves (t after : Table) : Prop where
  opening : ∀ party k, after.post party = .opening k → t.post party = .opening k
  carried : ∀ party, (after.post party).carried = (t.post party).carried ∨
    (after.post party).carried = none

structure Still (t after : Table) : Prop where
  conns : ∀ j, (after.slot j).conn = (t.slot j).conn
  moves : Moves t after

/-- Only the connection of this block changes. -/
structure Sets (t after : Table) (k : Nat) (conn : Conn) : Prop where
  own : (after.slot k).conn = conn
  others : ∀ j, j ≠ k → (after.slot j).conn = (t.slot j).conn
  moves : Moves t after

section Frames

variable {t middle after : Table} {party : Party} {k : Nat} {conn : Conn}

theorem Moves.refl (t : Table) : Moves t t where
  opening := fun _ _ opens => opens
  carried := fun _ => Or.inl rfl

theorem Moves.trans (first : Moves t middle) (second : Moves middle after) : Moves t after where
  opening := fun other j opens => first.opening other j (second.opening other j opens)
  carried := by
    intro other
    rcases second.carried other with same | dropped
    · rw [same]
      exact first.carried other
    · exact Or.inr dropped

theorem place_moves {post : Post} (elsewhere : ∀ j, post ≠ .opening j)
    (carried : post.carried = (t.post party).carried ∨ post.carried = none) :
    Moves t (t.place party post) := by
  have own : (t.place party post).post party = post := Function.update_self _ _ _
  have others : ∀ other, other ≠ party → (t.place party post).post other = t.post other :=
    fun other away => Function.update_of_ne away _ _
  constructor
  · intro other j opens
    by_cases same : other = party
    · rw [same, own] at opens
      exact absurd opens (elsewhere j)
    · rw [others other same] at opens
      exact opens
  · intro other
    by_cases same : other = party
    · rw [same, own]
      exact carried
    · rw [others other same]
      exact Or.inl rfl

theorem Still.refl (t : Table) : Still t t := ⟨fun _ => rfl, Moves.refl t⟩

theorem Still.trans (first : Still t middle) (second : Still middle after) : Still t after where
  conns := fun j => (second.conns j).trans (first.conns j)
  moves := first.moves.trans second.moves

theorem setLock_conn (lock : Lock Party) (j : Nat) :
    ((t.setLock k lock).slot j).conn = (t.slot j).conn := by
  by_cases same : j = k
  · rw [same]
    have own : (t.setLock k lock).slot k = { t.slot k with lock := lock } :=
      Function.update_self _ _ _
    rw [own]
  · have other : (t.setLock k lock).slot j = t.slot j := Function.update_of_ne same _ _
    rw [other]

theorem setLock_still (lock : Lock Party) : Still t (t.setLock k lock) where
  conns := setLock_conn lock
  moves := { Moves.refl t with }

theorem wait_still : Still t (t.wait k party) := by
  simp only [Table.wait]
  split
  · exact Still.refl t
  · exact setLock_still _

theorem signal_still : Still t (t.signal k) := by
  simp only [Table.signal]
  split
  · exact Still.refl t
  · exact setLock_still _

theorem Still.placed (still : Still t after) {post : Post} (elsewhere : ∀ j, post ≠ .opening j)
    (carried : post.carried = (after.post party).carried ∨ post.carried = none) :
    Still t (after.place party post) where
  conns := still.conns
  moves := still.moves.trans (place_moves elsewhere carried)

theorem setConn_sets : Sets t (t.setConn k conn) k conn where
  own := by
    have own : (t.setConn k conn).slot k = _ := Function.update_self _ _ _
    rw [own]
  others := by
    intro j away
    have other : (t.setConn k conn).slot j = t.slot j := Function.update_of_ne away _ _
    rw [other]
  moves := { Moves.refl t with }

theorem Sets.still (sets : Sets t middle k conn) (still : Still middle after) :
    Sets t after k conn where
  own := (still.conns k).trans sets.own
  others := fun j away => (still.conns j).trans (sets.others j away)
  moves := sets.moves.trans still.moves

theorem Still.sets (still : Still t middle) (sets : Sets middle after k conn) :
    Sets t after k conn where
  own := sets.own
  others := fun j away => (sets.others j away).trans (still.conns j)
  moves := still.moves.trans sets.moves

theorem Sets.placed (sets : Sets t after k conn) {post : Post} (elsewhere : ∀ j, post ≠ .opening j)
    (dropped : post.carried = none) : Sets t (after.place party post) k conn where
  own := sets.own
  others := sets.others
  moves := sets.moves.trans (place_moves elsewhere (Or.inr dropped))

theorem leaving_elsewhere {j : Nat} {sleeps : Option Bool} :
    ∀ i, Post.leaving j sleeps ≠ .opening i := by
  intro i same
  cases same

theorem idle_elsewhere : ∀ i, Post.idle ≠ .opening i := by
  intro i same
  cases same

end Frames

/-! ## Causes -/

/-- Why the connection of a block changes behind the mutex, with what is added to the count. -/
inductive Cause (conn : Conn) : Errand → Conn → Int → Prop where
  | steady {errand : Errand} {after : Conn} (steady : Steady conn after) :
      Cause conn errand after 0
  | switched {inbound bare : Inbound} {iss : Tcpseq} {mss : Word} {read : Conn}
      (isHanded : handed conn inbound = some (some (read, bare))) :
      Cause conn (.segment inbound iss mss) (tcpswitch read bare) (switchCounts read bare)
  /-- `tcpsynrcvd` finds no server to wait for. -/
  | orphaned {inbound : Inbound} {iss : Tcpseq} {mss : Word} {acked : Conn} {segment : Segment}
      (found : conn.tcb.state = .synrcvd) (steady : Steady conn acked) :
      Cause conn (.segment inbound iss mss) (tcbdealloc (tcpreset acked segment)) 0
  | deleted {fuel : Nat} (isOpen : conn.tcb.state ≠ .closed) :
      Cause conn (.output .delete fuel) (tcbdealloc conn) 0
  | sent {event : OutEvent} {fuel : Nat} {after : Conn} (isOpen : conn.tcb.state ≠ .closed)
      (ended : tcposwitch fuel conn event = some after) : Cause conn (.output event fuel) after 0
  | shut (ends : conn.tcb.state = .listen ∨
        (conn.tcb.state = .established ∨ conn.tcb.state = .closewait) ∧
          conn.tcb.error.isSome = true) : Cause conn .close (tcbdealloc conn) 0
  | closed (isOpen : conn.tcb.state = .established ∨ conn.tcb.state = .closewait)
      (noError : conn.tcb.error = none) :
      Cause conn .close (tcpkick { conn with tcb := tcpclosedtcb conn.tcb }) (-1)

/-- A process that has the mutex of block `k`. -/
inductive Works (t : Table) (party : Party) (k : Nat) (errand : Errand) (after : Table) : Int → Prop where
  | still (still : Still t after) : Works t party k errand after 0
  | sets {conn : Conn} {added : Int} (cause : Cause (t.slot k).conn errand conn added)
      (sets : Sets t after k conn) : Works t party k errand after added
  /-- `tcplisten` makes a block for the segment. -/
  | spawns {inbound : Inbound} {iss : Tcpseq} {mss : Word} {child : Nat}
      (segment : errand = .segment inbound iss mss) (listens : t.state k = .listen)
      (syn : inbound.segment.code.syn = true) (allocated : t.tcballoc = some child)
      (server : Steady (t.slot k).conn (after.slot k).conn)
      (state : after.state child = .synrcvd) (paired : (after.slot child).Pairs inbound.segment)
      (others : ∀ j, j ≠ k → j ≠ child → (after.slot j).conn = (t.slot j).conn)
      (moves : Moves t after) (dropped : (after.post party).carried = none) :
      Works t party k errand after 0

inductive BlockTurn (t : Table) (party : Party) (after : Table) : Int → Prop where
  | still (still : Still t after) : BlockTurn t party after 0
  | works {k : Nat} {errand : Errand} {added : Int} (stands : t.post party = .waiting k errand)
      (goesOn : ¬ t.Blocked k party) (taken : t.state k ≠ .free)
      (works : Works t party k errand after added) : BlockTurn t party after added
  | refused {k server : Nat} {inbound : Inbound} (stands : t.post party = .parent k server inbound)
      (goesOn : ¬ t.Blocked server party)
      (sets : Sets t after k (tcbdealloc (tcpreset (t.slot k).conn inbound.segment))) :
      BlockTurn t party after 0
  | opened {k server : Nat} {inbound : Inbound} (stands : t.post party = .parent k server inbound)
      (goesOn : ¬ t.Blocked server party)
      (accepts : ¬ (t.state server ≠ .listen ∨ inbound.parent = .full))
      (sets : Sets t after k (tcpsynopened (t.slot k).conn inbound)) : BlockTurn t party after 1
  | woken {k : Nat} (taken : t.state k ≠ .free)
      (ends : (t.slot k).conn.tcb.error.isSome = true ∨ t.state k = .lastack)
      (sets : Sets t after k (tcbdealloc (t.slot k).conn)) : BlockTurn t party after 0

/-! ## Segments -/

section Segments

variable {t : Table} {party : Party} {k : Nat}

/-- What the handler is called with: the options change the segment size only. -/
theorem handed_spec {conn read : Conn} {inbound bare : Inbound}
    (isHanded : handed conn inbound = some (some (read, bare))) :
    (tcpok conn.tcb inbound.segment).1 = true ∧
      (∃ smss, read = { conn with tcb := { conn.tcb with smss := smss } }) ∧
      bare.segment.code = (tcpok conn.tcb inbound.segment).2.code := by
  simp only [handed] at isHanded
  split at isHanded
  · rename_i accepted
    rcases Option.map_eq_some_iff.mp isHanded with ⟨options, ended, same⟩
    cases same
    rcases tcpopts_smss _ _ options ended with ⟨smss, isRead⟩
    refine ⟨accepted, ⟨smss, ?_⟩, (tcpopts_header _ _ options ended).2⟩
    rw [isRead]
  · cases isHanded

/-- The two ends of a segment, as a block has them. -/
def Segment.ends (segment : Segment) : Word × BitVec 16 × Word × BitVec 16 :=
  (segment.src, segment.sport, segment.dst, segment.dport)

theorem tcpok_ends (tcb : Tcb) (segment : Segment) :
    (tcpok tcb segment).2.ends = segment.ends ∧
      (tcpok tcb segment).2.code = segment.code := by
  simp only [tcpok]
  split
  · exact ⟨rfl, rfl⟩
  · split
    · exact ⟨rfl, rfl⟩
    · split
      · exact ⟨rfl, rfl⟩
      · dsimp only
        split
        · exact ⟨rfl, rfl⟩
        · exact ⟨rfl, rfl⟩

theorem tcpopts_ends {tcb : Tcb} {inbound : Inbound} {read : Tcb × Inbound}
    (ended : tcpopts tcb inbound = some read) :
    read.2.segment.ends = inbound.segment.ends := by
  simp only [tcpopts] at ended
  split at ended
  · cases ended
    rfl
  · rcases Option.map_eq_some_iff.mp ended with ⟨taken, loop, same⟩
    rw [← same]
    rfl

theorem handed_ends {conn read : Conn} {inbound bare : Inbound}
    (isHanded : handed conn inbound = some (some (read, bare))) :
    bare.segment.ends = inbound.segment.ends := by
  simp only [handed] at isHanded
  split at isHanded
  · rcases Option.map_eq_some_iff.mp isHanded with ⟨options, ended, same⟩
    cases same
    exact (tcpopts_ends ended).trans (tcpok_ends conn.tcb inbound.segment).1
  · cases isHanded

theorem options_steady {conn : Conn} {smss : Word} :
    Steady conn { conn with tcb := { conn.tcb with smss := smss } } := ⟨rfl, rfl, rfl, id⟩

theorem synrcvdwaits_acked {conn acked : Conn} {inbound : Inbound}
    (waits : synrcvdwaits conn inbound = some acked) :
    acked = (tcpacked conn inbound.segment).2 := by
  simp only [synrcvdwaits] at waits
  split at waits
  · cases waits
  · split at waits
    · cases waits
    · split at waits
      · exact (Option.some.inj waits).symm
      · cases waits

theorem tcballoc_spec {child : Nat} (found : t.tcballoc = some child) :
    child < ntcp ∧ t.state child = .free := by
  have isFree := List.find?_some found
  have member := List.mem_of_find?_eq_some found
  exact ⟨List.mem_range.mp member, eq_of_beq isFree⟩

theorem spawns_syn {segment : Segment} (spawns : segment.spawns = true) :
    segment.code.syn = true := by
  simp only [Segment.spawns, Bool.and_eq_true] at spawns
  exact spawns.2

/-- The new block is the segment's. -/
theorem spawn_paired {slot : Slot} {inbound : Inbound} {iss : Tcpseq} {mss smss : Word} :
    (slot.spawn party k (Tcp.tcplisten iss mss smss inbound.segment) inbound).Pairs
      inbound.segment := by
  have origin := (tcpdeliver_steady
    { slot.conn with tcb := Tcp.tcplisten iss mss smss inbound.segment } inbound).origin
  refine ⟨?_, ?_, ?_, ?_⟩
  · exact (congrArg Origin.lport origin).symm
  · exact (congrArg Origin.rport origin).symm
  · exact (congrArg Origin.rip origin).symm
  · exact (congrArg Origin.lip origin).symm

theorem Slot.Pairs.of_ends {slot : Slot} {segment other : Segment} (paired : slot.Pairs segment)
    (same : segment.ends = other.ends) : slot.Pairs other := by
  simp only [Segment.ends, Prod.mk.injEq] at same
  rcases same with ⟨src, sport, dst, dport⟩
  rcases paired with ⟨isDport, isSport, isSrc, isDst⟩
  exact ⟨dport.symm.trans isDport, sport.symm.trans isSport, src.symm.trans isSrc,
    dst.symm.trans isDst⟩

theorem tcplisten_works {inbound bare : Inbound} {read : Conn} {iss : Tcpseq} {mss : Word}
    (isHanded : handed (t.slot k).conn inbound = some (some (read, bare)))
    (listens : t.state k = .listen) :
    Works t party k (.segment inbound iss mss) (t.tcplisten party k read bare iss mss) 0 := by
  rcases handed_spec isHanded with ⟨accepted, ⟨smss, isRead⟩, code⟩
  have steady : Steady (t.slot k).conn read := by
    rw [isRead]
    exact options_steady
  simp only [Table.tcplisten]
  split
  · rename_i spawns
    split
    · exact Works.sets (Cause.steady steady) (setConn_sets.placed leaving_elsewhere rfl)
    · rename_i child found
      have away : child ≠ k := by
        intro same
        have isFree := (tcballoc_spec found).2
        rw [same, listens] at isFree
        cases isFree
      set after := ((t.setConn k read).setSlot child ((t.slot child).spawn party k
        (Tcp.tcplisten iss mss read.tcb.smss bare.segment) bare)).place party (.spawned k child)
        with isAfter
      have born : after.slot child = (t.slot child).spawn party k
          (Tcp.tcplisten iss mss read.tcb.smss bare.segment) bare := Function.update_self _ _ _
      have others : ∀ j, j ≠ child → after.slot j = (t.setConn k read).slot j :=
        fun j isOther => Function.update_of_ne isOther _ _
      have read_sets : Sets t (t.setConn k read) k read := setConn_sets
      have syn : inbound.segment.code.syn = true := by
        have isSyn := spawns_syn spawns
        rw [code, (tcpok_ends _ _).2] at isSyn
        exact isSyn
      apply Works.spawns rfl listens syn found
      · rw [others k away.symm, read_sets.own]
        exact steady
      · simp only [Table.state]
        rw [born]
        exact (tcpdeliver_steady _ bare).state
      · rw [born]
        exact spawn_paired.of_ends (handed_ends isHanded)
      · intro j notServer notChild
        rw [others j notChild]
        exact read_sets.others j notServer
      · have spawned : Moves ((t.setConn k read).setSlot child ((t.slot child).spawn party k
            (Tcp.tcplisten iss mss read.tcb.smss bare.segment) bare)) after := by
          apply place_moves
          · intro i same
            cases same
          · exact Or.inr rfl
        exact read_sets.moves.trans { spawned with }
      · have place : after.post party = .spawned k child := Function.update_self _ _ _
        rw [place]
        rfl
  · have answered : Steady read (if bare.segment.code.rst = true then read
        else tcpreset read bare.segment) := by
      split
      · exact Steady.refl read
      · exact tcpreset_steady read bare.segment
    exact Works.sets (Cause.steady (steady.trans answered))
      (setConn_sets.placed leaving_elsewhere rfl)

theorem tcpsynrcvd_works {inbound bare : Inbound} {read : Conn} {iss : Tcpseq} {mss : Word}
    (isHanded : handed (t.slot k).conn inbound = some (some (read, bare)))
    (found : t.state k = .synrcvd) :
    Works t party k (.segment inbound iss mss) (t.tcpsynrcvd party k read bare)
      (if (t.slot k).parent.isSome ∧ (synrcvdwaits read bare).isSome then 0
        else switchCounts read bare) := by
  rcases handed_spec isHanded with ⟨accepted, ⟨smss, isRead⟩, code⟩
  have steady : Steady (t.slot k).conn read := by
    rw [isRead]
    exact options_steady
  simp only [Table.tcpsynrcvd]
  split
  · rename_i server acked hasParent waits
    have acknowledged : Steady (t.slot k).conn acked := by
      rw [synrcvdwaits_acked waits]
      exact steady.trans (tcpacked_steady read bare.segment)
    rw [hasParent, waits]
    simp only [Option.isSome_some, and_self, if_true]
    split
    · exact Works.sets (Cause.orphaned found acknowledged)
        (setConn_sets.placed leaving_elsewhere rfl)
    · apply Works.sets (Cause.steady acknowledged)
      apply (setConn_sets.still wait_still).placed _ rfl
      intro i same
      cases same
  · rename_i other
    have straight : ¬ ((t.slot k).parent.isSome = true ∧
        (synrcvdwaits read bare).isSome = true) := by
      intro both
      rcases Option.isSome_iff_exists.mp both.1 with ⟨server, hasParent⟩
      rcases Option.isSome_iff_exists.mp both.2 with ⟨acked, waits⟩
      exact other server acked hasParent waits
    have handler : Tcp.tcpsynrcvd read bare = tcpswitch read bare := by
      simp only [tcpswitch, show read.tcb.state = .synrcvd from steady.state.trans found]
    rw [if_neg straight, handler]
    exact Works.sets (Cause.switched isHanded) (setConn_sets.placed leaving_elsewhere rfl)

theorem segment_works {inbound : Inbound} {iss : Tcpseq} {mss : Word} :
    Works t party k (.segment inbound iss mss) (t.segment party k inbound iss mss)
      (segmentCounts (t.slot k) inbound) := by
  cases isHanded : handed (t.slot k).conn inbound with
  | none =>
      simp only [Table.segment, segmentCounts, isHanded]
      exact Works.still (Still.refl t)
  | some taken =>
      cases taken with
      | none =>
          simp only [Table.segment, segmentCounts, isHanded]
          exact Works.sets (Cause.steady (tcpackit_steady _ _))
            (setConn_sets.placed leaving_elsewhere rfl)
      | some read =>
          rcases read with ⟨read, bare⟩
          have state : read.tcb.state = t.state k := by
            rcases (handed_spec isHanded).2.1 with ⟨smss, isRead⟩
            rw [isRead]
            rfl
          simp only [Table.segment, segmentCounts, isHanded]
          split
          · rename_i listens
            have isListen : (t.slot k).conn.tcb.state = .listen := listens
            have none : switchCounts read bare = 0 := by
              simp only [switchCounts, state, listens]
            rw [if_neg (by rw [isListen]; exact fun both => absurd both.1 (by decide)), none]
            exact tcplisten_works isHanded listens
          · split
            · rename_i found
              simp only [show (t.slot k).conn.tcb.state = .synrcvd from found, true_and]
              exact tcpsynrcvd_works isHanded found
            · rename_i notListen notSynrcvd
              rw [if_neg (fun both => notSynrcvd both.1)]
              exact Works.sets (Cause.switched isHanded)
                (setConn_sets.placed leaving_elsewhere rfl)

end Segments

/-! ## Messages and users' calls -/

section Calls

variable {t : Table} {party : Party} {k : Nat}

/-- A block without a type is only released. -/
theorem tcbdealloc_cases (taken : t.state k ≠ .free) :
    Still t (t.tcbdealloc k) ∨ Sets t (t.tcbdealloc k) k (Tcp.tcbdealloc (t.slot k).conn) := by
  simp only [Table.tcbdealloc, if_neg taken]
  split
  · exact Or.inl signal_still
  · exact Or.inr setConn_sets

theorem output_works {event : OutEvent} {fuel : Nat} (taken : t.state k ≠ .free) :
    Works t party k (.output event fuel) (t.output party k event fuel) 0 := by
  simp only [Table.output]
  split
  · exact Works.still ((Still.refl t).placed idle_elsewhere (Or.inr rfl))
  · rename_i notClosed
    split
    · rename_i isDelete
      rw [isDelete]
      rcases tcbdealloc_cases taken with still | sets
      · exact Works.still (still.placed leaving_elsewhere (Or.inr rfl))
      · exact Works.sets (Cause.deleted notClosed) (sets.placed leaving_elsewhere rfl)
    · split
      · exact Works.still (Still.refl t)
      · rename_i conn ended
        exact Works.sets (Cause.sent notClosed ended) (setConn_sets.placed leaving_elsewhere rfl)

theorem read_works {len : Word} {umode : Bool} :
    Works t party k (.read len umode) (t.read party k len umode) 0 := by
  simp only [Table.read]
  generalize Bool.and _ _ = copies
  refine Works.sets (Cause.steady ?_) (setConn_sets.placed leaving_elsewhere rfl)
  cases copies with
  | true => exact tcpread_steady _ len
  | false => exact Steady.refl _

theorem write_works {octets : List Octet} {isurg : Bool} :
    Works t party k (.write octets isurg) (t.write party k octets isurg) 0 := by
  simp only [Table.write]
  split
  · exact Works.still ((Still.refl t).placed leaving_elsewhere (Or.inr rfl))
  · split
    · split
      · exact Works.still ((Still.refl t).placed idle_elsewhere (Or.inr rfl))
      · refine Works.sets (Cause.steady ?_) (setConn_sets.placed leaving_elsewhere rfl)
        exact ⟨rfl, rfl, rfl, id⟩
    · exact Works.still ((Still.refl t).placed leaving_elsewhere (Or.inr rfl))

theorem control_works {options : Option (Bool × Bool × Bool)} :
    Works t party k (.control options) (t.control party k options) 0 := by
  refine Works.sets (Cause.steady ?_) (setConn_sets.placed leaving_elsewhere rfl)
  cases options with
  | none => exact Steady.refl _
  | some bits => exact ⟨rfl, rfl, rfl, id⟩

theorem close_works (taken : t.state k ≠ .free) :
    Works t party k .close (t.close party k) (closeCounts (t.slot k).conn) := by
  simp only [Table.close, closeCounts]
  split
  · rename_i ends
    have other : ¬ (((t.slot k).conn.tcb.state = .established ∨
        (t.slot k).conn.tcb.state = .closewait) ∧ (t.slot k).conn.tcb.error = none) := by
      intro current
      rcases ends with listens | ⟨counted, isError⟩
      · rw [show (t.slot k).conn.tcb.state = .listen from listens] at current
        exact absurd current.1 (by decide)
      · rw [current.2] at isError
        cases isError
    rw [if_neg other]
    rcases tcbdealloc_cases taken with still | sets
    · exact Works.still (still.placed idle_elsewhere (Or.inr rfl))
    · exact Works.sets (Cause.shut ends) (sets.placed idle_elsewhere rfl)
  · rename_i goesOn
    split
    · rename_i counted
      have noError : (t.slot k).conn.tcb.error = none := by
        cases isError : (t.slot k).conn.tcb.error with
        | none => rfl
        | some error =>
            apply absurd _ goesOn
            rw [isError]
            exact Or.inr ⟨counted, rfl⟩
      rw [if_pos ⟨counted, noError⟩]
      exact Works.sets (Cause.closed counted noError) (setConn_sets.placed leaving_elsewhere rfl)
    · rename_i other
      rw [if_neg (fun both => other both.1)]
      exact Works.still ((Still.refl t).placed leaving_elsewhere (Or.inr rfl))

theorem perform_turn {errand : Errand} (stands : t.post party = .waiting k errand)
    (goesOn : ¬ t.Blocked k party) : BlockTurn t party (t.perform party k errand)
      (if t.state k = .free then 0 else errandCounts (t.slot k) errand) := by
  simp only [Table.perform]
  split
  · exact BlockTurn.still ((Still.refl t).placed idle_elsewhere (Or.inr rfl))
  · rename_i taken
    apply BlockTurn.works stands goesOn taken
    cases errand with
    | segment inbound iss mss => exact segment_works
    | output event fuel => exact output_works taken
    | read len umode => exact read_works
    | write octets isurg => exact write_works
    | close => exact close_works taken
    | control options => exact control_works

/-- `tcpsynrcvd` behind the `wait` for the server's mutex. -/
theorem tcpsynrcvdend_turn {server : Nat} {inbound : Inbound}
    (stands : t.post party = .parent k server inbound) (goesOn : ¬ t.Blocked server party) :
    BlockTurn t party (t.tcpsynrcvdend party k server inbound)
      (if t.state server ≠ .listen ∨ inbound.parent = .full then 0 else 1) := by
  simp only [Table.tcpsynrcvdend]
  split
  · exact BlockTurn.refused stands goesOn
      ((signal_still.sets setConn_sets).placed leaving_elsewhere rfl)
  · rename_i accepts
    exact BlockTurn.opened stands goesOn accepts
      ((signal_still.sets setConn_sets).placed leaving_elsewhere rfl)

theorem wake_turn {opener : Bool} : BlockTurn t party (t.wake party k opener) 0 := by
  have freed : (t.slot k).conn.tcb.error.isSome = true ∨ t.state k = .lastack →
      BlockTurn t party ((t.tcbdealloc k).place party .idle) 0 := by
    intro ends
    by_cases isFree : t.state k = .free
    · have same : t.tcbdealloc k = t := if_pos isFree
      rw [same]
      exact BlockTurn.still ((Still.refl t).placed idle_elsewhere (Or.inr rfl))
    · rcases tcbdealloc_cases isFree with still | sets
      · exact BlockTurn.still (still.placed idle_elsewhere (Or.inr rfl))
      · exact BlockTurn.woken isFree ends (sets.placed idle_elsewhere rfl)
  have stays : BlockTurn t party (t.place party .idle) 0 :=
    BlockTurn.still ((Still.refl t).placed idle_elsewhere (Or.inr rfl))
  simp only [Table.wake]
  cases opener with
  | true =>
      simp only [if_true]
      split
      · rename_i isError
        exact freed (Or.inl isError)
      · exact stays
  | false =>
      simp only [Bool.false_eq_true, if_false]
      split
      · rename_i isLastack
        exact freed (Or.inr (eq_of_beq isLastack))
      · exact stays

theorem go_turn : BlockTurn t party (t.go party) (goCounts t party) := by
  cases post : t.post party with
  | matched j inbound iss mss =>
      simp only [Table.go, goCounts, post]
      apply BlockTurn.still
      apply wait_still.placed
      · intro i same
        cases same
      · left
        have waiting : (t.wait j party).post party = t.post party := by
          simp only [Table.wait]
          split
          · rfl
          · rfl
        rw [waiting, post]
        rfl
  | waiting j errand =>
      simp only [Table.go, goCounts, post]
      split
      · exact BlockTurn.still (Still.refl t)
      · rename_i goesOn
        exact perform_turn post goesOn
  | parent j server inbound =>
      simp only [Table.go, goCounts, post]
      split
      · exact BlockTurn.still (Still.refl t)
      · rename_i goesOn
        exact tcpsynrcvdend_turn post goesOn
  | spawned j child =>
      simp only [Table.go, goCounts, post]
      exact BlockTurn.still (signal_still.placed leaving_elsewhere (Or.inr rfl))
  | leaving j sleeps =>
      simp only [Table.go, goCounts, post]
      cases sleeps with
      | none => exact BlockTurn.still (signal_still.placed idle_elsewhere (Or.inr rfl))
      | some opener =>
          apply BlockTurn.still
          apply signal_still.placed
          · intro i same
            cases same
          · exact Or.inr rfl
  | sleeping j opener =>
      simp only [Table.go, goCounts, post]
      exact wake_turn
  | idle =>
      simp only [Table.go, goCounts, post]
      exact BlockTurn.still (Still.refl t)
  | opening j =>
      simp only [Table.go, goCounts, post]
      exact BlockTurn.still (Still.refl t)

end Calls

end MvsXinu.Tcp
