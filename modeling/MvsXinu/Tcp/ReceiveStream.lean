import MvsXinu.Lib.Runs
import MvsXinu.Tcp.ReceiveTrim

/-!
# The received octet stream

A run of the receive side interleaves inbound segments with `tcpgetdata`. Octet `s` of
the peer's stream has sequence number `seqAt isn s`; at every point of a run the octets
returned so far are a prefix of the stream, the octets buffered are the next ones, and
each queued fragment stands for octets of the stream that already lie in their slots.
-/

namespace MvsXinu.Tcp

open MvsXinu.SeqSpace

set_option autoImplicit false

inductive RcvEvent where
  | segment (segment : Segment) (newqOk : Bool)
  | getdata (len : Word)

/-- The control block and everything `tcpgetdata` returned so far. -/
structure RcvState where
  tcb : Tcb
  out : List Octet

def rcvStep (state : RcvState) : RcvEvent → RcvState
  | .segment segment newqOk => { state with tcb := rcvSegment state.tcb segment newqOk }
  | .getdata len =>
      { tcb := (tcpgetdata state.tcb len).2.1
        out := state.out ++ (tcpgetdata state.tcb len).1 }

/-- Stream position behind the last octet buffered. -/
def RcvState.edge (state : RcvState) : Nat := state.out.length + state.tcb.rbcount.toNat

/-- Stream position that `rnext` stands for. A FIN takes one place behind the stream. -/
def RcvState.next (state : RcvState) : Nat :=
  state.edge + if state.tcb.flags.rdone then 1 else 0

/-- A connection whose first octet to be received has sequence number `isn`. -/
structure RcvStart (isn : Tcpseq) (tcb : Tcb) : Prop where
  synchronised : TcpState.established.number ≤ tcb.state.number
  size_pos : 0 < tcb.rbsize.toNat
  size_le : tcb.rbsize.toNat ≤ 65535
  start_lt : tcb.rbstart.toNat < tcb.rbsize.toNat
  rnext_eq : tcb.rnext = isn
  count_eq : tcb.rbcount = 0
  queue_eq : tcb.rsegq = none
  finseq_eq : tcb.finseq = 0
  not_done : tcb.flags.rdone = false
  not_urgent : tcb.flags.rupok = false

/-- The segment carries the octets of the stream from position `position` on, and a FIN
only behind the last of them. Its sequence numbers lie within `2 ^ 30` of `rnext`. -/
structure Carries (stream : List Octet) (isn : Tcpseq) (state : RcvState) (segment : Segment)
    (position : Nat) : Prop where
  wellFormed : segment.WellFormed
  not_urgent : segment.code.urg = false
  seq_eq : segment.seq = seqAt isn position
  slice : segment.data = (stream.drop position).take segment.data.length
  fin_last : segment.code.fin = true → position + segment.data.length = stream.length
  near_low : state.next ≤ position + 2 ^ 30
  near_high : position + segment.data.length ≤ state.next + 2 ^ 30

/-- What the peer and the reader may do in a state of the run. -/
def RcvAllowed (stream : List Octet) (isn : Tcpseq) (state : RcvState) : RcvEvent → Prop
  | .segment segment _ => ∃ position, Carries stream isn state segment position
  | .getdata _ => True

/-- The octet at stream position `position` lies in the slot that belongs to it. -/
def Filled (stream : List Octet) (state : RcvState) (position : Nat) : Prop :=
  stream[position]? = some (state.tcb.rcvbuf
    ((state.tcb.rbstart.toNat + (position - state.out.length)) % state.tcb.rbsize.toNat))

/-- The invariant on everything but the fragment queue. -/
structure Body (stream : List Octet) (isn : Tcpseq) (state : RcvState) : Prop where
  synchronised : TcpState.established.number ≤ state.tcb.state.number
  size_pos : 0 < state.tcb.rbsize.toNat
  size_le : state.tcb.rbsize.toNat ≤ 65535
  start_lt : state.tcb.rbstart.toNat < state.tcb.rbsize.toNat
  count_le : state.tcb.rbcount.toNat ≤ state.tcb.rbsize.toNat
  edge_le : state.edge ≤ stream.length
  out_eq : state.out = stream.take state.out.length
  rnext_eq : state.tcb.rnext = seqAt isn state.next
  done_edge : state.tcb.flags.rdone = true → state.edge = stream.length
  not_urgent : state.tcb.flags.rupok = false
  filled : ∀ position, state.out.length ≤ position → position < state.edge →
    Filled stream state position
  finseq_eq : state.tcb.finseq = 0 ∨
    (state.tcb.finseq = seqAt isn stream.length ∧ stream.length ≤ state.edge + 2 ^ 30)

/-- A queued fragment stands for octets from `position` on. It may have been overtaken by
`rnext`, but it was less than `2 ^ 30` behind when the edge was at `floor`. -/
structure FragAt (stream : List Octet) (isn : Tcpseq) (floor : Nat) (state : RcvState)
    (frag : Tcpfrag) (position : Nat) : Prop where
  seq_eq : frag.seq = seqAt isn position
  len_le : frag.len.toNat ≤ 65535
  end_ne : frag.seq + frag.len ≠ 0
  recent : floor < position + 2 ^ 30
  room : position + frag.len.toNat ≤ state.out.length + state.tcb.rbsize.toNat
  within : position + frag.len.toNat ≤ stream.length
  filled : ∀ octet, state.edge ≤ octet → position ≤ octet →
    octet < position + frag.len.toNat → Filled stream state octet

def FragOk (stream : List Octet) (isn : Tcpseq) (floor : Nat) (state : RcvState)
    (frag : Tcpfrag) : Prop :=
  ∃ position, FragAt stream isn floor state frag position

structure RcvInv (stream : List Octet) (isn : Tcpseq) (state : RcvState) : Prop where
  body : Body stream isn state
  frags : ∀ frag ∈ state.tcb.frags, FragOk stream isn (state.edge - 65535) state frag

/-- `finseq` uses sequence number 0 for "no FIN seen", so no data may end there; and the
queue is ordered by signed sequence numbers, so a fragment that is overtaken while it is
queued behind a later one must not stay until the numbers come round. -/
def RcvClear (state : RcvState) : RcvEvent → Prop
  | .segment segment _ =>
      (segment.datalen ≠ 0 → state.tcb.keptEnd segment ≠ 0) ∧
        ∀ frag ∈ state.tcb.frags, -2 ^ 30 < seqcmp frag.seq state.tcb.rnext
  | .getdata _ => True

instance (state : RcvState) (event : RcvEvent) : Decidable (RcvClear state event) :=
  match event with
  | .segment segment _ =>
      inferInstanceAs (Decidable ((segment.datalen ≠ 0 → state.tcb.keptEnd segment ≠ 0) ∧
        ∀ frag ∈ state.tcb.frags, -2 ^ 30 < seqcmp frag.seq state.tcb.rnext))
  | .getdata _ => .isTrue trivial

section Coalesce

variable {stream : List Octet} {isn : Tcpseq} {out : List Octet} {tcb : Tcb} {floor : Nat}

/-- Changes to fields that the invariant does not mention. -/
theorem Body.frame {other : Tcb} (body : Body stream isn ⟨tcb, out⟩)
    (state : other.state = tcb.state) (size : other.rbsize = tcb.rbsize)
    (start : other.rbstart = tcb.rbstart) (count : other.rbcount = tcb.rbcount)
    (rnext : other.rnext = tcb.rnext) (rdone : other.flags.rdone = tcb.flags.rdone)
    (rupok : other.flags.rupok = tcb.flags.rupok) (cells : other.rcvbuf = tcb.rcvbuf)
    (finseq : other.finseq = tcb.finseq) : Body stream isn ⟨other, out⟩ := by
  have edge : RcvState.edge ⟨other, out⟩ = RcvState.edge ⟨tcb, out⟩ := by
    simp only [RcvState.edge, count]
  have next : RcvState.next ⟨other, out⟩ = RcvState.next ⟨tcb, out⟩ := by
    simp only [RcvState.next, edge, rdone]
  constructor
  · simpa only [state] using body.synchronised
  · simpa only [size] using body.size_pos
  · simpa only [size] using body.size_le
  · simpa only [size, start] using body.start_lt
  · simpa only [size, count] using body.count_le
  · simpa only [edge] using body.edge_le
  · exact body.out_eq
  · simpa only [rnext, next] using body.rnext_eq
  · simpa only [rdone, edge] using body.done_edge
  · simpa only [rupok] using body.not_urgent
  · simpa only [edge, Filled, cells, start, size] using body.filled
  · simpa only [finseq, edge] using body.finseq_eq

theorem FragOk.frame {other : Tcb} {frag : Tcpfrag} (ok : FragOk stream isn floor ⟨tcb, out⟩ frag)
    (size : other.rbsize = tcb.rbsize) (start : other.rbstart = tcb.rbstart)
    (count : other.rbcount = tcb.rbcount) (cells : other.rcvbuf = tcb.rcvbuf) :
    FragOk stream isn floor ⟨other, out⟩ frag := by
  obtain ⟨position, found⟩ := ok
  refine ⟨position, found.seq_eq, found.len_le, found.end_ne, found.recent, ?_, found.within, ?_⟩
  · simpa only [size] using found.room
  · simpa only [RcvState.edge, Filled, cells, start, size, count] using found.filled

theorem FragOk.lower {state : RcvState} {frag : Tcpfrag} {lower : Nat}
    (ok : FragOk stream isn floor state frag) (ordered : lower ≤ floor) :
    FragOk stream isn lower state frag := by
  obtain ⟨position, found⟩ := ok
  exact ⟨position, found.seq_eq, found.len_le, found.end_ne, by have := found.recent; omega,
    found.room, found.within, found.filled⟩

theorem advance_edge (tcb : Tcb) (out : List Octet) (count : Word)
    (bounded : tcb.rbcount.toNat + count.toNat < 2 ^ 32) :
    RcvState.edge ⟨tcb.advance count, out⟩ = RcvState.edge ⟨tcb, out⟩ + count.toNat := by
  simp only [RcvState.edge, Tcb.advance, word_add_to_nat _ _ bounded]
  omega

/-- Octets that lie in their slots right behind the edge may be counted in. -/
theorem Body.advance (body : Body stream isn ⟨tcb, out⟩) (count : Word)
    (open_ : tcb.flags.rdone = false)
    (fits : tcb.rbcount.toNat + count.toNat ≤ tcb.rbsize.toNat)
    (within : RcvState.edge ⟨tcb, out⟩ + count.toNat ≤ stream.length)
    (ahead : ∀ position, RcvState.edge ⟨tcb, out⟩ ≤ position →
      position < RcvState.edge ⟨tcb, out⟩ + count.toNat → Filled stream ⟨tcb, out⟩ position) :
    Body stream isn ⟨tcb.advance count, out⟩ := by
  have size_le : tcb.rbsize.toNat ≤ 65535 := body.size_le
  have edge := advance_edge tcb out count (by omega)
  constructor
  · exact body.synchronised
  · exact body.size_pos
  · exact body.size_le
  · exact body.start_lt
  · show (tcb.rbcount + count).toNat ≤ tcb.rbsize.toNat
    rw [word_add_to_nat _ _ (by omega)]
    exact fits
  · rw [edge]
    exact within
  · exact body.out_eq
  · have rnext : tcb.rnext = seqAt isn (RcvState.next ⟨tcb, out⟩) := body.rnext_eq
    show tcb.rnext + count = seqAt isn (RcvState.next ⟨tcb.advance count, out⟩)
    rw [rnext, seq_at_add_word, RcvState.next, RcvState.next, edge]
    simp [Tcb.advance, open_]
  · intro done
    rw [show (tcb.advance count).flags.rdone = tcb.flags.rdone from rfl, open_] at done
    cases done
  · exact body.not_urgent
  · intro position low high
    rw [edge] at high
    by_cases old : position < RcvState.edge ⟨tcb, out⟩
    · exact body.filled position low old
    · exact ahead position (by omega) high
  · rw [edge]
    rcases body.finseq_eq with zero | ⟨finseq, near⟩
    · exact Or.inl zero
    · exact Or.inr ⟨finseq, by omega⟩

theorem FragOk.advance {frag : Tcpfrag} (ok : FragOk stream isn floor ⟨tcb, out⟩ frag)
    (count : Word) (bounded : tcb.rbcount.toNat + count.toNat < 2 ^ 32) :
    FragOk stream isn floor ⟨tcb.advance count, out⟩ frag := by
  obtain ⟨position, found⟩ := ok
  refine ⟨position, found.seq_eq, found.len_le, found.end_ne, found.recent, found.room,
    found.within, ?_⟩
  intro octet low inside high
  rw [advance_edge tcb out count bounded] at low
  exact found.filled octet (by omega) inside high

theorem frag_distance (body : Body stream isn ⟨tcb, out⟩) (open_ : tcb.flags.rdone = false)
    {frag : Tcpfrag} {position : Nat} (base : out.length ≤ floor)
    (found : FragAt stream isn floor ⟨tcb, out⟩ frag position) :
    seqcmp frag.seq tcb.rnext = (position : Int) - RcvState.edge ⟨tcb, out⟩ ∧
      frag.newcount tcb.rnext =
        (position + frag.len.toNat : Nat) - (RcvState.edge ⟨tcb, out⟩ : Int) := by
  have size_le : tcb.rbsize.toNat ≤ 65535 := body.size_le
  have count_le : tcb.rbcount.toNat ≤ tcb.rbsize.toNat := body.count_le
  have edge : RcvState.edge ⟨tcb, out⟩ = out.length + tcb.rbcount.toNat := rfl
  have room : position + frag.len.toNat ≤ out.length + tcb.rbsize.toNat := found.room
  have recent := found.recent
  have rnext : tcb.rnext = seqAt isn (RcvState.edge ⟨tcb, out⟩) := by
    simpa [RcvState.next, open_] using body.rnext_eq
  constructor
  · rw [rnext, found.seq_eq, seqcmp, signed_dist_seq_at _ _ _ (by omega) (by omega)]
  · have length : frag.len = BitVec.ofInt 32 (frag.len.toNat : Int) := by simp
    rw [Tcpfrag.newcount, rnext, found.seq_eq, seq_at_sub]
    conv_lhs => rw [length]
    rw [BitVec.sub_eq_add_neg, ← BitVec.ofInt_neg, ← BitVec.ofInt_add,
      to_int_of_range _ (by omega) (by omega)]
    omega

/-- A fragment that starts at or before `rnext` leaves the edge alone or moves it to the
end of the fragment. -/
theorem tfjoin_cases (body : Body stream isn ⟨tcb, out⟩) (open_ : tcb.flags.rdone = false)
    {frag : Tcpfrag} (base : out.length ≤ floor) (ok : FragOk stream isn floor ⟨tcb, out⟩ frag)
    (started : ¬ 0 < seqcmp frag.seq tcb.rnext) :
    tfjoin tcb frag = tcb ∨ ∃ count : Word, tfjoin tcb frag = tcb.advance count ∧
      tcb.rbcount.toNat + count.toNat ≤ tcb.rbsize.toNat ∧ tcb.rnext + count ≠ 0 ∧
      Body stream isn ⟨tcb.advance count, out⟩ := by
  obtain ⟨position, found⟩ := ok
  obtain ⟨distance, newcount⟩ := frag_distance body open_ base found
  have size_le : tcb.rbsize.toNat ≤ 65535 := body.size_le
  have edge : RcvState.edge ⟨tcb, out⟩ = out.length + tcb.rbcount.toNat := rfl
  have room : position + frag.len.toNat ≤ out.length + tcb.rbsize.toNat := found.room
  have within := found.within
  by_cases positive : 0 < frag.newcount tcb.rnext
  · refine Or.inr ⟨BitVec.ofInt 32 (frag.newcount tcb.rnext), ?_, ?_⟩
    · rw [tfjoin, if_pos positive]
    · rw [newcount] at positive ⊢
      obtain ⟨step, step_eq⟩ : ∃ step : Nat, position + frag.len.toNat =
          RcvState.edge ⟨tcb, out⟩ + step := ⟨_, (Nat.add_sub_of_le (by omega)).symm⟩
      have count : BitVec.ofInt 32 ((position + frag.len.toNat : Nat) -
          (RcvState.edge ⟨tcb, out⟩ : Int)) = BitVec.ofNat 32 step := by
        rw [step_eq, ← BitVec.ofInt_natCast]
        congr 1
        omega
      have small : (BitVec.ofNat 32 step).toNat = step := by
        rw [BitVec.toNat_ofNat, Nat.mod_eq_of_lt (by omega)]
      have rnext : tcb.rnext = seqAt isn (RcvState.edge ⟨tcb, out⟩) := by
        simpa [RcvState.next, open_] using body.rnext_eq
      have target : tcb.rnext + BitVec.ofNat 32 step = frag.seq + frag.len := by
        rw [rnext, found.seq_eq, seq_at_add_nat, seq_at_add_word]
        congr 1
        omega
      rw [count, small, target]
      refine ⟨by omega, found.end_ne, ?_⟩
      apply body.advance _ open_
      · omega
      · omega
      · intro octet low high
        exact found.filled octet low (by omega) (by omega)
  · left
    rw [tfjoin, if_neg positive]

/-- What the loop of `tfcoalesce` promises of the control block and flags it returns. -/
structure Coalesced (stream : List Octet) (isn : Tcpseq) (floor : Nat) (out : List Octet)
    (before : Tcb) (code : Code) (result : Tcb × Code) : Prop where
  body : Body stream isn ⟨result.1, out⟩
  frags : ∀ frag ∈ result.1.frags, FragOk stream isn floor ⟨result.1, out⟩ frag
  flags : result.1.flags = before.flags
  grown : RcvState.edge ⟨before, out⟩ ≤ RcvState.edge ⟨result.1, out⟩
  fin : result.2.fin = true →
    code.fin = true ∨ RcvState.edge ⟨result.1, out⟩ = stream.length

theorem tfpush_fields (tcb : Tcb) (code : Code) :
    (tfpush tcb code).1 = { tcb with pushseq := (tfpush tcb code).1.pushseq } ∧
      (tfpush tcb code).2.fin = code.fin := by
  unfold tfpush
  split <;> exact ⟨rfl, rfl⟩

theorem Body.push (body : Body stream isn ⟨tcb, out⟩) (code : Code) :
    Body stream isn ⟨(tfpush tcb code).1, out⟩ := by
  rw [(tfpush_fields tcb code).1]
  exact body.frame rfl rfl rfl rfl rfl rfl rfl rfl rfl

theorem FragOk.push {frag : Tcpfrag} (ok : FragOk stream isn floor ⟨tcb, out⟩ frag) (code : Code) :
    FragOk stream isn floor ⟨(tfpush tcb code).1, out⟩ frag := by
  rw [(tfpush_fields tcb code).1]
  exact ok.frame rfl rfl rfl rfl

/-- `rnext` meets a nonzero `finseq` only at the end of the stream. -/
theorem Body.at_finseq (body : Body stream isn ⟨tcb, out⟩) (open_ : tcb.flags.rdone = false)
    (nonzero : tcb.rnext ≠ 0) (met : tcb.rnext = tcb.finseq) :
    RcvState.edge ⟨tcb, out⟩ = stream.length := by
  have rnext : tcb.rnext = seqAt isn (RcvState.edge ⟨tcb, out⟩) := by
    simpa [RcvState.next, open_] using body.rnext_eq
  have edge_le := body.edge_le
  rcases body.finseq_eq with zero | ⟨finseq, near⟩
  · exact absurd (met.trans zero) nonzero
  · have same := rnext.symm.trans (met.trans finseq)
    have equal := seq_at_injective isn _ _ (by omega) (by omega) same
    omega

theorem tfalldone_coalesced {before : Tcb} {start code : Code}
    (body : Body stream isn ⟨tcb, out⟩)
    (flags : tcb.flags = before.flags)
    (grown : RcvState.edge ⟨before, out⟩ ≤ RcvState.edge ⟨tcb, out⟩)
    (ends : RcvState.edge ⟨tcb, out⟩ = stream.length) :
    Coalesced stream isn floor out before start (tfalldone tcb code) where
  body := body.frame rfl rfl rfl rfl rfl rfl rfl rfl rfl
  frags := by simp [tfalldone, Tcb.frags]
  flags := flags
  grown := grown
  fin := fun _ => Or.inr ends

theorem tfloop_coalesced (before : Tcb) (start : Code) (qMax : Nat)
    (items : List (Int × Tcpfrag)) (base : out.length ≤ floor) (tcb : Tcb) (code : Code)
    (body : Body stream isn ⟨tcb, out⟩) (open_ : tcb.flags.rdone = false)
    (flags : tcb.flags = before.flags)
    (grown : RcvState.edge ⟨before, out⟩ ≤ RcvState.edge ⟨tcb, out⟩)
    (fin : code.fin = start.fin)
    (ahead : tcb.rnext ≠ tcb.finseq)
    (frags : ∀ item ∈ items, FragOk stream isn floor ⟨tcb, out⟩ item.2) :
    Coalesced stream isn floor out before start (tfloop qMax items tcb code) := by
  induction items generalizing tcb code with
  | nil =>
      exact {
        body := body.frame rfl rfl rfl rfl rfl rfl rfl rfl rfl
        frags := by simp [tfloop, Tcb.frags]
        flags := flags
        grown := grown
        fin := fun set => Or.inl (fin ▸ set) }
  | cons item rest ih =>
      have itemOk : FragOk stream isn floor ⟨tcb, out⟩ item.2 := frags item (by simp)
      have restOk : ∀ other ∈ rest, FragOk stream isn floor ⟨tcb, out⟩ other.2 := by
        intro other member
        exact frags other (by simp [member])
      rw [tfloop]
      by_cases beyond : 0 < seqcmp item.2.seq tcb.rnext
      · rw [if_pos beyond]
        have kept : ∀ queue : Gpq.Queue Tcpfrag,
            (∀ frag ∈ Gpq.elements queue, FragOk stream isn floor ⟨tcb, out⟩ frag) →
            Coalesced stream isn floor out before start ({ tcb with rsegq := some queue }, code) := by
          intro queue queued
          exact {
            body := body.frame rfl rfl rfl rfl rfl rfl rfl rfl rfl
            frags := fun frag member => (queued frag member).frame rfl rfl rfl rfl
            flags := flags
            grown := grown
            fin := fun set => Or.inl (fin ▸ set) }
        have restQueued : ∀ frag ∈ Gpq.elements ({ qMax := qMax, items := rest } : Gpq.Queue Tcpfrag),
            FragOk stream isn floor ⟨tcb, out⟩ frag := by
          intro frag member
          simp only [Gpq.elements, List.mem_map] at member
          obtain ⟨other, present, rfl⟩ := member
          exact restOk other present
        cases inserted : Gpq.enq ({ qMax := qMax, items := rest } : Gpq.Queue Tcpfrag) item.2
            (-item.2.seq).toInt with
        | none => exact kept _ restQueued
        | some answer =>
            obtain ⟨left, longer⟩ := answer
            apply kept
            intro frag member
            rcases (Gpq.enq_elements _ _ _ _ _ inserted frag).mp member with rfl | old
            · exact itemOk
            · exact restQueued frag old
      · rw [if_neg beyond]
        rcases tfjoin_cases body open_ base itemOk beyond with unchanged | ⟨count, joined, fits, nonzero, moved⟩
        · simp only [unchanged, if_neg ahead]
          have fields := tfpush_fields tcb code
          apply ih
          · exact body.push code
          · rw [fields.1]
            exact open_
          · rw [fields.1]
            exact flags
          · rw [fields.1]
            exact grown
          · rw [fields.2]
            exact fin
          · rw [fields.1]
            exact ahead
          · intro other member
            exact (restOk other member).push code
        · have size_le : tcb.rbsize.toNat ≤ 65535 := body.size_le
          have edge := advance_edge tcb out count (by omega)
          have longer : RcvState.edge ⟨before, out⟩ ≤ RcvState.edge ⟨tcb.advance count, out⟩ := by
            omega
          simp only [joined]
          by_cases met : (tcb.advance count).rnext = (tcb.advance count).finseq
          · rw [if_pos met]
            exact tfalldone_coalesced moved flags longer (moved.at_finseq open_ nonzero met)
          · rw [if_neg met]
            have fields := tfpush_fields (tcb.advance count) code
            apply ih
            · exact moved.push code
            · rw [fields.1]
              exact open_
            · rw [fields.1]
              exact flags
            · rw [fields.1]
              exact longer
            · rw [fields.2]
              exact fin
            · rw [fields.1]
              exact met
            · intro other member
              exact ((restOk other member).advance count (by omega)).push code

theorem tfcoalesce_coalesced (body : Body stream isn ⟨tcb, out⟩) (base : out.length ≤ floor)
    (frags : ∀ frag ∈ tcb.frags, FragOk stream isn floor ⟨tcb, out⟩ frag)
    (open_ : tcb.flags.rdone = false) (count : Word) (code : Code)
    (moved : Body stream isn ⟨tcb.advance count, out⟩)
    (fits : tcb.rbcount.toNat + count.toNat ≤ tcb.rbsize.toNat)
    (nonzero : tcb.rnext + count ≠ 0) :
    Coalesced stream isn floor out (tcb.advance count) code (tfcoalesce tcb count code) := by
  have size_le : tcb.rbsize.toNat ≤ 65535 := body.size_le
  have advanced : ∀ frag ∈ tcb.frags, FragOk stream isn floor ⟨tcb.advance count, out⟩ frag :=
    fun frag member => (frags frag member).advance count (by omega)
  have fields := tfpush_fields (tcb.advance count) code
  rw [tfcoalesce]
  by_cases met : (tcb.advance count).rnext = (tcb.advance count).finseq
  · rw [if_pos met]
    exact tfalldone_coalesced moved rfl le_rfl (moved.at_finseq open_ nonzero met)
  · rw [if_neg met]
    have same : Coalesced stream isn floor out (tcb.advance count) code
        (tfpush (tcb.advance count) code) := {
      body := moved.push code
      frags := by
        intro frag member
        rw [fields.1] at member
        exact (advanced frag member).push code
      flags := by rw [fields.1]
      grown := by rw [fields.1]; exact le_rfl
      fin := fun set => Or.inl (fields.2 ▸ set) }
    have queue_eq : (tfpush (tcb.advance count) code).1.rsegq = tcb.rsegq := by
      rw [fields.1]
      rfl
    cases shape : tcb.rsegq with
    | none => simpa only [queue_eq, shape] using same
    | some queue =>
        cases items : queue.items with
        | nil => simpa only [queue_eq, shape, items] using same
        | cons item rest =>
            simp only [queue_eq, shape, items]
            apply tfloop_coalesced _ _ _ _ base
            · exact moved.push code
            · rw [fields.1]
              exact open_
            · rw [fields.1]
            · rw [fields.1]
              exact le_rfl
            · exact fields.2
            · rw [fields.1]
              exact met
            · intro other member
              apply FragOk.push
              apply advanced
              simp only [Tcb.frags, shape, Gpq.elements, items]
              exact List.mem_map_of_mem (f := Prod.snd) member

end Coalesce

section Segments

variable {stream : List Octet} {isn : Tcpseq} {out : List Octet} {tcb : Tcb}

theorem Body.lies {segment : Segment} {position : Nat} (body : Body stream isn ⟨tcb, out⟩)
    (carries : Carries stream isn ⟨tcb, out⟩ segment position) :
    Lies isn tcb (RcvState.next ⟨tcb, out⟩) segment position where
  synchronised := body.synchronised
  size_le := body.size_le
  start_lt := body.start_lt
  count_le := body.count_le
  rnext_eq := body.rnext_eq
  wellFormed := carries.wellFormed
  seq_eq := carries.seq_eq
  near_low := carries.near_low
  near_high := carries.near_high

theorem slice_get {segment : Segment} {position : Nat} {state : RcvState}
    (carries : Carries stream isn state segment position) (index : Nat)
    (bound : index < segment.data.length) :
    stream[position + index]? = some segment.data[index] := by
  have pointwise := congrArg (fun octets => octets[index]?) carries.slice
  simp only [List.getElem?_take_of_lt bound, List.getElem?_drop] at pointwise
  rw [← pointwise, List.getElem?_eq_getElem bound]

theorem slice_within {segment : Segment} {position : Nat} {state : RcvState}
    (carries : Carries stream isn state segment position) (nonempty : 0 < segment.data.length) :
    position + segment.data.length ≤ stream.length := by
  have some_last := slice_get carries (segment.data.length - 1) (by omega)
  have bound := (List.getElem?_eq_some_iff.mp some_last).1
  omega

/-- After the copy the kept octets lie in their slots and every slot of the buffer that
was right before still is. -/
theorem kept_filled {segment : Segment} {position next : Nat} (body : Body stream isn ⟨tcb, out⟩)
    (next_eq : next = out.length + tcb.rbcount.toNat)
    (carries : Carries stream isn ⟨tcb, out⟩ segment position) (octet : Nat)
    (low : out.length ≤ octet) (high : octet < out.length + tcb.rbsize.toNat)
    (known : keptFirst next position ≤ octet ∧
        octet < keptFirst next position + keptCount tcb next segment position ∨
      Filled stream ⟨tcb, out⟩ octet) :
    Filled stream ⟨keptTcb tcb next segment position, out⟩ octet := by
  have count_le : tcb.rbcount.toNat ≤ tcb.rbsize.toNat := body.count_le
  have after : next ≤ keptFirst next position := le_max_left _ _
  have behind : position ≤ keptFirst next position := le_max_right _ _
  have count : keptCount tcb next segment position =
      min (position + segment.data.length) (out.length + tcb.rbsize.toNat) -
        keptFirst next position := by
    rw [keptCount]
    congr 2
    omega
  have length : ((segment.data.drop (keptFirst next position - position)).take
      (keptCount tcb next segment position)).length =
      keptCount tcb next segment position := by
    rw [List.length_take, List.length_drop]
    omega
  have slot : tcb.rbcount.toNat + (keptFirst next position - next) =
      keptFirst next position - out.length := by omega
  have fits : keptFirst next position - out.length +
      ((segment.data.drop (keptFirst next position - position)).take
        (keptCount tcb next segment position)).length ≤ tcb.rbsize.toNat ∨
      keptCount tcb next segment position = 0 := by
    rw [length]
    omega
  show stream[octet]? = some ((Ring.store tcb.rbsize.toNat tcb.rcvbuf _ _)
    ((tcb.rbstart.toNat + (octet - out.length)) % tcb.rbsize.toNat))
  rw [slot]
  by_cases inside : keptFirst next position ≤ octet ∧
      octet < keptFirst next position + keptCount tcb next segment position
  · obtain ⟨index, index_eq⟩ : ∃ index, octet = keptFirst next position + index :=
      ⟨_, (Nat.add_sub_of_le inside.1).symm⟩
    have place : octet - out.length = keptFirst next position - out.length + index := by
      omega
    rw [place, Ring.store_inside _ _ _ _ _ (by omega) index (by omega), List.getElem_take,
      List.getElem_drop, ← slice_get carries _ (by omega)]
    congr 1
    omega
  · have old : Filled stream ⟨tcb, out⟩ octet := by
      rcases known with new | old
      · exact absurd new inside
      · exact old
    by_cases nothing : keptCount tcb next segment position = 0
    · rw [nothing, List.take_zero, Ring.store]
      exact old
    · rw [Ring.store_outside _ _ _ _ _ (by omega) _ (by omega) (by omega)]
      exact old

theorem kept_body {segment : Segment} {position next : Nat} (body : Body stream isn ⟨tcb, out⟩)
    (next_eq : next = out.length + tcb.rbcount.toNat)
    (carries : Carries stream isn ⟨tcb, out⟩ segment position) :
    Body stream isn ⟨keptTcb tcb next segment position, out⟩ := by
  have count_le : tcb.rbcount.toNat ≤ tcb.rbsize.toNat := body.count_le
  refine ⟨body.synchronised, body.size_pos, body.size_le, body.start_lt, body.count_le,
    body.edge_le, body.out_eq, body.rnext_eq, body.done_edge, body.not_urgent, ?_,
    body.finseq_eq⟩
  intro octet low high
  have bound : octet < out.length + tcb.rbcount.toNat := high
  exact kept_filled body next_eq carries octet low (by omega) (Or.inr (body.filled octet low high))

theorem kept_frag {segment : Segment} {position next floor : Nat}
    (body : Body stream isn ⟨tcb, out⟩) (next_eq : next = out.length + tcb.rbcount.toNat)
    (carries : Carries stream isn ⟨tcb, out⟩ segment position) {frag : Tcpfrag}
    (ok : FragOk stream isn floor ⟨tcb, out⟩ frag) :
    FragOk stream isn floor ⟨keptTcb tcb next segment position, out⟩ frag := by
  obtain ⟨place, found⟩ := ok
  refine ⟨place, found.seq_eq, found.len_le, found.end_ne, found.recent, found.room,
    found.within, ?_⟩
  intro octet low inside high
  have room : place + frag.len.toNat ≤ out.length + tcb.rbsize.toNat := found.room
  have bound : out.length + tcb.rbcount.toNat ≤ octet := low
  exact kept_filled body next_eq carries octet (by omega) (by omega)
    (Or.inr (found.filled octet low inside high))

/-- Taking the FIN at the end of the stream. -/
theorem controls_invariant (floor : Nat) {code : Code} (body : Body stream isn ⟨tcb, out⟩)
    (open_ : tcb.flags.rdone = false)
    (frags : ∀ frag ∈ tcb.frags, FragOk stream isn floor ⟨tcb, out⟩ frag)
    (low : RcvState.edge ⟨tcb, out⟩ - 65535 ≤ floor)
    (fin : code.fin = true → RcvState.edge ⟨tcb, out⟩ = stream.length) :
    RcvInv stream isn ⟨tcpcontrols tcb code, out⟩ := by
  have taken : RcvInv stream isn ⟨if code.fin then
      { tcb with
        flags := { tcb.flags with rdone := true, needout := true }
        rnext := tcb.rnext + 1 }
      else tcb, out⟩ := by
    split
    · rename_i set
      constructor
      · refine ⟨body.synchronised, body.size_pos, body.size_le, body.start_lt, body.count_le,
          body.edge_le, body.out_eq, ?_, fun _ => fin set, body.not_urgent, body.filled,
          body.finseq_eq⟩
        have rnext : tcb.rnext = seqAt isn (RcvState.edge ⟨tcb, out⟩) := by
          simpa [RcvState.next, open_] using body.rnext_eq
        show tcb.rnext + 1 = seqAt isn ((RcvState.edge ⟨tcb, out⟩ + 1 : Nat) : Int)
        rw [rnext, show (1 : Word) = BitVec.ofNat 32 1 from rfl, seq_at_add_nat]
        simp
      · intro frag member
        exact ((frags frag member).lower low).frame rfl rfl rfl rfl
    · exact ⟨body, fun frag member => (frags frag member).lower low⟩
  rw [tcpcontrols]
  split
  · exact ⟨taken.body.frame rfl rfl rfl rfl rfl rfl rfl rfl rfl,
      fun frag member => (taken.frags frag member).frame rfl rfl rfl rfl⟩
  · exact taken

/-- Nothing is inserted, or the queue, allocated if need be, takes or refuses the fragment. -/
theorem tfinsert_cases (tcb : Tcb) (seq : Tcpseq) (datalen : Word) (newqOk : Bool) :
    tfinsert tcb seq datalen newqOk = tcb ∨
      ∃ queue after : Gpq.Queue Tcpfrag,
        (tcb.rsegq = some queue ∨ tcb.rsegq = none ∧ queue = Gpq.newq ntcpfrag) ∧
        tfinsert tcb seq datalen newqOk = { tcb with rsegq := some after } ∧
        (after = queue ∨ datalen ≠ 0 ∧ ∃ left,
          Gpq.enq queue { seq := seq, len := datalen } (-seq).toInt = some (left, after)) := by
  by_cases empty : datalen = 0
  · left
    rw [tfinsert, if_pos empty]
  · cases shape : tcb.rsegq with
    | none =>
        cases newqOk with
        | false =>
            left
            simp only [tfinsert, if_neg empty, shape]
            rfl
        | true =>
            right
            cases inserted : Gpq.enq (Gpq.newq ntcpfrag) (⟨seq, datalen⟩ : Tcpfrag)
                (-seq).toInt with
            | none =>
                refine ⟨_, _, Or.inr ⟨rfl, rfl⟩, ?_, Or.inl rfl⟩
                simp only [tfinsert, if_neg empty, shape, if_true, inserted]
            | some answer =>
                refine ⟨_, answer.2, Or.inr ⟨rfl, rfl⟩, ?_, Or.inr ⟨empty, answer.1, inserted⟩⟩
                simp only [tfinsert, if_neg empty, shape, if_true, inserted]
    | some queue =>
        right
        cases inserted : Gpq.enq queue { seq := seq, len := datalen } (-seq).toInt with
        | none =>
            refine ⟨queue, _, Or.inl rfl, ?_, Or.inl rfl⟩
            simp only [tfinsert, if_neg empty, shape, inserted]
        | some answer =>
            refine ⟨queue, answer.2, Or.inl rfl, ?_, Or.inr ⟨empty, answer.1, inserted⟩⟩
            simp only [tfinsert, if_neg empty, shape, inserted]

/-- What is queued before the fragment comes. -/
theorem elements_before {queue : Gpq.Queue Tcpfrag}
    (source : tcb.rsegq = some queue ∨ tcb.rsegq = none ∧ queue = Gpq.newq ntcpfrag) :
    Gpq.elements queue = tcb.frags := by
  rcases source with shape | ⟨shape, rfl⟩
  · rw [Tcb.frags, shape]
  · rw [Tcb.frags, shape]
    rfl

theorem tfinsert_invariant (floor : Nat) {frag : Tcpfrag} (body : Body stream isn ⟨tcb, out⟩)
    (frags : ∀ old ∈ tcb.frags, FragOk stream isn floor ⟨tcb, out⟩ old)
    (low : RcvState.edge ⟨tcb, out⟩ - 65535 ≤ floor)
    (fresh : frag.len ≠ 0 → FragOk stream isn floor ⟨tcb, out⟩ frag) (newqOk : Bool) :
    RcvInv stream isn ⟨tfinsert tcb frag.seq frag.len newqOk, out⟩ := by
  have queued : ∀ queue : Gpq.Queue Tcpfrag,
      (∀ old ∈ Gpq.elements queue, FragOk stream isn floor ⟨tcb, out⟩ old) →
      RcvInv stream isn ⟨{ tcb with rsegq := some queue }, out⟩ := by
    intro queue known
    exact ⟨body.frame rfl rfl rfl rfl rfl rfl rfl rfl rfl,
      fun old member => ((known old member).lower low).frame rfl rfl rfl rfl⟩
  rcases tfinsert_cases tcb frag.seq frag.len newqOk with
    same | ⟨queue, after, source, inserts, entered⟩
  · rw [same]
    exact ⟨body, fun old member => (frags old member).lower low⟩
  · rw [inserts]
    rw [← elements_before source] at frags
    rcases entered with rfl | ⟨nonempty, left, accepted⟩
    · exact queued after frags
    · apply queued after
      intro old member
      rcases (Gpq.enq_elements _ _ _ _ _ accepted old).mp member with rfl | before
      · exact fresh nonempty
      · exact frags old before

/-- Controls that are due later, and the fragment they came with. -/
theorem delayed_invariant {floor : Nat} (frag : Tcpfrag) {delayed : Tcb}
    (body : Body stream isn ⟨tcb, out⟩)
    (frags : ∀ old ∈ tcb.frags, FragOk stream isn floor ⟨tcb, out⟩ old)
    (low : RcvState.edge ⟨tcb, out⟩ - 65535 ≤ floor)
    (same : delayed = { tcb with finseq := delayed.finseq, pushseq := delayed.pushseq })
    (fin : delayed.finseq = tcb.finseq ∨ delayed.finseq = seqAt isn stream.length ∧
      stream.length ≤ RcvState.edge ⟨tcb, out⟩ + 2 ^ 30)
    (fresh : frag.len ≠ 0 → FragOk stream isn floor ⟨tcb, out⟩ frag) (newqOk : Bool) :
    RcvInv stream isn ⟨tfinsert delayed frag.seq frag.len newqOk, out⟩ := by
  have finished : Body stream isn ⟨{ tcb with finseq := delayed.finseq }, out⟩ := by
    refine ⟨body.synchronised, body.size_pos, body.size_le, body.start_lt, body.count_le,
      body.edge_le, body.out_eq, body.rnext_eq, body.done_edge, body.not_urgent, body.filled, ?_⟩
    rcases fin with kept | set
    · rw [kept]
      exact body.finseq_eq
    · exact Or.inr set
  rw [same]
  apply tfinsert_invariant floor
  · exact finished.frame rfl rfl rfl rfl rfl rfl rfl rfl rfl
  · intro old member
    exact (frags old member).frame rfl rfl rfl rfl
  · exact low
  · intro some
    exact (fresh some).frame rfl rfl rfl rfl

/-- Before an event that is clear the queued fragments are less than `2 ^ 30` behind. -/
theorem frags_recent (inv : RcvInv stream isn ⟨tcb, out⟩) (open_ : tcb.flags.rdone = false)
    (recent : ∀ frag ∈ tcb.frags, -2 ^ 30 < seqcmp frag.seq tcb.rnext) :
    ∀ frag ∈ tcb.frags,
      FragOk stream isn (RcvState.edge ⟨tcb, out⟩) ⟨tcb, out⟩ frag := by
  intro frag member
  obtain ⟨position, found⟩ := inv.frags frag member
  have size_le : tcb.rbsize.toNat ≤ 65535 := inv.body.size_le
  have room : position + frag.len.toNat ≤ out.length + tcb.rbsize.toNat := found.room
  have edge : RcvState.edge ⟨tcb, out⟩ = out.length + tcb.rbcount.toNat := rfl
  have older := found.recent
  have rnext : tcb.rnext = seqAt isn (RcvState.edge ⟨tcb, out⟩) := by
    simpa [RcvState.next, open_] using inv.body.rnext_eq
  have distance := recent frag member
  rw [seqcmp, found.seq_eq, rnext, signed_dist_seq_at _ _ _ (by omega) (by omega)] at distance
  exact ⟨position, found.seq_eq, found.len_le, found.end_ne, by omega, found.room, found.within,
    found.filled⟩

/-- What the trimmed segment and the copy of it into the buffer amount to while the stream
is open and `rnext` is at position `next`. -/
structure Kept (stream : List Octet) (isn : Tcpseq) (out : List Octet) (tcb : Tcb) (next : Nat)
    (segment : Segment) (position : Nat) : Prop where
  body : Body stream isn ⟨keptTcb tcb next segment position, out⟩
  frags : ∀ frag ∈ tcb.frags,
    FragOk stream isn next ⟨keptTcb tcb next segment position, out⟩ frag
  small : (BitVec.ofNat 32 (keptCount tcb next segment position)).toNat =
    keptCount tcb next segment position
  short : keptCount tcb next segment position ≤ 65535
  room : keptFirst next position + keptCount tcb next segment position ≤
    out.length + tcb.rbsize.toNat
  uncut : (keptCode tcb next segment position).fin = true →
    keptFirst next position + keptCount tcb next segment position = stream.length
  within : 0 < keptCount tcb next segment position →
    keptFirst next position + keptCount tcb next segment position ≤ stream.length
  nonzero : 0 < keptCount tcb next segment position →
    seqAt isn (keptFirst next position : Nat) +
      BitVec.ofNat 32 (keptCount tcb next segment position) ≠ 0
  ahead : ∀ octet, keptFirst next position ≤ octet →
    octet < keptFirst next position + keptCount tcb next segment position →
    Filled stream ⟨keptTcb tcb next segment position, out⟩ octet

theorem kept_of_carries {segment : Segment} {position next : Nat}
    (inv : RcvInv stream isn ⟨tcb, out⟩) (open_ : tcb.flags.rdone = false)
    (next_eq : next = out.length + tcb.rbcount.toNat)
    (carries : Carries stream isn ⟨tcb, out⟩ segment position)
    (lies : Lies isn tcb next segment position)
    (reaches : next ≤ position + segment.data.length)
    (starts : position ≤ next + (tcb.rbsize.toNat - tcb.rbcount.toNat))
    (clear : segment.datalen ≠ 0 → tcb.keptEnd segment ≠ 0)
    (recent : ∀ frag ∈ tcb.frags, -2 ^ 30 < seqcmp frag.seq tcb.rnext) :
    Kept stream isn out tcb next segment position := by
  have body := inv.body
  have size_le : tcb.rbsize.toNat ≤ 65535 := body.size_le
  have count_le : tcb.rbcount.toNat ≤ tcb.rbsize.toNat := body.count_le
  have edge : RcvState.edge ⟨tcb, out⟩ = next := next_eq.symm
  obtain ⟨datalen, short⟩ := datalen_of_well_formed carries.wellFormed
  have end_eq := kept_end_position starts reaches
  have count_short : keptCount tcb next segment position ≤ 65535 := by
    have first : next ≤ keptFirst next position := le_max_left _ _
    omega
  constructor
  · exact kept_body body next_eq carries
  · intro frag member
    have ok := frags_recent inv open_ recent frag member
    rw [edge] at ok
    exact kept_frag body next_eq carries ok
  · rw [BitVec.toNat_ofNat, Nat.mod_eq_of_lt (by omega)]
  · exact count_short
  · omega
  · intro set
    rw [keptCode] at set
    split at set
    · cases set
    · rename_i fits
      have last := carries.fin_last set
      omega
  · intro some
    have inside := slice_within carries (by
      rw [keptCount] at some
      have first : position ≤ keptFirst next position := le_max_right _ _
      omega)
    omega
  · intro some
    rw [seq_at_add_nat, ← Nat.cast_add, ← kept_end_eq lies reaches starts]
    apply clear
    rw [keptCount] at some
    have first : position ≤ keptFirst next position := le_max_right _ _
    omega
  · intro octet after before
    have first : next ≤ keptFirst next position := le_max_left _ _
    exact kept_filled body next_eq carries octet (by omega) (by omega) (Or.inl ⟨after, before⟩)

/-- A segment that reaches back to `rnext` moves the edge. -/
theorem joined_segment {segment : Segment} {position next : Nat}
    (kept : Kept stream isn out tcb next segment position) (open_ : tcb.flags.rdone = false)
    (next_eq : next = out.length + tcb.rbcount.toNat) (rnext : tcb.rnext = seqAt isn next)
    (first : keptFirst next position = next) (newqOk : Bool) :
    RcvInv stream isn ⟨tcpdodat (keptTcb tcb next segment position) segment.seq
      (keptCode tcb next segment position) (seqAt isn (keptFirst next position))
      (BitVec.ofNat 32 (keptCount tcb next segment position)) newqOk, out⟩ := by
  have size_le : tcb.rbsize.toNat ≤ 65535 := kept.body.size_le
  have keptEdge : RcvState.edge ⟨keptTcb tcb next segment position, out⟩ = next := next_eq.symm
  have atRnext : (keptTcb tcb next segment position).rnext =
      seqAt isn (keptFirst next position : Nat) := by
    rw [first]
    exact rnext
  have room := kept.room
  have small := kept.small
  rw [tcpdodat, if_pos atRnext, small]
  rw [first] at room
  have fits : (keptTcb tcb next segment position).rbcount.toNat +
      (BitVec.ofNat 32 (keptCount tcb next segment position)).toNat ≤
      (keptTcb tcb next segment position).rbsize.toNat := by
    show tcb.rbcount.toNat + _ ≤ tcb.rbsize.toNat
    omega
  have keptSize : (keptTcb tcb next segment position).rbsize.toNat ≤ 65535 := size_le
  split
  · rename_i some
    have moved : Body stream isn ⟨(keptTcb tcb next segment position).advance
        (BitVec.ofNat 32 (keptCount tcb next segment position)), out⟩ := by
      apply kept.body.advance _ open_ fits
      · rw [keptEdge, small, ← first]
        exact first.symm ▸ kept.within some
      · rw [keptEdge, small, ← first]
        exact first.symm ▸ kept.ahead
    have coalesced := tfcoalesce_coalesced kept.body (by omega) kept.frags open_
      (BitVec.ofNat 32 (keptCount tcb next segment position))
      (keptCode tcb next segment position) moved fits
      (by
        rw [atRnext]
        exact kept.nonzero some)
    have grown := coalesced.grown
    rw [advance_edge _ _ _ (by omega), small, keptEdge] at grown
    have after_le := coalesced.body.edge_le
    have after_count := coalesced.body.count_le
    have after_size := coalesced.body.size_le
    apply controls_invariant next
    · exact coalesced.body.frame rfl rfl rfl rfl rfl rfl rfl rfl rfl
    · show (tfcoalesce _ _ _).1.flags.rdone = false
      rw [coalesced.flags]
      exact open_
    · intro frag member
      exact (coalesced.frags frag member).frame rfl rfl rfl rfl
    · show out.length + (tfcoalesce _ _ _).1.rbcount.toNat - 65535 ≤ _
      simp only at after_count after_size
      omega
    · intro set
      rcases coalesced.fin set with own | ends
      · have exact_end := kept.uncut own
        show RcvState.edge ⟨(tfcoalesce _ _ _).1, out⟩ = stream.length
        omega
      · exact ends
  · rename_i none
    apply controls_invariant _ kept.body open_ kept.frags
    · rw [keptEdge]
      omega
    · intro set
      have exact_end := kept.uncut set
      rw [keptEdge]
      omega

/-- A segment beyond `rnext` is queued, its FIN remembered. -/
theorem queued_segment {segment : Segment} {position next : Nat}
    (kept : Kept stream isn out tcb next segment position)
    (next_eq : next = out.length + tcb.rbcount.toNat)
    (lies : Lies isn tcb next segment position)
    (beyond : next < position) (newqOk : Bool) :
    RcvInv stream isn ⟨tcpdodat (keptTcb tcb next segment position) segment.seq
      (keptCode tcb next segment position) (seqAt isn (keptFirst next position))
      (BitVec.ofNat 32 (keptCount tcb next segment position)) newqOk, out⟩ := by
  have keptEdge : RcvState.edge ⟨keptTcb tcb next segment position, out⟩ = next := next_eq.symm
  have first : keptFirst next position = position := max_eq_right (by omega)
  have high := lies.near_high
  have small := kept.small
  have short := kept.short
  have room := kept.room
  have offRnext : ¬ (keptTcb tcb next segment position).rnext =
      seqAt isn (keptFirst next position : Nat) := by
    intro same
    have back : tcb.rnext = seqAt isn (keptFirst next position : Nat) := same
    rw [lies.rnext_eq] at back
    have equal := seq_at_injective isn _ _ (by omega) (by omega) back
    omega
  rw [tcpdodat, if_neg offRnext]
  apply delayed_invariant ⟨seqAt isn (keptFirst next position : Nat),
    BitVec.ofNat 32 (keptCount tcb next segment position)⟩ kept.body kept.frags
  · rw [keptEdge]
    omega
  · split_ifs <;> rfl
  · have target : segment.seq + BitVec.ofNat 32 (keptCount tcb next segment position) =
        seqAt isn ((keptFirst next position +
          keptCount tcb next segment position : Nat) : Int) := by
      rw [lies.seq_eq, seq_at_add_nat, first, Nat.cast_add]
    by_cases set : (keptCode tcb next segment position).fin = true
    · have exact_end := kept.uncut set
      have length := kept_count_le tcb next segment position
      right
      refine ⟨?_, by rw [keptEdge]; omega⟩
      rw [← exact_end, ← target]
      split_ifs <;> rfl
    · left
      split_ifs <;> rfl
  · intro some
    have positive : 0 < keptCount tcb next segment position := by
      apply Nat.pos_of_ne_zero
      intro zero
      exact some (by simp [zero])
    refine ⟨keptFirst next position, rfl, ?_, kept.nonzero positive, ?_, ?_, ?_, ?_⟩
    · show (BitVec.ofNat 32 (keptCount tcb next segment position)).toNat ≤ 65535
      omega
    · omega
    · show _ + (BitVec.ofNat 32 (keptCount tcb next segment position)).toNat ≤
        out.length + tcb.rbsize.toNat
      omega
    · show _ + (BitVec.ofNat 32 (keptCount tcb next segment position)).toNat ≤ _
      rw [small]
      exact kept.within positive
    · intro octet _ inside before
      apply kept.ahead octet inside
      rw [← small]
      exact before

/-- A segment taken while the stream is open. -/
theorem open_segment {segment : Segment} {position : Nat} (inv : RcvInv stream isn ⟨tcb, out⟩)
    (open_ : tcb.flags.rdone = false)
    (carries : Carries stream isn ⟨tcb, out⟩ segment position)
    (reaches : RcvState.next ⟨tcb, out⟩ ≤ position + segment.data.length)
    (starts : position ≤ RcvState.next ⟨tcb, out⟩ + (tcb.rbsize.toNat - tcb.rbcount.toNat))
    (clear : segment.datalen ≠ 0 → tcb.keptEnd segment ≠ 0)
    (recent : ∀ frag ∈ tcb.frags, -2 ^ 30 < seqcmp frag.seq tcb.rnext) (newqOk : Bool) :
    RcvInv stream isn ⟨tcpsection tcb segment.bare segment.seq newqOk, out⟩ := by
  have lies := inv.body.lies carries
  have next_eq : RcvState.next ⟨tcb, out⟩ = out.length + tcb.rbcount.toNat := by
    simp [RcvState.next, RcvState.edge, open_]
  have kept := kept_of_carries inv open_ next_eq carries lies reaches starts clear recent
  rw [tcpsection_eq lies reaches starts newqOk]
  by_cases joins : position ≤ RcvState.next ⟨tcb, out⟩
  · exact joined_segment kept open_ next_eq lies.rnext_eq (max_eq_left joins) newqOk
  · exact queued_segment kept next_eq lies (by omega) newqOk

theorem RcvInv.frame {other : Tcb} (inv : RcvInv stream isn ⟨tcb, out⟩)
    (same : other = { tcb with
      flags := { other.flags with rdone := tcb.flags.rdone, rupok := tcb.flags.rupok }
      pushseq := other.pushseq
      cwin := other.cwin }) :
    RcvInv stream isn ⟨other, out⟩ := by
  rw [same]
  exact ⟨inv.body.frame rfl rfl rfl rfl rfl rfl rfl rfl rfl,
    fun frag member => (inv.frags frag member).frame rfl rfl rfl rfl⟩

/-- Once the FIN is taken only segments without data and FIN get through. -/
theorem done_segment {segment : Segment} {position : Nat} (inv : RcvInv stream isn ⟨tcb, out⟩)
    (done : tcb.flags.rdone = true)
    (carries : Carries stream isn ⟨tcb, out⟩ segment position)
    (reaches : RcvState.next ⟨tcb, out⟩ ≤ position + segment.data.length)
    (starts : position ≤ RcvState.next ⟨tcb, out⟩ + (tcb.rbsize.toNat - tcb.rbcount.toNat))
    (newqOk : Bool) :
    RcvInv stream isn ⟨tcpsection tcb segment.bare segment.seq newqOk, out⟩ := by
  have ends : RcvState.edge ⟨tcb, out⟩ = stream.length := inv.body.done_edge done
  have lies := inv.body.lies carries
  have next_eq : RcvState.next ⟨tcb, out⟩ = stream.length + 1 := by
    simp [RcvState.next, done, ends]
  have empty : segment.data.length = 0 := by
    by_contra some
    have within := slice_within carries (by omega)
    omega
  have noFin : segment.code.fin = false := by
    by_contra set
    have last := carries.fin_last (by simpa using set)
    omega
  have count : keptCount tcb (RcvState.next ⟨tcb, out⟩) segment position = 0 := by
    rw [keptCount, keptFirst]
    omega
  have sameTcb : keptTcb tcb (RcvState.next ⟨tcb, out⟩) segment position = tcb := by
    rw [keptTcb, count, List.take_zero, Ring.store]
  have sameCode : keptCode tcb (RcvState.next ⟨tcb, out⟩) segment position = segment.code := by
    rw [keptCode]
    split <;> simp [← noFin]
  rw [tcpsection_eq lies reaches starts newqOk, sameTcb, sameCode, count, tcpdodat]
  split
  · rw [if_neg (by simp), tcpcontrols, noFin]
    apply inv.frame
    simp only [Bool.false_eq_true, if_false]
    split <;> rfl
  · rw [tfinsert, if_pos (by rfl), noFin]
    apply inv.frame
    simp only [Bool.false_eq_true, if_false]
    split <;> rfl

end Segments

section Reader

variable {stream : List Octet} {isn : Tcpseq} {out : List Octet} {tcb : Tcb}

/-- The control block after `count` octets are taken out of the buffer. -/
def Tcb.taken (tcb : Tcb) (count : Nat) : Tcb :=
  { tcb with
    rbcount := BitVec.ofNat 32 (tcb.rbcount.toNat - count)
    rbstart := BitVec.ofNat 32 ((tcb.rbstart.toNat + count) % tcb.rbsize.toNat) }

theorem taken_zero (start_lt : tcb.rbstart.toNat < tcb.rbsize.toNat) : tcb.taken 0 = tcb := by
  simp [Tcb.taken, Nat.mod_eq_of_lt start_lt]

theorem taken_one (positive : 0 < tcb.rbcount.toNat)
    (start_lt : tcb.rbstart.toNat < tcb.rbsize.toNat) :
    tcb.taken 1 = { tcb with
      rbcount := tcb.rbcount - 1
      rbstart := BitVec.ofNat 32 (Ring.next tcb.rbsize.toNat tcb.rbstart.toNat) } := by
  have count : (tcb.rbcount - 1).toNat = tcb.rbcount.toNat - 1 := word_sub_to_nat _ _ positive
  rw [Tcb.taken, Ring.next_eq_mod _ _ start_lt, ← count, BitVec.ofNat_toNat, BitVec.setWidth_eq]

theorem taken_start (tcb : Tcb) (count : Nat) (size_pos : 0 < tcb.rbsize.toNat) :
    (tcb.taken count).rbstart.toNat = (tcb.rbstart.toNat + count) % tcb.rbsize.toNat := by
  have below := Nat.mod_lt (tcb.rbstart.toNat + count) size_pos
  have bound := tcb.rbsize.isLt
  rw [Tcb.taken, BitVec.toNat_ofNat, Nat.mod_eq_of_lt (by omega)]

theorem taken_count (tcb : Tcb) (count : Nat) :
    (tcb.taken count).rbcount.toNat = tcb.rbcount.toNat - count := by
  have bound := tcb.rbcount.isLt
  rw [Tcb.taken, BitVec.toNat_ofNat, Nat.mod_eq_of_lt (by omega)]

theorem taken_taken (first second : Nat) (size_pos : 0 < tcb.rbsize.toNat) :
    (tcb.taken first).taken second = tcb.taken (first + second) := by
  have start := taken_start tcb first size_pos
  have count := taken_count tcb first
  rw [Tcb.taken, start, count]
  simp only [Tcb.taken, Nat.mod_add_mod, Nat.sub_sub, Nat.add_assoc]

theorem tcpgetoctets_eq (len : Nat) (tcb : Tcb) (size_pos : 0 < tcb.rbsize.toNat)
    (start_lt : tcb.rbstart.toNat < tcb.rbsize.toNat) :
    tcpgetoctets len tcb =
      (Ring.load tcb.rbsize.toNat tcb.rcvbuf tcb.rbstart.toNat (min len tcb.rbcount.toNat),
        tcb.taken (min len tcb.rbcount.toNat)) := by
  induction len generalizing tcb with
  | zero => simp [tcpgetoctets, Ring.load, taken_zero start_lt]
  | succ len ih =>
      by_cases none : tcb.rbcount = 0
      · rw [tcpgetoctets, if_pos none, none]
        simp [Ring.load, taken_zero start_lt]
      · have positive : 0 < tcb.rbcount.toNat := by
          apply Nat.pos_of_ne_zero
          intro zero
          exact none (BitVec.eq_of_toNat_eq (by simpa using zero))
        have start := taken_start tcb 1 size_pos
        have count := taken_count tcb 1
        have later := ih (tcb.taken 1) size_pos (by
          rw [start]
          exact Nat.mod_lt _ size_pos)
        rw [start, count, taken_taken _ _ size_pos] at later
        have split : min (len + 1) tcb.rbcount.toNat = min len (tcb.rbcount.toNat - 1) + 1 := by
          omega
        rw [tcpgetoctets, if_neg none, ← taken_one positive start_lt, later, split, Ring.load,
          Ring.next_eq_mod _ _ start_lt, Nat.add_comm 1]
        rfl

theorem tcprwindow_fields (tcb : Tcb) :
    ∃ edge, (tcprwindow tcb).2 = { tcb with cwin := edge } := by
  unfold tcprwindow
  split
  · exact ⟨tcb.cwin, rfl⟩
  · exact ⟨_, rfl⟩

theorem tcpgetdata_fields (tcb : Tcb) (len : Word) (notUrgent : tcb.flags.rupok = false) :
    (tcpgetdata tcb len).1 = (tcpgetoctets len.toNat tcb).1 ∧
      (tcpgetdata tcb len).2.1 = { (tcpgetoctets len.toNat tcb).2 with
        flags := { (tcpgetdata tcb len).2.1.flags with
          rdone := (tcpgetoctets len.toNat tcb).2.flags.rdone
          rupok := (tcpgetoctets len.toNat tcb).2.flags.rupok }
        pushseq := (tcpgetdata tcb len).2.1.pushseq
        cwin := (tcpgetdata tcb len).2.1.cwin } := by
  have bounded : tcpgeturg tcb len = (len, tcb) := by
    simp [tcpgeturg, notUrgent]
  rw [tcpgetdata, tcpgetcopy, bounded]
  generalize tcpgetoctets len.toNat tcb = copied
  obtain ⟨push, flagged⟩ : ∃ push, (if copied.2.rbcount = 0 then
      { copied.2 with flags := { copied.2.flags with push := false } } else copied.2) =
      { copied.2 with flags := { copied.2.flags with push := push } } := by
    split
    · exact ⟨false, rfl⟩
    · exact ⟨copied.2.flags.push, rfl⟩
  obtain ⟨edge, window⟩ := tcprwindow_fields
    { copied.2 with flags := { copied.2.flags with push := push } }
  simp only [flagged, window]
  split_ifs <;> exact ⟨rfl, rfl⟩

theorem load_stream (body : Body stream isn ⟨tcb, out⟩) (count : Nat)
    (bounded : count ≤ tcb.rbcount.toNat) :
    Ring.load tcb.rbsize.toNat tcb.rcvbuf tcb.rbstart.toNat count =
      (stream.drop out.length).take count := by
  have start_lt : tcb.rbstart.toNat < tcb.rbsize.toNat := body.start_lt
  have edge : RcvState.edge ⟨tcb, out⟩ = out.length + tcb.rbcount.toNat := rfl
  have edge_le := body.edge_le
  have load := Ring.load_slot tcb.rbsize.toNat tcb.rcvbuf tcb.rbstart.toNat count body.size_pos
  rw [Nat.mod_eq_of_lt start_lt] at load
  rw [load]
  apply List.ext_getElem
  · simp only [List.length_map, List.length_range, List.length_take, List.length_drop]
    omega
  · intro index inside _
    have below : index < count := by simpa using inside
    have filled := body.filled (out.length + index) (by simp) (by omega)
    simp only [Filled, Nat.add_sub_cancel_left] at filled
    have found := (List.getElem?_eq_some_iff.mp filled).2
    simp only [List.getElem_map, List.getElem_range, List.getElem_take, List.getElem_drop]
    exact found.symm

theorem taken_invariant (inv : RcvInv stream isn ⟨tcb, out⟩) (count : Nat)
    (bounded : count ≤ tcb.rbcount.toNat) :
    RcvInv stream isn ⟨tcb.taken count, out ++
      Ring.load tcb.rbsize.toNat tcb.rcvbuf tcb.rbstart.toNat count⟩ := by
  have body := inv.body
  have count_le : tcb.rbcount.toNat ≤ tcb.rbsize.toNat := body.count_le
  have edge_le : out.length + tcb.rbcount.toNat ≤ stream.length := body.edge_le
  have length : (out ++ Ring.load tcb.rbsize.toNat tcb.rcvbuf tcb.rbstart.toNat count).length =
      out.length + count := by simp
  have start := taken_start tcb count body.size_pos
  have left := taken_count tcb count
  have edge : RcvState.edge ⟨tcb.taken count, out ++
      Ring.load tcb.rbsize.toNat tcb.rcvbuf tcb.rbstart.toNat count⟩ =
      RcvState.edge ⟨tcb, out⟩ := by
    simp only [RcvState.edge, length, left]
    omega
  have filled : ∀ octet, out.length + count ≤ octet → Filled stream ⟨tcb, out⟩ octet →
      Filled stream ⟨tcb.taken count, out ++
        Ring.load tcb.rbsize.toNat tcb.rcvbuf tcb.rbstart.toNat count⟩ octet := by
    intro octet low known
    show stream[octet]? = some (tcb.rcvbuf (((tcb.taken count).rbstart.toNat +
      (octet - (out ++ _).length)) % tcb.rbsize.toNat))
    rw [start, length, Nat.mod_add_mod, show tcb.rbstart.toNat + count +
      (octet - (out.length + count)) = tcb.rbstart.toNat + (octet - out.length) by omega]
    exact known
  constructor
  · constructor
    · exact body.synchronised
    · exact body.size_pos
    · exact body.size_le
    · show (tcb.taken count).rbstart.toNat < tcb.rbsize.toNat
      rw [start]
      exact Nat.mod_lt _ body.size_pos
    · show (tcb.taken count).rbcount.toNat ≤ tcb.rbsize.toNat
      omega
    · rw [edge]
      exact body.edge_le
    · show out ++ _ = stream.take (out ++ _).length
      rw [length, List.take_add, load_stream body count bounded, ← body.out_eq]
    · show tcb.rnext = seqAt isn (RcvState.next ⟨tcb.taken count, _⟩)
      rw [RcvState.next, edge]
      exact body.rnext_eq
    · rw [edge]
      exact body.done_edge
    · exact body.not_urgent
    · intro octet low high
      rw [edge] at high
      simp only [length] at low
      exact filled octet low (body.filled octet (by simp only; omega) high)
    · rw [edge]
      exact body.finseq_eq
  · intro frag member
    obtain ⟨position, found⟩ := inv.frags frag member
    have room : position + frag.len.toNat ≤ out.length + tcb.rbsize.toNat := found.room
    refine ⟨position, found.seq_eq, found.len_le, found.end_ne, ?_, ?_, found.within, ?_⟩
    · rw [edge]
      exact found.recent
    · show _ ≤ (out ++ _).length + tcb.rbsize.toNat
      omega
    · intro octet low inside high
      rw [edge] at low
      have behind : out.length + tcb.rbcount.toNat ≤ octet := low
      exact filled octet (by omega) (found.filled octet low inside high)

end Reader

section Run

variable {stream : List Octet} {isn : Tcpseq}

theorem rcv_step_invariant (state : RcvState) (event : RcvEvent)
    (inv : RcvInv stream isn state)
    (permitted : RcvAllowed stream isn state event ∧ RcvClear state event) :
    RcvInv stream isn (rcvStep state event) := by
  obtain ⟨tcb, out⟩ := state
  cases event with
  | segment segment newqOk =>
      obtain ⟨⟨position, carries⟩, nonzero, recent⟩ := permitted
      rw [rcvStep, rcvSegment]
      split
      · rename_i taken
        simp only [Bool.and_eq_true, Bool.not_eq_true'] at taken
        obtain ⟨⟨accepted, _⟩, noSyn⟩ := taken
        obtain ⟨same, reaches, starts⟩ := tcpok_range (inv.body.lies carries) noSyn accepted
        have section_eq : tcpdata tcb segment.bare newqOk =
            tcpsection tcb segment.bare segment.seq newqOk := by
          rw [tcpdata, tcpurg, show segment.bare.code = segment.code from rfl,
            carries.not_urgent, noSyn]
          rfl
        simp only [same, section_eq]
        cases done : tcb.flags.rdone with
        | false => exact open_segment inv done carries reaches starts nonzero recent newqOk
        | true => exact done_segment inv done carries reaches starts newqOk
      · exact inv
  | getdata len =>
      obtain ⟨octets, fields⟩ := tcpgetdata_fields tcb len inv.body.not_urgent
      have copied := tcpgetoctets_eq len.toNat tcb inv.body.size_pos inv.body.start_lt
      have taken := taken_invariant inv (min len.toNat tcb.rbcount.toNat) (min_le_right _ _)
      rw [copied] at octets fields
      rw [rcvStep]
      simp only [octets]
      exact taken.frame fields

theorem rcv_start_invariant {tcb : Tcb} (start : RcvStart isn tcb) :
    RcvInv stream isn ⟨tcb, []⟩ := by
  have count : tcb.rbcount.toNat = 0 := by
    rw [start.count_eq]
    rfl
  have edge : RcvState.edge ⟨tcb, []⟩ = 0 := by
    simp [RcvState.edge, count]
  constructor
  · refine ⟨start.synchronised, start.size_pos, start.size_le, start.start_lt, ?_, ?_, rfl, ?_, ?_,
      start.not_urgent, ?_, Or.inl start.finseq_eq⟩
    · simp [count]
    · simp [edge]
    · simp [RcvState.next, edge, start.not_done, start.rnext_eq]
    · simp [start.not_done]
    · intro position _ high
      omega
  · simp [Tcb.frags, start.queue_eq]

theorem rcv_reach_invariant {tcb : Tcb} {state : RcvState} (start : RcvStart isn tcb)
    (reached : Runs.Reach rcvStep
      (fun before event => RcvAllowed stream isn before event ∧ RcvClear before event)
      ⟨tcb, []⟩ state) :
    RcvInv stream isn state :=
  reached.invariant (rcv_start_invariant start) rcv_step_invariant

/-- What the reader has got is a prefix of the peer's stream, and `rnext - rbcount` is the
sequence number of the octet that comes next, one further once the FIN is taken. -/
theorem getdata_returns_stream (stream : List Octet) (isn : Tcpseq) (tcb : Tcb)
    (state : RcvState) (start : RcvStart isn tcb)
    (reached : Runs.Reach rcvStep
      (fun before event => RcvAllowed stream isn before event ∧ RcvClear before event)
      ⟨tcb, []⟩ state) :
    state.out <+: stream ∧
      state.tcb.rnext - state.tcb.rbcount =
        seqAt isn (state.out.length + if state.tcb.flags.rdone then 1 else 0 : Nat) ∧
      (state.tcb.flags.rdone = true →
        state.out.length + state.tcb.rbcount.toNat = stream.length) ∧
      state.tcb.rbcount.toNat ≤ state.tcb.rbsize.toNat := by
  have body := (rcv_reach_invariant start reached).body
  refine ⟨?_, ?_, body.done_edge, body.count_le⟩
  · rw [body.out_eq]
    exact List.take_prefix _ _
  · have count : state.tcb.rbcount = BitVec.ofInt 32 (state.tcb.rbcount.toNat : Int) := by simp
    rw [body.rnext_eq]
    conv_lhs => rw [count]
    rw [seq_at_sub_const]
    congr 1
    simp only [RcvState.next, RcvState.edge]
    omega

/-- A connection of the size `tcpsync` gives it, expecting octet number 100. -/
def freshRcv : Tcb where
  state := .established
  rnext := 100
  cwin := 100 + 8192
  rmss := 536

/-- The second octet arrives before the first, then both are read. -/
def swappedRun : List RcvEvent :=
  [.segment { seq := 101, tcpData := [2] } true, .segment { seq := 100, tcpData := [1] } true,
    .getdata 10]

theorem getdata_of_swapped_segments :
    (swappedRun.foldl rcvStep ⟨freshRcv, []⟩).out = [1, 2] ∧
      (swappedRun.foldl rcvStep ⟨freshRcv, []⟩).out <+: ([1, 2, 3] : List Octet) := by
  refine ⟨by decide, (getdata_returns_stream [1, 2, 3] 100 freshRcv _
    (by constructor <;> decide) (Runs.reach_of_permitted swappedRun Runs.Reach.start ?_)).1⟩
  refine ⟨⟨⟨1, ?_⟩, by decide⟩, ⟨⟨0, ?_⟩, by decide⟩, ⟨trivial, trivial⟩, trivial⟩
  · exact ⟨by decide, rfl, by decide, by decide, by decide, by decide, by decide⟩
  · exact ⟨by decide, rfl, by decide, by decide, by decide, by decide, by decide⟩

/-- A FIN is counted in `rnext` only. -/
theorem fin_counts_into_rnext :
    ¬ ∀ (stream : List Octet) (isn : Tcpseq) (tcb : Tcb) (state : RcvState), RcvStart isn tcb →
      Runs.Reach rcvStep (RcvAllowed stream isn) ⟨tcb, []⟩ state →
      state.out <+: stream ∧ state.tcb.rnext - state.tcb.rbcount = seqAt isn state.out.length ∧
        state.tcb.rbcount.toNat ≤ state.tcb.rbsize.toNat := by
  intro claimed
  have reached : Runs.Reach rcvStep (RcvAllowed [] 100) ⟨freshRcv, []⟩
      (rcvStep ⟨freshRcv, []⟩ (.segment { seq := 100, code := { fin := true } } true)) :=
    Runs.Reach.step _ Runs.Reach.start ⟨0, by constructor <;> decide⟩
  have wrong := (claimed [] 100 freshRcv _ (by constructor <;> decide) reached).2.1
  revert wrong
  decide

end Run

end MvsXinu.Tcp
