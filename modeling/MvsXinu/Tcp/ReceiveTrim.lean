import MvsXinu.Tcp.Receive

/-!
# Acceptance and trimming of a segment

`tcpok` and the data section of `tcpdata` compare sequence numbers; here the segment, the
next octet expected and the end of the buffer get positions relative to one sequence
number `isn`, and both functions are restated on positions.
-/

namespace MvsXinu.Tcp

open MvsXinu.SeqSpace

set_option autoImplicit false

/-- The options are deleted by `tcpopts` before the data section is looked at. -/
def Segment.bare (segment : Segment) : Segment :=
  { segment with tcpData := segment.data, offset := tcphoffset }

/-- A segment reaches `tcpdata` when `tcpok` accepts it and the handlers of the
synchronised states do not abort on it. -/
def rcvSegment (tcb : Tcb) (segment : Segment) (newqOk : Bool) : Tcb :=
  if (tcpok tcb segment).1 && !segment.code.rst && !segment.code.syn then
    tcpdata tcb (tcpok tcb segment).2.bare newqOk
  else tcb

/-- The segment starts at position `position` where `rnext` is at position `next`, and its
sequence numbers lie within `2 ^ 30` of `rnext`. -/
structure Lies (isn : Tcpseq) (tcb : Tcb) (next : Nat) (segment : Segment) (position : Nat) :
    Prop where
  synchronised : TcpState.established.number ≤ tcb.state.number
  size_le : tcb.rbsize.toNat ≤ 65535
  start_lt : tcb.rbstart.toNat < tcb.rbsize.toNat
  count_le : tcb.rbcount.toNat ≤ tcb.rbsize.toNat
  rnext_eq : tcb.rnext = seqAt isn next
  wellFormed : segment.WellFormed
  seq_eq : segment.seq = seqAt isn position
  near_low : next ≤ position + 2 ^ 30
  near_high : position + segment.data.length ≤ next + 2 ^ 30

/-- Position of the first octet kept of a segment. -/
def keptFirst (next position : Nat) : Nat := max next position

/-- Number of octets kept between `rnext` and the end of the buffer. -/
def keptCount (tcb : Tcb) (next : Nat) (segment : Segment) (position : Nat) : Nat :=
  min (position + segment.data.length) (next + (tcb.rbsize.toNat - tcb.rbcount.toNat)) -
    keptFirst next position

/-- The control block with the kept octets copied into their slots. -/
def keptTcb (tcb : Tcb) (next : Nat) (segment : Segment) (position : Nat) : Tcb :=
  { tcb with
    rcvbuf := Ring.store tcb.rbsize.toNat tcb.rcvbuf
      ((tcb.rbstart.toNat + (tcb.rbcount.toNat + (keptFirst next position - next))) %
        tcb.rbsize.toNat)
      ((segment.data.drop (keptFirst next position - position)).take
        (keptCount tcb next segment position)) }

/-- A FIN beyond the end of the buffer is cut off with the data before it. -/
def keptCode (tcb : Tcb) (next : Nat) (segment : Segment) (position : Nat) : Code :=
  if next + (tcb.rbsize.toNat - tcb.rbcount.toNat) < position + segment.data.length then
    { segment.code with fin := false }
  else segment.code

/-- Sequence number behind the last octet of a segment that fits the buffer. -/
def Tcb.keptEnd (tcb : Tcb) (segment : Segment) : Tcpseq :=
  let wlast := tcb.rnext + BitVec.ofInt 32 tcb.rwindow - 1
  let last := segment.seq + BitVec.ofInt 32 segment.datalen - 1
  (if 0 < seqcmp last wlast then wlast else last) + 1

theorem bare_datalen (segment : Segment) : segment.bare.datalen = segment.data.length := by
  have header : segment.bare.hlen = tcpmhlen := by
    show ((tcphoffset &&& 0xf0) >>> 2).toNat = tcpmhlen
    decide
  rw [Segment.datalen, header]
  show ((tcpmhlen + segment.data.length : Nat) : Int) - tcpmhlen = segment.data.length
  omega

theorem datalen_of_well_formed {segment : Segment} (wellFormed : segment.WellFormed) :
    segment.datalen = segment.data.length ∧ segment.data.length < 65536 := by
  obtain ⟨low, high, size⟩ := wellFormed
  simp only [Segment.datalen, Segment.data, List.length_drop]
  omega

theorem rwindow_of_le {tcb : Tcb} (size : tcb.rbsize.toNat ≤ 65535)
    (count : tcb.rbcount.toNat ≤ tcb.rbsize.toNat) :
    tcb.rwindow = (tcb.rbsize.toNat - tcb.rbcount.toNat : Nat) := by
  have difference := word_sub_to_nat _ _ count
  rw [Tcb.rwindow, to_int_of_small _ (by omega), difference]

theorem kept_count_le (tcb : Tcb) (next : Nat) (segment : Segment) (position : Nat) :
    keptCount tcb next segment position ≤ segment.data.length := by
  rw [keptCount, keptFirst]
  omega

section Positions

variable {isn : Tcpseq} {tcb : Tcb} {next position : Nat} {segment : Segment}

theorem Lies.wlast (lies : Lies isn tcb next segment position) :
    tcb.rnext + BitVec.ofInt 32 tcb.rwindow - 1 = seqAt isn (next + tcb.rwindow - 1) := by
  rw [lies.rnext_eq, seq_at_add, ← seq_at_sub_const]
  rfl

theorem kept_end_position (starts : position ≤ next + (tcb.rbsize.toNat - tcb.rbcount.toNat))
    (reaches : next ≤ position + segment.data.length) :
    keptFirst next position + keptCount tcb next segment position =
      min (position + segment.data.length)
        (next + (tcb.rbsize.toNat - tcb.rbcount.toNat)) := by
  rw [keptCount, keptFirst]
  omega

/-- With the buffer full nothing that occupies sequence space is taken. -/
theorem tcpok_range (lies : Lies isn tcb next segment position) (noSyn : segment.code.syn = false)
    (accepted : (tcpok tcb segment).1 = true) :
    (tcpok tcb segment).2 = segment ∧
      next ≤ position + segment.data.length ∧
      position ≤ next + (tcb.rbsize.toNat - tcb.rbcount.toNat) := by
  have size_le : tcb.rbsize.toNat ≤ 65535 := lies.size_le
  have window := rwindow_of_le size_le lies.count_le
  have rnext : tcb.rnext = seqAt isn next := lies.rnext_eq
  have low := lies.near_low
  have high := lies.near_high
  obtain ⟨datalen, short⟩ := datalen_of_well_formed lies.wellFormed
  have seglen : segment.seglen = segment.data.length + (if segment.code.fin then 1 else 0) := by
    simp only [Segment.seglen, datalen, noSyn]
    simp
  have notBelow : ¬ tcb.state.number < TcpState.synrcvd.number := by
    have synchronised : TcpState.established.number ≤ tcb.state.number := lies.synchronised
    simp only [TcpState.number] at synchronised ⊢
    omega
  have wlast := lies.wlast
  have slast : segment.seq + BitVec.ofInt 32 segment.seglen - 1 =
      seqAt isn (position + segment.seglen - 1) := by
    rw [lies.seq_eq, seq_at_add, ← seq_at_sub_const]
    rfl
  have finBound : 0 ≤ (if segment.code.fin then 1 else 0 : Int) ∧
      (if segment.code.fin then 1 else 0 : Int) ≤ 1 := by
    split <;> omega
  rw [tcpok, if_neg notBelow] at accepted ⊢
  rw [wlast, slast] at accepted
  have seqRnext : seqcmp segment.seq tcb.rnext = (position : Int) - next := by
    rw [seqcmp, lies.seq_eq, rnext, signed_dist_seq_at _ _ _ (by omega) (by omega)]
  have seqWlast : seqcmp segment.seq (seqAt isn (next + tcb.rwindow - 1)) =
      (position : Int) - (next + tcb.rwindow - 1) := by
    rw [seqcmp, lies.seq_eq, signed_dist_seq_at _ _ _ (by omega) (by omega)]
  have slastRnext : seqcmp (seqAt isn (position + segment.seglen - 1)) tcb.rnext =
      (position + segment.seglen - 1) - next := by
    rw [seqcmp, rnext, signed_dist_seq_at _ _ _ (by omega) (by omega)]
  have slastWlast : seqcmp (seqAt isn (position + segment.seglen - 1))
      (seqAt isn (next + tcb.rwindow - 1)) =
      (position + segment.seglen - 1) - (next + tcb.rwindow - 1) := by
    rw [seqcmp, signed_dist_seq_at _ _ _ (by omega) (by omega)]
  by_cases shut : tcb.rwindow = 0 ∧ segment.seglen = 0
  · rw [if_pos shut] at accepted ⊢
    have same : segment.seq = tcb.rnext := by simpa using accepted
    rw [same, seqcmp, signed_dist_self] at seqRnext
    exact ⟨rfl, by omega, by omega⟩
  · rw [if_neg shut] at accepted ⊢
    by_cases empty : segment.seglen = 0
    · rw [if_pos empty] at accepted ⊢
      simp only [decide_eq_true_eq, seqRnext, seqWlast] at accepted
      exact ⟨rfl, by omega, by omega⟩
    · rw [if_neg empty] at accepted ⊢
      simp only [Bool.or_eq_true, decide_eq_true_eq, seqRnext, seqWlast, slastRnext,
        slastWlast] at accepted
      have opened : ¬ tcb.rwindow = 0 := by omega
      refine ⟨?_, by omega, by omega⟩
      simp only [if_neg opened]

theorem tcpsection_eq (lies : Lies isn tcb next segment position)
    (reaches : next ≤ position + segment.data.length)
    (starts : position ≤ next + (tcb.rbsize.toNat - tcb.rbcount.toNat))
    (newqOk : Bool) :
    tcpsection tcb segment.bare segment.seq newqOk =
      tcpdodat (keptTcb tcb next segment position) segment.seq
        (keptCode tcb next segment position) (seqAt isn (keptFirst next position))
        (BitVec.ofNat 32 (keptCount tcb next segment position)) newqOk := by
  have size_le : tcb.rbsize.toNat ≤ 65535 := lies.size_le
  have count_le : tcb.rbcount.toNat ≤ tcb.rbsize.toNat := lies.count_le
  have start_lt : tcb.rbstart.toNat < tcb.rbsize.toNat := lies.start_lt
  have window := rwindow_of_le size_le lies.count_le
  have rnext : tcb.rnext = seqAt isn next := lies.rnext_eq
  have low := lies.near_low
  have high := lies.near_high
  obtain ⟨_, short⟩ := datalen_of_well_formed lies.wellFormed
  have datalen := bare_datalen segment
  have wlast := lies.wlast
  have last : segment.seq + BitVec.ofInt 32 segment.bare.datalen - 1 =
      seqAt isn (position + segment.data.length - 1) := by
    rw [lies.seq_eq, datalen, seq_at_add, ← seq_at_sub_const]
    rfl
  have rnextSeq : seqcmp tcb.rnext segment.seq = next - (position : Int) := by
    rw [seqcmp, lies.seq_eq, rnext, signed_dist_seq_at _ _ _ (by omega) (by omega)]
  have lastWlast : seqcmp (seqAt isn (position + segment.data.length - 1))
      (seqAt isn (next + tcb.rwindow - 1)) =
      (position + segment.data.length - 1) - (next + tcb.rwindow - 1) := by
    rw [seqcmp, signed_dist_seq_at _ _ _ (by omega) (by omega)]
  have first : (if 0 < seqcmp tcb.rnext segment.seq then tcb.rnext else segment.seq) =
      seqAt isn (keptFirst next position) := by
    rw [rnextSeq, rnext, lies.seq_eq, keptFirst]
    split
    · rw [max_eq_left (by omega)]
    · rw [max_eq_right (by omega)]
  have pb : (tcb.rbstart + tcb.rbcount +
      (seqAt isn (keptFirst next position) - tcb.rnext)).toNat =
      tcb.rbstart.toNat + (tcb.rbcount.toNat +
        (keptFirst next position - next)) := by
    have ordered : next ≤ keptFirst next position := le_max_left _ _
    have bounded : keptFirst next position ≤ next + 65535 := by
      rw [keptFirst]
      omega
    have offset : seqAt isn (keptFirst next position) - tcb.rnext =
        BitVec.ofNat 32 (keptFirst next position - next) := by
      rw [rnext, seq_at_sub, ← BitVec.ofInt_natCast, Nat.cast_sub ordered]
    have small : (BitVec.ofNat 32 (keptFirst next position -
        next)).toNat =
        keptFirst next position - next := by
      rw [BitVec.toNat_ofNat, Nat.mod_eq_of_lt (by omega)]
    have base := word_add_to_nat tcb.rbstart tcb.rbcount (by omega)
    rw [offset, word_add_to_nat _ _ (by omega), base, small]
    omega
  have pp : (seqAt isn (keptFirst next position) - segment.seq).toNat =
      keptFirst next position - position := by
    have ordered : position ≤ keptFirst next position := le_max_right _ _
    have bounded : keptFirst next position ≤ position + 2 ^ 30 := by
      rw [keptFirst]
      omega
    rw [lies.seq_eq, seq_at_sub, ← Nat.cast_sub ordered, BitVec.ofInt_natCast,
      BitVec.toNat_ofNat, Nat.mod_eq_of_lt (by omega)]
  have kept : segment.bare.datalen -
      (if 0 < seqcmp tcb.rnext segment.seq then seqcmp tcb.rnext segment.seq else 0) -
      (if 0 < (position + segment.data.length - 1 : Int) -
          (next + tcb.rwindow - 1) then
        (position + segment.data.length - 1 : Int) -
          (next + tcb.rwindow - 1) else 0) =
      (keptCount tcb next segment position : Nat) := by
    rw [rnextSeq, datalen, window, keptCount, keptFirst]
    split <;> split <;> omega
  have code : (if 0 < (position + segment.data.length - 1 : Int) -
      (next + tcb.rwindow - 1) then { segment.code with fin := false }
      else segment.code) = keptCode tcb next segment position := by
    rw [keptCode, window]
    apply if_congr _ rfl rfl
    omega
  simp only [tcpsection, wlast, last, lastWlast, first, pb, pp, kept, BitVec.ofInt_natCast,
    Int.toNat_natCast]
  rw [show segment.bare.code = segment.code from rfl, code]
  rfl
theorem kept_end_eq (lies : Lies isn tcb next segment position)
    (reaches : next ≤ position + segment.data.length)
    (starts : position ≤ next + (tcb.rbsize.toNat - tcb.rbcount.toNat)) :
    tcb.keptEnd segment = seqAt isn ((keptFirst next position +
      keptCount tcb next segment position : Nat) : Int) := by
  have size_le : tcb.rbsize.toNat ≤ 65535 := lies.size_le
  have window := rwindow_of_le size_le lies.count_le
  have rnext : tcb.rnext = seqAt isn next := lies.rnext_eq
  have low := lies.near_low
  have high := lies.near_high
  obtain ⟨datalen, short⟩ := datalen_of_well_formed lies.wellFormed
  have wlast := lies.wlast
  have last : segment.seq + BitVec.ofInt 32 segment.datalen - 1 =
      seqAt isn (position + segment.data.length - 1) := by
    rw [lies.seq_eq, datalen, seq_at_add, ← seq_at_sub_const]
    rfl
  have total := kept_end_position starts reaches
  rw [Tcb.keptEnd, wlast, last, seqcmp, signed_dist_seq_at _ _ _ (by omega) (by omega), total,
    show (1 : Word) = BitVec.ofInt 32 1 from rfl]
  split
  · rw [seq_at_add]
    congr 1
    omega
  · rw [seq_at_add]
    congr 1
    omega

end Positions

end MvsXinu.Tcp
