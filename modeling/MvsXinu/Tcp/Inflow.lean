import MvsXinu.Tcp.ReceiveWindow
import MvsXinu.Tcp.PeerView

/-!
# What a connection takes of the peer's stream

The receive invariant depends on the fields of `Intake` alone, so that it carries over from a
run of the receive side to the steps of a whole connection. What has been received never
becomes less.
-/

namespace MvsXinu.Tcp

open MvsXinu.SeqSpace

set_option autoImplicit false

section Intake

variable {stream out : List Octet} {isn : Tcpseq} {tcb other : Tcb}

theorem next_of_intake (same : other.intake = tcb.intake) :
    RcvState.next ⟨other, out⟩ = RcvState.next ⟨tcb, out⟩ := by
  have count : other.rbcount = tcb.rbcount := congrArg Intake.rbcount same
  have rdone : other.flags.rdone = tcb.flags.rdone := congrArg Intake.rdone same
  simp only [RcvState.next, RcvState.edge, count, rdone]

theorem RcvInv.of_intake (inv : RcvInv stream isn ⟨tcb, out⟩)
    (same : other.intake = tcb.intake)
    (synchronised : TcpState.established.number ≤ other.state.number) :
    RcvInv stream isn ⟨other, out⟩ := by
  have size : other.rbsize = tcb.rbsize := congrArg Intake.rbsize same
  have start : other.rbstart = tcb.rbstart := congrArg Intake.rbstart same
  have count : other.rbcount = tcb.rbcount := congrArg Intake.rbcount same
  have cells : other.rcvbuf = tcb.rcvbuf := congrArg Intake.rcvbuf same
  have rnext : other.rnext = tcb.rnext := congrArg Intake.rnext same
  have finseq : other.finseq = tcb.finseq := congrArg Intake.finseq same
  have rdone : other.flags.rdone = tcb.flags.rdone := congrArg Intake.rdone same
  have rupok : other.flags.rupok = tcb.flags.rupok := congrArg Intake.rupok same
  have queue : other.rsegq = tcb.rsegq := congrArg Intake.rsegq same
  have body := inv.body
  have moved : Body stream isn ⟨{ tcb with state := other.state }, out⟩ :=
    ⟨synchronised, body.size_pos, body.size_le, body.start_lt, body.count_le, body.edge_le,
      body.out_eq, body.rnext_eq, body.done_edge, body.not_urgent, body.filled, body.finseq_eq⟩
  refine ⟨moved.frame rfl size start count rnext rdone rupok cells finseq, ?_⟩
  intro frag member
  have edge : RcvState.edge ⟨other, out⟩ = RcvState.edge ⟨tcb, out⟩ := by
    simp only [RcvState.edge, count]
  have listed : frag ∈ tcb.frags := by
    simpa only [Tcb.frags, queue] using member
  simp only [edge]
  exact (inv.frags frag listed).frame size start count cells

/-- Queued fragments, counted from `rnext`. -/
theorem RcvInv.fits (inv : RcvInv stream isn ⟨tcb, out⟩)
    (recent : ∀ frag ∈ tcb.frags, -2 ^ 30 < seqcmp frag.seq tcb.rnext) :
    ∀ frag ∈ tcb.frags,
      Fits tcb.rnext (-2 ^ 30) (tcb.rbsize.toNat - tcb.rbcount.toNat : Nat) frag := by
  intro frag member
  obtain ⟨position, found⟩ := inv.frags frag member
  have size_le : tcb.rbsize.toNat ≤ 65535 := inv.body.size_le
  have count_le : tcb.rbcount.toNat ≤ tcb.rbsize.toNat := inv.body.count_le
  have room : position + frag.len.toNat ≤ out.length + tcb.rbsize.toNat := found.room
  have older := found.recent
  have rnext : tcb.rnext = seqAt isn (RcvState.next ⟨tcb, out⟩) := inv.body.rnext_eq
  have next : RcvState.next ⟨tcb, out⟩ = out.length + tcb.rbcount.toNat +
      if tcb.flags.rdone then 1 else 0 := rfl
  have edge : RcvState.edge ⟨tcb, out⟩ = out.length + tcb.rbcount.toNat := rfl
  have done : (if tcb.flags.rdone then 1 else 0) ≤ 1 := by
    split <;> omega
  have distance := recent frag member
  rw [seqcmp, found.seq_eq, rnext, signed_dist_seq_at _ _ _ (by omega) (by omega)] at distance
  refine ⟨(position : Int) - RcvState.next ⟨tcb, out⟩, ?_, by omega, found.len_le, by omega⟩
  rw [found.seq_eq, rnext, seqAt, seqAt, seqAt, BitVec.add_assoc, ← BitVec.ofInt_add]
  congr 2
  omega

/-- A segment that is taken adds to what has been received. -/
theorem section_grown {segment : Segment} {position : Nat} (inv : RcvInv stream isn ⟨tcb, out⟩)
    (carries : Carries stream isn ⟨tcb, out⟩ segment position)
    (reaches : RcvState.next ⟨tcb, out⟩ ≤ position + segment.data.length)
    (starts : position ≤ RcvState.next ⟨tcb, out⟩ + (tcb.rbsize.toNat - tcb.rbcount.toNat))
    (recent : ∀ frag ∈ tcb.frags, -2 ^ 30 < seqcmp frag.seq tcb.rnext) (newqOk : Bool) :
    RcvState.next ⟨tcb, out⟩ ≤
      RcvState.next ⟨tcpsection tcb segment.bare segment.seq newqOk, out⟩ := by
  have lies := inv.body.lies carries
  have size_le : tcb.rbsize.toNat ≤ 65535 := inv.body.size_le
  have count_le : tcb.rbcount.toNat ≤ tcb.rbsize.toNat := inv.body.count_le
  have rnext : tcb.rnext = seqAt isn (RcvState.next ⟨tcb, out⟩) := inv.body.rnext_eq
  have total_eq := kept_end_position starts reaches
  have fits := inv.fits recent
  have next_eq : RcvState.next ⟨tcb, out⟩ = out.length + tcb.rbcount.toNat +
      if tcb.flags.rdone then 1 else 0 := rfl
  rw [tcpsection_eq lies reaches starts newqOk]
  set next := RcvState.next ⟨tcb, out⟩
  have first_low : next ≤ keptFirst next position := le_max_left _ _
  have first : seqAt isn (keptFirst next position : Nat) =
      seqAt tcb.rnext ((keptFirst next position : Nat) - next) := by
    rw [rnext, seqAt, seqAt, seqAt, BitVec.add_assoc, ← BitVec.ofInt_add]
    congr 2
    omega
  have small : (BitVec.ofNat 32 (keptCount tcb next segment position)).toNat =
      keptCount tcb next segment position := by
    rw [BitVec.toNat_ofNat, Nat.mod_eq_of_lt (by omega)]
  obtain ⟨total, fin, room, single, _, moved, _⟩ := tcpdodat_moved
    (keptTcb tcb next segment position) segment.seq (seqAt isn (keptFirst next position : Nat))
    (keptCode tcb next segment position) (keptCount tcb next segment position)
    (tcb.rbsize.toNat - tcb.rbcount.toNat) (by omega) (by omega) (by omega) fits (by
      intro some
      refine ⟨(keptFirst next position : Nat) - next, first, by omega, ?_, ?_⟩
      · change (BitVec.ofNat 32 (keptCount tcb next segment position)).toNat ≤ 65535
        omega
      · change _ + ((BitVec.ofNat 32 (keptCount tcb next segment position)).toNat : Int) ≤ _
        omega) newqOk
  have grown : (tcpdodat (keptTcb tcb next segment position) segment.seq
      (keptCode tcb next segment position) (seqAt isn (keptFirst next position : Nat))
      (BitVec.ofNat 32 (keptCount tcb next segment position)) newqOk).rbcount.toNat =
      tcb.rbcount.toNat + total := by
    have short : (BitVec.ofNat 32 total).toNat = total := by
      rw [BitVec.toNat_ofNat, Nat.mod_eq_of_lt (by omega)]
    rw [moved.count]
    change (tcb.rbcount + BitVec.ofNat 32 total).toNat = _
    rw [word_add_to_nat _ _ (by omega), short]
  have done : tcb.flags.rdone = true → (tcpdodat (keptTcb tcb next segment position) segment.seq
      (keptCode tcb next segment position) (seqAt isn (keptFirst next position : Nat))
      (BitVec.ofNat 32 (keptCount tcb next segment position)) newqOk).flags.rdone = true := by
    intro already
    rw [moved.rdone]
    change (tcb.flags.rdone || _) = true
    rw [already, Bool.true_or]
  simp only [RcvState.next, RcvState.edge, grown]
  cases already : tcb.flags.rdone with
  | true =>
      rw [done already, next_eq, already]
      omega
  | false =>
      rw [next_eq, already]
      simp only [Bool.false_eq_true, if_false]
      omega

/-- What the options and the trimming leave of a segment without options. -/
theorem bare_eq {segment : Segment} (bare : segment.offset = tcphoffset) :
    segment.bare = segment ∧ segment.data = segment.tcpData := by
  have header : segment.hlen = tcpmhlen := by
    rw [Segment.hlen, bare]
    decide
  have data : segment.data = segment.tcpData := by
    rw [Segment.data, header, Nat.sub_self, List.drop_zero]
  refine ⟨?_, data⟩
  rw [Segment.bare, data, ← bare]

/-- A segment that `tcpok` accepts, handed to `tcpdata`. -/
theorem tcpdata_taken {segment : Segment} {position : Nat} (inv : RcvInv stream isn ⟨tcb, out⟩)
    (carries : Carries stream isn ⟨tcb, out⟩ segment position)
    (bare : segment.offset = tcphoffset) (noSyn : segment.code.syn = false)
    (reaches : RcvState.next ⟨tcb, out⟩ ≤ position + segment.data.length)
    (starts : position ≤ RcvState.next ⟨tcb, out⟩ + (tcb.rbsize.toNat - tcb.rbcount.toNat))
    (newqOk : Bool) (clear : RcvClear ⟨tcb, out⟩ (.segment segment newqOk)) :
    RcvInv stream isn ⟨tcpdata tcb segment newqOk, out⟩ ∧
      RcvState.next ⟨tcb, out⟩ ≤ RcvState.next ⟨tcpdata tcb segment newqOk, out⟩ := by
  have section_eq : tcpdata tcb segment newqOk =
      tcpsection tcb segment.bare segment.seq newqOk := by
    rw [(bare_eq bare).1, tcpdata, tcpurg, carries.not_urgent, noSyn]
    rfl
  rw [section_eq]
  refine ⟨?_, section_grown inv carries reaches starts clear.2 newqOk⟩
  cases done : tcb.flags.rdone with
  | false => exact open_segment inv done carries reaches starts clear.1 clear.2 newqOk
  | true => exact done_segment inv done carries reaches starts newqOk

end Intake

section Segments

variable {stream out : List Octet} {isn : Tcpseq} {conn : Conn} {inbound : Inbound}

theorem tcpdata_of_intake {tcb other : Tcb} (same : other.intake = tcb.intake) :
    (other.rwindow = tcb.rwindow ∧ other.rnext = tcb.rnext ∧ other.frags = tcb.frags) ∧
      other.rbsize = tcb.rbsize ∧ other.rbcount = tcb.rbcount := by
  have size : other.rbsize = tcb.rbsize := congrArg Intake.rbsize same
  have count : other.rbcount = tcb.rbcount := congrArg Intake.rbcount same
  have rnext : other.rnext = tcb.rnext := congrArg Intake.rnext same
  have queue : other.rsegq = tcb.rsegq := congrArg Intake.rsegq same
  refine ⟨⟨?_, rnext, ?_⟩, size, count⟩
  · rw [Tcb.rwindow, Tcb.rwindow, size, count]
  · simp only [Tcb.frags, queue]

/-- A segment of the stream keeps the invariant of a connection that survives it. -/
theorem segment_inflow {position : Nat} (inv : RcvInv stream isn ⟨conn.tcb, out⟩)
    (carries : Carries stream isn ⟨conn.tcb, out⟩ inbound.segment position)
    (bare : inbound.segment.offset = tcphoffset)
    (clear : RcvClear ⟨conn.tcb, out⟩ (.segment inbound.segment inbound.newqOk))
    (alive : (connStep conn (.segment inbound)).tcb.error = none)
    (synchronised :
      TcpState.established.number ≤ (connStep conn (.segment inbound)).tcb.state.number) :
    RcvInv stream isn ⟨(connStep conn (.segment inbound)).tcb, out⟩ ∧
      RcvState.next ⟨conn.tcb, out⟩ ≤
        RcvState.next ⟨(connStep conn (.segment inbound)).tcb, out⟩ := by
  obtain ⟨served, accepted⟩ := @segment_served conn inbound inv.body.synchronised bare
  have unchanged : (connStep conn (.segment inbound)).tcb.intake = conn.tcb.intake →
      RcvInv stream isn ⟨(connStep conn (.segment inbound)).tcb, out⟩ ∧
        RcvState.next ⟨conn.tcb, out⟩ ≤
          RcvState.next ⟨(connStep conn (.segment inbound)).tcb, out⟩ := by
    intro same
    exact ⟨inv.of_intake same synchronised, Nat.le_of_eq (next_of_intake same).symm⟩
  rcases served.intake with failed | same | ⟨_, opens, tcb, same, state, taken⟩
  · rw [alive] at failed
    cases failed
  · exact unchanged same
  · rcases accepted with accepted | same
    · have header := tcpok_header conn.tcb inbound.segment
      have noSyn : inbound.segment.code.syn = false := by
        rw [← header.2]
        exact opens
      obtain ⟨whole, reaches, starts⟩ := tcpok_range (inv.body.lies carries) noSyn accepted
      obtain ⟨⟨window, rnext, frags⟩, size, count⟩ := tcpdata_of_intake same
      have next := @next_of_intake out _ _ same
      have here : RcvInv stream isn ⟨tcb, out⟩ := inv.of_intake same (by
        rw [state]
        exact inv.body.synchronised)
      have there : Carries stream isn ⟨tcb, out⟩ inbound.segment position :=
        ⟨carries.wellFormed, carries.not_urgent, carries.seq_eq, carries.slice, carries.fin_last,
          by rw [next]; exact carries.near_low, by rw [next]; exact carries.near_high⟩
      have clean : RcvClear ⟨tcb, out⟩ (.segment inbound.segment inbound.newqOk) := by
        have ended : tcb.keptEnd inbound.segment = conn.tcb.keptEnd inbound.segment := by
          simp only [Tcb.keptEnd, window, rnext]
        refine ⟨?_, ?_⟩
        · rw [ended]
          exact clear.1
        · rw [frags, rnext]
          exact clear.2
      obtain ⟨kept, grown⟩ := tcpdata_taken here there bare noSyn (by rw [next]; exact reaches)
        (by rw [next, size, count]; exact starts) inbound.newqOk clean
      rw [whole] at taken
      refine ⟨kept.of_intake taken synchronised, ?_⟩
      rw [next_of_intake taken, ← next]
      exact grown
    · exact unchanged same

/-- Reading moves octets from the buffer to the reader. -/
theorem getdata_next {tcb : Tcb} (inv : RcvInv stream isn ⟨tcb, out⟩) (len : Word) :
    RcvState.next (rcvStep ⟨tcb, out⟩ (.getdata len)) = RcvState.next ⟨tcb, out⟩ := by
  obtain ⟨octets, fields⟩ := tcpgetdata_fields tcb len inv.body.not_urgent
  have copied := tcpgetoctets_eq len.toNat tcb inv.body.size_pos inv.body.start_lt
  rw [copied] at octets fields
  have left := taken_count tcb (min len.toNat tcb.rbcount.toNat)
  have count : (tcpgetdata tcb len).2.1.rbcount =
      (tcb.taken (min len.toNat tcb.rbcount.toNat)).rbcount := by
    rw [fields]
  have rdone : (tcpgetdata tcb len).2.1.flags.rdone = tcb.flags.rdone := by
    rw [fields]
    rfl
  simp only [rcvStep, RcvState.next, RcvState.edge, count, rdone, octets, left, List.length_append,
    Ring.load_length]
  omega

end Segments

end MvsXinu.Tcp
