import MvsXinu.Tcp.Coalescing
import MvsXinu.Tcp.UrgentRead

/-!
# Fragments ahead of `rnext`

Whatever the order segments arrive in, no fragment should stay queued that starts at or before
`rnext`. The scan of `tfcoalesce` finds all that it can join if the queue is in the order of the
sequence numbers. It is in the order of `-tf_seq`, taken as an `int`, which is the same only
between numbers on one side of the place where the sign changes.
-/

namespace MvsXinu.Tcp

open MvsXinu.SeqSpace MvsXinu.Gather

set_option autoImplicit false

/-- Sequence number behind the data of a segment. -/
def Segment.after (segment : Segment) : Tcpseq := segment.seq + BitVec.ofInt 32 segment.datalen

/-- A well-formed segment whose sequence numbers lie within `2 ^ 30` of `rnext`. -/
structure Segment.Close (rnext : Tcpseq) (segment : Segment) : Prop where
  wellFormed : segment.WellFormed
  low : -2 ^ 30 ≤ seqcmp segment.seq rnext
  high : seqcmp segment.seq rnext + segment.data.length ≤ 2 ^ 30

def NearAllowed (state : RcvState) : RcvEvent → Prop
  | .segment segment _ => segment.Close state.tcb.rnext
  | .getdata _ => True

/-- The keys of any two fragments compare as their sequence numbers do, the other way round. -/
def Tcb.OneSided (tcb : Tcb) : Prop :=
  ∀ frag ∈ tcb.frags, ∀ other ∈ tcb.frags,
    0 < seqcmp frag.seq other.seq → (-frag.seq).toInt < (-other.seq).toInt

/-- What is queued when a segment that reaches back to `rnext` is taken: fragments on one side
where it brings new data, and none from behind its FIN. -/
def Tcb.QueueClear (tcb : Tcb) (segment : Segment) : Prop :=
  tcb.takes segment = true → seqcmp segment.seq tcb.rnext ≤ 0 →
    (0 < seqcmp segment.after tcb.rnext → tcb.OneSided) ∧
      (segment.code.fin = true → ∀ frag ∈ tcb.frags, seqcmp frag.seq segment.after ≤ 0)

def QueueClear (state : RcvState) : RcvEvent → Prop
  | .segment segment _ => state.tcb.QueueClear segment
  | .getdata _ => True

instance (tcb : Tcb) : Decidable tcb.OneSided :=
  inferInstanceAs (Decidable (∀ frag ∈ tcb.frags, ∀ other ∈ tcb.frags,
    0 < seqcmp frag.seq other.seq → (-frag.seq).toInt < (-other.seq).toInt))

instance (tcb : Tcb) (segment : Segment) : Decidable (tcb.QueueClear segment) :=
  inferInstanceAs (Decidable (tcb.takes segment = true → seqcmp segment.seq tcb.rnext ≤ 0 →
    (0 < seqcmp segment.after tcb.rnext → tcb.OneSided) ∧
      (segment.code.fin = true → ∀ frag ∈ tcb.frags, seqcmp frag.seq segment.after ≤ 0)))

instance (state : RcvState) (event : RcvEvent) : Decidable (QueueClear state event) :=
  match event with
  | .segment segment _ => inferInstanceAs (Decidable (state.tcb.QueueClear segment))
  | .getdata _ => .isTrue trivial

/-- A connection with nothing queued yet. -/
structure QueueStart (tcb : Tcb) : Prop where
  synchronised : TcpState.established.number ≤ tcb.state.number
  size_le : tcb.rbsize.toNat ≤ 65535
  start_lt : tcb.rbstart.toNat < tcb.rbsize.toNat
  count_le : tcb.rbcount.toNat ≤ tcb.rbsize.toNat
  queue_eq : tcb.rsegq = none

/-- No fragment starts at or before `rnext`. -/
def Maximal (tcb : Tcb) : Prop := ∀ frag ∈ tcb.frags, 0 < seqcmp frag.seq tcb.rnext

instance (tcb : Tcb) : Decidable (Maximal tcb) :=
  inferInstanceAs (Decidable (∀ frag ∈ tcb.frags, 0 < seqcmp frag.seq tcb.rnext))

/-- A fragment leaves the queue when `rnext` has passed its end or the FIN noted. -/
def Passed (before after : Tcb) : Prop :=
  ∀ frag ∈ before.frags, frag ∈ after.frags ∨
    seqcmp (frag.seq + frag.len) after.rnext ≤ 0 ∨ after.rnext = before.finseq + 1

structure Reassembly (tcb : Tcb) : Prop where
  synchronised : TcpState.established.number ≤ tcb.state.number
  size_le : tcb.rbsize.toNat ≤ 65535
  start_lt : tcb.rbstart.toNat < tcb.rbsize.toNat
  count_le : tcb.rbcount.toNat ≤ tcb.rbsize.toNat
  keyed : tcb.Keyed
  ahead : ∀ frag ∈ tcb.frags, 0 < frag.start tcb.rnext ∧
    frag.stop tcb.rnext ≤ (tcb.rbsize.toNat : Int) - tcb.rbcount.toNat

section Places

variable {tcb after : Tcb} {frag : Tcpfrag}

theorem Reassembly.near (inv : Reassembly tcb) : ∀ frag ∈ tcb.frags, frag.Near tcb.rnext := by
  intro frag member
  have size := inv.size_le
  rcases inv.ahead frag member with ⟨low, high⟩
  constructor <;> omega

/-- Seen from further on, a fragment starts and stops earlier. -/
theorem start_shift {base : Tcpseq} (step : Nat) (small : step ≤ 2 ^ 17)
    (near : frag.Near base) :
    frag.start (seqAt base step) = frag.start base - step ∧
      frag.stop (seqAt base step) = frag.stop base - step := by
  rcases near with ⟨low, high⟩
  rw [Tcpfrag.stop] at high
  have seq : seqAt base (frag.start base) = frag.seq := seq_at_signed_dist base frag.seq
  have distance := signed_dist_seq_at base (frag.start base) step (by omega) (by omega)
  have moved : frag.start (seqAt base step) = frag.start base - step := by
    rw [seq] at distance
    exact distance
  constructor
  · exact moved
  · rw [Tcpfrag.stop, Tcpfrag.stop, moved]
    omega

/-- The end of a fragment, compared with a place that is not far. -/
theorem stop_distance {base : Tcpseq} (step : Nat) (small : step ≤ 2 ^ 17)
    (near : frag.Near base) :
    seqcmp (frag.seq + frag.len) (seqAt base step) = frag.stop base - step := by
  rcases near with ⟨low, high⟩
  rw [Tcpfrag.stop] at high
  have seq : seqAt base (frag.start base) = frag.seq := seq_at_signed_dist base frag.seq
  have place : frag.seq + frag.len = seqAt base (frag.stop base) := by
    rw [Tcpfrag.stop, ← seq_at_add_word, seq]
  rw [place, seqcmp, signed_dist_seq_at base (frag.stop base) step
    (by rw [Tcpfrag.stop]; omega) (by rw [Tcpfrag.stop]; omega)]

theorem Reassembly.maximal (inv : Reassembly tcb) : Maximal tcb :=
  fun frag member => (inv.ahead frag member).1

end Places

section Joining

variable {tcb after : Tcb} {count : Nat} {fin : Bool}

theorem Reassembly.ordered (inv : Reassembly tcb) (oneSided : tcb.OneSided) :
    tcb.frags.Pairwise fun first second =>
      first.start tcb.rnext ≤ second.start tcb.rnext := by
  have near := inv.near
  cases shape : tcb.rsegq with
  | none =>
      rw [frags_of_none shape]
      exact List.Pairwise.nil
  | some queue =>
      rw [Tcb.OneSided, frags_of_queue shape] at oneSided
      rw [frags_of_queue shape] at near ⊢
      exact (inv.keyed queue shape).ordered near oneSided

theorem Reassembly.joined_limit (inv : Reassembly tcb)
    (room : (count : Int) ≤ (tcb.rbsize.toNat : Int) - tcb.rbcount.toNat) :
    (tcb.joined count).edge ≤ (tcb.rbsize.toNat : Int) - tcb.rbcount.toNat :=
  joined_le room fun frag member => (inv.ahead frag member).2

theorem Reassembly.joined_rest (inv : Reassembly tcb) (oneSided : 0 < count → tcb.OneSided) :
    ∀ frag ∈ (tcb.joined count).rest,
      frag ∈ tcb.frags ∧ (tcb.joined count).edge < frag.start tcb.rnext := by
  rw [Tcb.joined]
  split
  · rename_i some
    intro frag member
    constructor
    · exact gather_rest _ _ frag member
    · exact gather_sorted _ _ (inv.ordered (oneSided some)) frag member
  · intro frag member
    exact ⟨member, (inv.ahead frag member).1⟩

/-- Behind a FIN nothing is left over. -/
theorem joined_fin_alone
    (left : ∀ frag ∈ (tcb.joined count).rest, frag ∈ tcb.frags ∧
      (tcb.joined count).edge < frag.start tcb.rnext)
    (behind : fin = true → ∀ frag ∈ tcb.frags, frag.start tcb.rnext ≤ count)
    (taken : (fin || (tcb.joined count).marked) = true) : (tcb.joined count).rest = [] := by
  rcases Bool.or_eq_true_iff.mp taken with own | marked
  · apply List.eq_nil_iff_forall_not_mem.mpr
    intro frag member
    rcases left frag member with ⟨queued, beyond⟩
    have before := behind own frag queued
    have reached := le_joined tcb count
    omega
  · rw [Tcb.joined] at marked ⊢
    split at marked
    · rename_i some
      rw [if_pos some]
      exact gather_rest_nil _ _ marked
    · cases marked

theorem joined_rnext (joined : Joined tcb count fin after) :
    ∃ taken : Nat, taken ≤ 1 ∧
      (taken = 1 ↔ (fin || (tcb.joined count).marked) = true) ∧
      after.rnext = seqAt tcb.rnext ((tcb.joined count).edge.toNat + taken : Nat) := by
  have rnext := joined.moved.rnext
  rw [← BitVec.ofInt_natCast] at rnext
  by_cases some : (fin || (tcb.joined count).marked) = true
  · rw [if_pos some] at rnext
    exact ⟨1, le_rfl, ⟨fun _ => some, fun _ => rfl⟩, rnext⟩
  · rw [if_neg some] at rnext
    exact ⟨0, Nat.zero_le 1, ⟨fun one => absurd one (by decide), fun taken => absurd taken some⟩,
      rnext⟩

theorem Reassembly.join (inv : Reassembly tcb) (joined : Joined tcb count fin after)
    (room : (count : Int) ≤ (tcb.rbsize.toNat : Int) - tcb.rbcount.toNat)
    (oneSided : 0 < count → tcb.OneSided)
    (behind : fin = true → ∀ frag ∈ tcb.frags, frag.start tcb.rnext ≤ count) :
    Reassembly after := by
  have size_le := inv.size_le
  have count_le := inv.count_le
  have reached := le_joined tcb count
  have limit := inv.joined_limit room
  have left := inv.joined_rest oneSided
  rcases joined_rnext joined with ⟨taken, single, fins, rnext⟩
  have moved := joined.moved
  have step : ((BitVec.ofNat 32 (tcb.joined count).edge.toNat)).toNat =
      (tcb.joined count).edge.toNat := by
    rw [BitVec.toNat_ofNat, Nat.mod_eq_of_lt (by omega)]
  have counted : after.rbcount.toNat = tcb.rbcount.toNat + (tcb.joined count).edge.toNat := by
    rw [moved.count, word_add_to_nat _ _ (by omega), step]
  constructor
  · rw [moved.state]
    exact inv.synchronised
  · rw [moved.size]
    exact size_le
  · rw [moved.size, moved.start]
    exact inv.start_lt
  · rw [moved.size, counted]
    omega
  · exact joined.keyed
  · intro frag member
    have rest := joined.frags.mem_iff.mp member
    have unfinned : taken = 0 := by
      by_contra some
      have alone := joined_fin_alone left behind (fins.mp (by omega))
      rw [alone] at rest
      exact absurd rest List.not_mem_nil
    rcases left frag rest with ⟨queued, beyond⟩
    rcases start_shift ((tcb.joined count).edge.toNat + taken) (by omega)
      (inv.near frag queued) with ⟨start, stop⟩
    have high := (inv.ahead frag queued).2
    rw [rnext, start, stop, moved.size, counted]
    constructor <;> omega

theorem Reassembly.joined_passed (inv : Reassembly tcb) (joined : Joined tcb count fin after)
    (room : (count : Int) ≤ (tcb.rbsize.toNat : Int) - tcb.rbcount.toNat) :
    Passed tcb after := by
  intro frag member
  have size_le := inv.size_le
  have reached := le_joined tcb count
  have limit := inv.joined_limit room
  rcases joined_rnext joined with ⟨taken, single, fins, rnext⟩
  have places : frag ∈ (tcb.joined count).rest ∨
      frag.stop tcb.rnext ≤ (tcb.joined count).edge ∨ (tcb.joined count).marked = true := by
    rw [Tcb.joined]
    split
    · exact gather_passed _ _ frag member
    · exact Or.inl member
  rcases places with left | passed | marked
  · exact Or.inl (joined.frags.mem_iff.mpr left)
  · right
    left
    rw [rnext, stop_distance _ (by omega) (inv.near frag member)]
    omega
  · right
    right
    have one : taken = 1 := fins.mpr (by rw [marked, Bool.or_true])
    have place := (joined_marked_iff (joined_some marked)).mp marked
    rw [rnext, one, ← place, Nat.cast_add, Int.toNat_of_nonneg (by omega), ← seq_at_add]
    rfl

theorem Reassembly.postpone {frag : Tcpfrag} (inv : Reassembly tcb)
    (postponed : Postponed tcb frag fin after)
    (ahead : 0 < frag.start tcb.rnext)
    (room : frag.len ≠ 0 → frag.stop tcb.rnext ≤ (tcb.rbsize.toNat : Int) - tcb.rbcount.toNat) :
    Reassembly after := by
  have moved := postponed.moved
  have rnext : after.rnext = tcb.rnext := by simpa using moved.rnext
  have counted : after.rbcount = tcb.rbcount := by simpa using moved.count
  constructor
  · rw [moved.state]
    exact inv.synchronised
  · rw [moved.size]
    exact inv.size_le
  · rw [moved.size, moved.start]
    exact inv.start_lt
  · rw [moved.size, counted]
    exact inv.count_le
  · exact postponed.keyed
  · intro other member
    rw [rnext, counted, moved.size]
    rcases postponed.frags other member with old | ⟨some, rfl⟩
    · exact inv.ahead other old
    · exact ⟨ahead, room some⟩

theorem Reassembly.postponed_passed {frag : Tcpfrag} (postponed : Postponed tcb frag fin after) :
    Passed tcb after := fun old member => Or.inl (postponed.stay old member)

end Joining

section Events

variable {tcb : Tcb} {segment : Segment}

theorem after_place (tcb : Tcb) (wellFormed : segment.WellFormed) :
    segment.after = seqAt tcb.rnext (seqcmp segment.seq tcb.rnext + segment.data.length) := by
  have seq : seqAt tcb.rnext (seqcmp segment.seq tcb.rnext) = segment.seq :=
    seq_at_signed_dist tcb.rnext segment.seq
  rw [Segment.after, (datalen_of_well_formed wellFormed).1]
  conv_lhs => rw [← seq]
  rw [seq_at_add]

theorem after_distance (close : segment.Close tcb.rnext) :
    seqcmp segment.after tcb.rnext = seqcmp segment.seq tcb.rnext + segment.data.length := by
  have low := close.low
  have high := close.high
  have distance := signed_dist_seq_at tcb.rnext
    (seqcmp segment.seq tcb.rnext + segment.data.length) 0 (by omega) (by omega)
  rw [seq_at_zero, ← after_place tcb close.wellFormed, Int.sub_zero] at distance
  exact distance

theorem kept_fin_uncut {next position : Nat}
    (kept : (keptCode tcb next segment position).fin = true) :
    segment.code.fin = true ∧
      position + segment.data.length ≤ next + (tcb.rbsize.toNat - tcb.rbcount.toNat) := by
  rw [keptCode] at kept
  split at kept
  · cases kept
  · exact ⟨kept, by omega⟩

theorem segment_reassembly (inv : Reassembly tcb) (close : segment.Close tcb.rnext)
    (clear : tcb.QueueClear segment) (newqOk : Bool) :
    Reassembly (rcvSegment tcb segment newqOk) ∧
      Passed tcb (rcvSegment tcb segment newqOk) := by
  have ends := after_distance close
  rcases close with ⟨wellFormed, low, high⟩
  by_cases taken : tcb.takes segment = true
  · have lies := near_lies inv.synchronised inv.size_le inv.start_lt inv.count_le wellFormed
      low high
    have count_le := inv.count_le
    have size_le := inv.size_le
    have place := after_place tcb wellFormed
    rcases taken_range lies taken with ⟨reaches, starts⟩
    have total := kept_end_position starts reaches
    rcases segment_received lies inv.keyed inv.near taken newqOk with
      ⟨reached, joined⟩ | ⟨beyond, postponed⟩
    · rw [keptFirst, max_eq_left reached] at total
      have room : (keptCount tcb (2 ^ 31) segment
          (2 ^ 31 + seqcmp segment.seq tcb.rnext).toNat : Int) ≤
          (tcb.rbsize.toNat : Int) - tcb.rbcount.toNat := by omega
      rcases clear taken (by omega) with ⟨oneSided, behind⟩
      constructor
      · apply inv.join joined room
        · intro some
          exact oneSided (by omega)
        · intro kept frag member
          rcases kept_fin_uncut kept with ⟨fin, uncut⟩
          have before := behind fin frag member
          rcases inv.near frag member with ⟨floor, limit⟩
          rw [Tcpfrag.stop] at limit
          have seq : seqAt tcb.rnext (frag.start tcb.rnext) = frag.seq :=
            seq_at_signed_dist tcb.rnext frag.seq
          rw [place, ← seq, seqcmp, signed_dist_seq_at _ _ _ (by omega) (by omega)] at before
          omega
      · exact inv.joined_passed joined room
    · rw [keptFirst, max_eq_right (by omega)] at total
      have small : (BitVec.ofNat 32 (keptCount tcb (2 ^ 31) segment
          (2 ^ 31 + seqcmp segment.seq tcb.rnext).toNat)).toNat =
          keptCount tcb (2 ^ 31) segment
            (2 ^ 31 + seqcmp segment.seq tcb.rnext).toNat := by
        rw [BitVec.toNat_ofNat, Nat.mod_eq_of_lt (by omega)]
      constructor
      · apply inv.postpone postponed
        · show 0 < seqcmp segment.seq tcb.rnext
          omega
        · intro _
          show seqcmp segment.seq tcb.rnext + (_ : Int) ≤ _
          rw [small]
          omega
      · exact Reassembly.postponed_passed postponed
  · rw [refused_segment (eq_false_of_ne_true taken)]
    exact ⟨inv, fun frag member => Or.inl member⟩

/-- A read moves the start of the buffer. -/
def ReadOut (tcb : Tcb) (count : Nat) (after : Tcb) : Prop :=
  ∃ flags cwin, flags.rdone = tcb.flags.rdone ∧
    after = { tcb.taken count with flags := flags, cwin := cwin }

theorem ReadOut.window {after : Tcb} {count : Nat} (read : ReadOut tcb count after) :
    ReadOut tcb count (tcprwindow after).2 := by
  rcases tcprwindow_fields after with ⟨edge, window⟩
  rcases read with ⟨flags, _, kept, rfl⟩
  exact ⟨flags, edge, kept, window⟩

theorem ReadOut.flag {after : Tcb} {count : Nat} (read : ReadOut tcb count after) (flags : Flags)
    (same : flags.rdone = after.flags.rdone) : ReadOut tcb count { after with flags := flags } := by
  rcases read with ⟨_, cwin, kept, rfl⟩
  exact ⟨flags, cwin, same.trans kept, rfl⟩

theorem ReadOut.kept {after : Tcb} {count : Nat} (read : ReadOut tcb count after) :
    after.rnext = tcb.rnext ∧ after.flags.rdone = tcb.flags.rdone ∧ after.frags = tcb.frags ∧
      after.finseq = tcb.finseq ∧ after.rbcount = (tcb.taken count).rbcount := by
  rcases read with ⟨_, _, rdone, rfl⟩
  exact ⟨rfl, rdone, rfl, rfl, rfl⟩

theorem tcpgetcopy_read (tcb : Tcb) (len : Word)
    (start_lt : tcb.rbstart.toNat < tcb.rbsize.toNat) :
    ReadOut tcb (min (tcpgeturg tcb len).1.toNat tcb.rbcount.toNat) (tcpgetcopy tcb len).2 := by
  have urgent : ∃ rupok, (tcpgeturg tcb len).2 =
      { tcb with flags := { tcb.flags with rupok := rupok } } := by
    simp only [tcpgeturg]
    split_ifs
    · exact ⟨false, rfl⟩
    · exact ⟨tcb.flags.rupok, rfl⟩
    · exact ⟨tcb.flags.rupok, rfl⟩
    · exact ⟨tcb.flags.rupok, rfl⟩
  rcases urgent with ⟨rupok, urgent⟩
  have octets := tcpgetoctets_eq (tcpgeturg tcb len).1.toNat
    { tcb with flags := { tcb.flags with rupok := rupok } } (Nat.zero_lt_of_lt start_lt) start_lt
  have read : ReadOut tcb (min (tcpgeturg tcb len).1.toNat tcb.rbcount.toNat)
      (tcpgetoctets (tcpgeturg tcb len).1.toNat (tcpgeturg tcb len).2).2 := by
    rw [urgent, octets]
    exact ⟨{ tcb.flags with rupok := rupok }, tcb.cwin, rfl, rfl⟩
  rw [tcpgetcopy]
  split
  · exact read.flag _ rfl
  · exact read

theorem tcpgetdata_read (tcb : Tcb) (len : Word)
    (start_lt : tcb.rbstart.toNat < tcb.rbsize.toNat) :
    (tcpgetdata tcb len).1.length ≤ tcb.rbcount.toNat ∧
      ReadOut tcb (tcpgetdata tcb len).1.length (tcpgetdata tcb len).2.1 := by
  have counted : (tcpgetdata tcb len).1.length =
      min (tcpgeturg tcb len).1.toNat tcb.rbcount.toNat := by
    rw [tcpgetdata_octets, tcpgetoctets_length, tcpgeturg_count]
  rw [counted]
  constructor
  · exact min_le_right _ _
  · have read := tcpgetcopy_read tcb len start_lt
    simp only [tcpgetdata]
    split_ifs
    · exact read.window.flag _ rfl
    · exact read.window
    · exact read

theorem Reassembly.read {after : Tcb} {count : Nat} (inv : Reassembly tcb)
    (read : ReadOut tcb count after) : Reassembly after := by
  have size_pos := Nat.zero_lt_of_lt inv.start_lt
  have left := taken_count tcb count
  have start := taken_start tcb count size_pos
  have count_le := inv.count_le
  rcases read with ⟨_, _, _, rfl⟩
  constructor
  · exact inv.synchronised
  · exact inv.size_le
  · rw [start]
    exact Nat.mod_lt _ size_pos
  · rw [left]
    exact (Nat.sub_le _ _).trans count_le
  · exact inv.keyed
  · intro frag member
    rcases inv.ahead frag member with ⟨low, high⟩
    constructor
    · exact low
    · rw [left]
      show _ ≤ (tcb.rbsize.toNat : Int) - (tcb.rbcount.toNat - count : Nat)
      exact high.trans (by omega)

end Events

section Run

variable {tcb : Tcb} {state : RcvState}

theorem reassembly_step (state : RcvState) (event : RcvEvent) (inv : Reassembly state.tcb)
    (permitted : NearAllowed state event ∧ QueueClear state event) :
    Reassembly (rcvStep state event).tcb ∧ Passed state.tcb (rcvStep state event).tcb := by
  cases event with
  | segment segment newqOk => exact segment_reassembly inv permitted.1 permitted.2 newqOk
  | getdata len =>
      have read := (tcpgetdata_read state.tcb len inv.start_lt).2
      constructor
      · exact inv.read read
      · intro frag member
        left
        rw [rcvStep, read.kept.2.2.1]
        exact member

theorem QueueStart.inv (start : QueueStart tcb) : Reassembly tcb where
  synchronised := start.synchronised
  size_le := start.size_le
  start_lt := start.start_lt
  count_le := start.count_le
  keyed := keyed_of_none start.queue_eq
  ahead := by
    intro frag member
    rw [frags_of_none start.queue_eq] at member
    exact absurd member List.not_mem_nil

end Run

/-- A connection that expects sequence number `rnext`. -/
def rcvAt (rnext : Tcpseq) : RcvState where
  tcb := { state := .established, rnext := rnext, cwin := rnext + 8192, rmss := 536 }
  out := []

/-- The second and the third piece of four octets arrive before the first. -/
def pieces (first : Tcpseq) : List RcvEvent :=
  [.segment { seq := first + 4, tcpData := [5, 6, 7, 8] } true,
    .segment { seq := first + 8, tcpData := [9, 10, 11, 12] } true,
    .segment { seq := first, tcpData := [1, 2, 3, 4] } true]

end MvsXinu.Tcp
