import MvsXinu.Tcp.Reassembly

/-!
# When the end of the stream is reported

The peer's FIN has the place behind the last octet of its stream. `TCBF_RDONE` should be set when
that place is reached, and a FIN that comes early should be remembered until then. `tcb_finseq`
remembers its sequence number, with 0 for none; `tfcoalesce` compares it with `rnext` whenever
`rnext` has moved.
-/

namespace MvsXinu.Tcp

open MvsXinu.SeqSpace MvsXinu.Gather

set_option autoImplicit false

inductive ArrivalEvent where
  | segment (segment : Segment) (position : Nat) (newqOk : Bool)
  | getdata (len : Word)

/-- The receive side, the segments that have arrived with their places in the peer's stream, and
whether a FIN has been kept. -/
structure Arrivals where
  rcv : RcvState
  arrived : List (Nat × Segment) := []
  finKept : Bool := false

/-- A FIN is kept with the last octet of its segment, when that fits the buffer. -/
def Tcb.keepsFin (tcb : Tcb) (segment : Segment) : Bool :=
  tcb.takes segment && segment.code.fin &&
    !decide (0 < seqcmp (segment.seq + BitVec.ofInt 32 segment.datalen - 1)
      (tcb.rnext + BitVec.ofInt 32 tcb.rwindow - 1))

def arrivalStep (run : Arrivals) : ArrivalEvent → Arrivals
  | .segment segment position newqOk =>
      { rcv := rcvStep run.rcv (.segment segment newqOk)
        arrived := (position, segment) :: run.arrived
        finKept := run.finKept || run.rcv.tcb.keepsFin segment }
  | .getdata len => { run with rcv := rcvStep run.rcv (.getdata len) }

/-- A segment of a stream of `finish` octets: octet `s` has sequence number `seqAt isn s`, and a
FIN follows the last octet. The sequence numbers are within `2 ^ 30` of `rnext`. -/
structure Sent (isn : Tcpseq) (finish : Nat) (state : RcvState) (segment : Segment)
    (position : Nat) : Prop where
  wellFormed : segment.WellFormed
  seq_eq : segment.seq = seqAt isn position
  within : segment.data ≠ [] → position + segment.data.length ≤ finish
  fin_last : segment.code.fin = true → position + segment.data.length = finish
  near_low : state.next ≤ position + 2 ^ 30
  near_high : position + segment.data.length ≤ state.next + 2 ^ 30

def ArrivalAllowed (isn : Tcpseq) (finish : Nat) (run : Arrivals) : ArrivalEvent → Prop
  | .segment segment position _ => Sent isn finish run.rcv segment position
  | .getdata _ => True

/-- When new data reach back to `rnext`, the queued fragments lie on one side; and as long as no
FIN has been kept, neither the data nor a queued fragment ends at sequence number 0. -/
def Tcb.ArrivalClear (tcb : Tcb) (finKept : Bool) (segment : Segment) : Prop :=
  tcb.takes segment = true → seqcmp segment.seq tcb.rnext ≤ 0 →
    0 < seqcmp segment.after tcb.rnext →
      tcb.OneSided ∧ (finKept = false → tcb.keepsFin segment = false →
        tcb.keptEnd segment ≠ 0 ∧ ∀ frag ∈ tcb.frags, frag.seq + frag.len ≠ 0)

def ArrivalClear (run : Arrivals) : ArrivalEvent → Prop
  | .segment segment _ _ => run.rcv.tcb.ArrivalClear run.finKept segment
  | .getdata _ => True

/-- Some segment has brought an octet. -/
def Arrivals.Arrived (run : Arrivals) (octet : Nat) : Prop :=
  ∃ arrival ∈ run.arrived, arrival.1 ≤ octet ∧ octet < arrival.1 + arrival.2.data.length

/-- An octet is counted in, or lies in a queued fragment. -/
def Arrivals.Held (run : Arrivals) (isn : Tcpseq) (octet : Nat) : Prop :=
  octet < run.rcv.edge ∨ ∃ frag ∈ run.rcv.tcb.frags,
    0 ≤ seqcmp (seqAt isn octet) frag.seq ∧ seqcmp (seqAt isn octet) frag.seq < frag.len.toNat

/-- The end of the stream is reported on a FIN at its place, with all octets before it received;
and once a FIN is kept, exactly when no octet before it is missing. -/
structure EndsOnFin (isn : Tcpseq) (finish : Nat) (run : Arrivals) : Prop where
  real : run.rcv.tcb.flags.rdone = true → ∃ arrival ∈ run.arrived,
    arrival.2.code.fin = true ∧
      run.rcv.tcb.rnext = seqAt isn (arrival.1 + arrival.2.data.length + 1) ∧
      ∀ octet < arrival.1 + arrival.2.data.length, run.Arrived octet
  timely : run.finKept = true →
    (run.rcv.tcb.flags.rdone = true ↔ ∀ octet < finish, run.Held isn octet)

/-- A queued fragment brings octets of the stream that have arrived, counted from `next`. -/
structure Brings (run : Arrivals) (finish : Nat) (next : Int) (base : Tcpseq)
    (frag : Tcpfrag) : Prop where
  within : next + frag.stop base ≤ finish
  arrived : ∀ octet : Nat, next + frag.start base ≤ octet → octet < next + frag.stop base →
    run.Arrived octet

structure ArrivalInv (isn : Tcpseq) (finish : Nat) (run : Arrivals) : Prop where
  reassembly : Reassembly run.rcv.tcb
  rnext_eq : run.rcv.tcb.rnext = seqAt isn run.rcv.next
  edge_le : run.rcv.edge ≤ finish
  arrived : ∀ octet < run.rcv.edge, run.Arrived octet
  queued : ∀ frag ∈ run.rcv.tcb.frags,
    Brings run finish run.rcv.next run.rcv.tcb.rnext frag
  unkept : run.finKept = false →
    run.rcv.tcb.finseq = 0 ∧ run.rcv.tcb.flags.rdone = false
  known : run.finKept = true → ∃ arrival ∈ run.arrived,
    arrival.2.code.fin = true ∧ arrival.1 + arrival.2.data.length = finish
  done : run.rcv.tcb.flags.rdone = true → run.rcv.edge = finish
  awaited : run.finKept = true → run.rcv.tcb.flags.rdone = false →
    run.rcv.tcb.finseq = seqAt isn finish ∧ run.rcv.edge < finish ∧
      finish ≤ run.rcv.edge + 65535

section Law

variable {isn : Tcpseq} {finish : Nat} {run : Arrivals}

theorem Arrivals.Arrived.later {octet : Nat} (arrived : run.Arrived octet) {after : Arrivals}
    (more : ∀ arrival ∈ run.arrived, arrival ∈ after.arrived) : after.Arrived octet := by
  rcases arrived with ⟨arrival, member, inside⟩
  exact ⟨arrival, more arrival member, inside⟩

theorem ArrivalInv.ends (inv : ArrivalInv isn finish run) : EndsOnFin isn finish run := by
  constructor
  · intro done
    have kept : run.finKept = true := by
      by_contra unkept
      have opened := (inv.unkept (eq_false_of_ne_true unkept)).2
      rw [done] at opened
      cases opened
    rcases inv.known kept with ⟨arrival, member, fin, place⟩
    have edge := inv.done done
    refine ⟨arrival, member, fin, ?_, ?_⟩
    · rw [inv.rnext_eq, RcvState.next, edge, done, ← place]
      rfl
    · intro octet before
      exact inv.arrived octet (by omega)
  · intro kept
    constructor
    · intro done octet before
      left
      have edge := inv.done done
      omega
    · intro held
      by_contra opened
      rcases inv.awaited kept (eq_false_of_ne_true opened) with ⟨_, before, _⟩
      -- the octet at `rnext` is missing
      rcases held run.rcv.edge before with counted | ⟨frag, member, low, _⟩
      · omega
      · have rnext : run.rcv.tcb.rnext = seqAt isn run.rcv.edge := by
          rw [inv.rnext_eq, RcvState.next, eq_false_of_ne_true opened]
          rfl
        have near := inv.reassembly.near frag member
        rcases near with ⟨floor, limit⟩
        have ahead := (inv.reassembly.ahead frag member).1
        rw [Tcpfrag.stop] at limit
        have seq : seqAt run.rcv.tcb.rnext (frag.start run.rcv.tcb.rnext) = frag.seq :=
          seq_at_signed_dist run.rcv.tcb.rnext frag.seq
        have distance := signed_dist_seq_at run.rcv.tcb.rnext 0
          (frag.start run.rcv.tcb.rnext) (by omega) (by omega)
        rw [seq_at_zero, seq] at distance
        rw [← rnext, seqcmp, distance] at low
        omega

/-- A FIN has come early. -/
structure Expects (isn : Tcpseq) (finish : Nat) (run : Arrivals) : Prop where
  kept : run.finKept = true
  known : ∃ arrival ∈ run.arrived,
    arrival.2.code.fin = true ∧ arrival.1 + arrival.2.data.length = finish
  opened : run.rcv.tcb.flags.rdone = false
  finseq : run.rcv.tcb.finseq = seqAt isn finish
  before : run.rcv.edge < finish
  near : finish ≤ run.rcv.edge + 65535

/-- Where nothing is joined, nothing changes but that more has arrived, perhaps a FIN. -/
theorem ArrivalInv.still {after : Arrivals} (inv : ArrivalInv isn finish run)
    (reassembly : Reassembly after.rcv.tcb) (edge : after.rcv.edge = run.rcv.edge)
    (rnext : after.rcv.tcb.rnext = run.rcv.tcb.rnext)
    (rdone : after.rcv.tcb.flags.rdone = run.rcv.tcb.flags.rdone)
    (frags : ∀ frag ∈ after.rcv.tcb.frags, frag ∈ run.rcv.tcb.frags ∨
      Brings after finish run.rcv.next run.rcv.tcb.rnext frag)
    (more : ∀ arrival ∈ run.arrived, arrival ∈ after.arrived)
    (ending : after.finKept = run.finKept ∧ after.rcv.tcb.finseq = run.rcv.tcb.finseq ∨
      Expects isn finish after) : ArrivalInv isn finish after := by
  have next : after.rcv.next = run.rcv.next := by
    rw [RcvState.next, RcvState.next, edge, rdone]
  constructor
  · exact reassembly
  · rw [rnext, next]
    exact inv.rnext_eq
  · rw [edge]
    exact inv.edge_le
  · intro octet before
    rw [edge] at before
    exact (inv.arrived octet before).later more
  · intro frag member
    rw [next, rnext]
    rcases frags frag member with old | new
    · have brings := inv.queued frag old
      exact ⟨brings.within, fun octet low high => (brings.arrived octet low high).later more⟩
    · exact new
  · intro unkept
    rcases ending with ⟨kept, finseq⟩ | expects
    · rw [finseq, rdone]
      exact inv.unkept (kept.symm.trans unkept)
    · rw [expects.kept] at unkept
      cases unkept
  · intro known
    rcases ending with ⟨kept, _⟩ | expects
    · rcases inv.known (kept.symm.trans known) with ⟨arrival, member, place⟩
      exact ⟨arrival, more arrival member, place⟩
    · exact expects.known
  · rw [rdone, edge]
    exact inv.done
  · intro known opened
    rcases ending with ⟨kept, finseq⟩ | expects
    · rw [finseq, edge]
      exact inv.awaited (kept.symm.trans known) (rdone.symm.trans opened)
    · exact ⟨expects.finseq, expects.before, expects.near⟩

end Law

section Opened

variable {isn : Tcpseq} {finish count : Nat} {fin : Bool} {run after : Arrivals}

theorem ArrivalInv.opened_next (inv : ArrivalInv isn finish run)
    (opened : run.rcv.tcb.flags.rdone = false) :
    run.rcv.next = run.rcv.edge ∧ run.rcv.tcb.rnext = seqAt isn run.rcv.edge := by
  have next : run.rcv.next = run.rcv.edge := by
    rw [RcvState.next, opened]
    rfl
  constructor
  · exact next
  · rw [inv.rnext_eq, next]

/-- The edge stays within the stream. -/
theorem ArrivalInv.joined_within (inv : ArrivalInv isn finish run)
    (opened : run.rcv.tcb.flags.rdone = false) (within : run.rcv.edge + count ≤ finish) :
    run.rcv.edge + (run.rcv.tcb.joined count).edge ≤ finish := by
  have next := (inv.opened_next opened).1
  have limit : (run.rcv.tcb.joined count).edge ≤ (finish : Int) - run.rcv.edge := by
    apply joined_le
    · omega
    · intro frag member
      have fits := (inv.queued frag member).within
      omega
  omega

/-- A mark that the scan meets is the FIN's. -/
theorem ArrivalInv.joined_mark (inv : ArrivalInv isn finish run)
    (opened : run.rcv.tcb.flags.rdone = false)
    (room : (count : Int) ≤ (run.rcv.tcb.rbsize.toNat : Int) - run.rcv.tcb.rbcount.toNat)
    (nonzero : 0 < count → run.finKept = false →
      seqAt run.rcv.tcb.rnext count ≠ 0 ∧
        ∀ frag ∈ run.rcv.tcb.frags, frag.seq + frag.len ≠ 0)
    (some : 0 < count) :
    (run.rcv.tcb.joined count).marked = true ↔
      run.finKept = true ∧ run.rcv.edge + (run.rcv.tcb.joined count).edge = finish := by
  have reached := le_joined run.rcv.tcb count
  have limit := inv.reassembly.joined_limit room
  have size_le := inv.reassembly.size_le
  rcases inv.opened_next opened with ⟨next, rnext⟩
  rw [joined_marked_iff some]
  cases kept : run.finKept with
  | true =>
      rcases inv.awaited kept opened with ⟨finseq, before, near⟩
      have moved : seqAt run.rcv.tcb.rnext (run.rcv.tcb.joined count).edge =
          seqAt isn (run.rcv.edge + (run.rcv.tcb.joined count).edge) := by
        rw [rnext]
        exact seq_at_add isn run.rcv.edge (run.rcv.tcb.joined count).edge
      rw [finseq, moved]
      constructor
      · intro met
        exact ⟨rfl, seq_at_injective isn _ _ (by omega) (by omega) met⟩
      · rintro ⟨_, place⟩
        rw [place]
  | false =>
      rw [(inv.unkept kept).1]
      constructor
      · intro zero
        rcases nonzero some kept with ⟨ends, stops⟩
        rcases joined_reached some with whole | ⟨frag, member, stop⟩
        · rw [whole] at zero
          exact absurd zero ends
        · have seq : seqAt run.rcv.tcb.rnext (frag.start run.rcv.tcb.rnext) = frag.seq :=
            seq_at_signed_dist run.rcv.tcb.rnext frag.seq
          rw [stop, Tcpfrag.stop, ← seq_at_add_word, seq] at zero
          exact absurd zero (stops frag member)
      · rintro ⟨wrong, _⟩
        cases wrong

theorem ArrivalInv.join (inv : ArrivalInv isn finish run)
    (opened : run.rcv.tcb.flags.rdone = false)
    (joined : Joined run.rcv.tcb count fin after.rcv.tcb) (out : after.rcv.out = run.rcv.out)
    (reassembly : Reassembly after.rcv.tcb)
    (room : (count : Int) ≤ (run.rcv.tcb.rbsize.toNat : Int) - run.rcv.tcb.rbcount.toNat)
    (left : ∀ frag ∈ (run.rcv.tcb.joined count).rest, frag ∈ run.rcv.tcb.frags ∧
      (run.rcv.tcb.joined count).edge < frag.start run.rcv.tcb.rnext)
    (within : run.rcv.edge + count ≤ finish)
    (brought : ∀ octet, run.rcv.edge ≤ octet → octet < run.rcv.edge + count →
      after.Arrived octet)
    (more : ∀ arrival ∈ run.arrived, arrival ∈ after.arrived)
    (last : fin = true → run.rcv.edge + count = finish ∧ ∃ arrival ∈ after.arrived,
      arrival.2.code.fin = true ∧ arrival.1 + arrival.2.data.length = finish)
    (kept : after.finKept = (run.finKept || fin))
    (nonzero : 0 < count → run.finKept = false → fin = false →
      seqAt run.rcv.tcb.rnext count ≠ 0 ∧
        ∀ frag ∈ run.rcv.tcb.frags, frag.seq + frag.len ≠ 0) :
    ArrivalInv isn finish after := by
  have reached := le_joined run.rcv.tcb count
  have limit := inv.reassembly.joined_limit room
  have inside := inv.joined_within opened within
  have size_le := inv.reassembly.size_le
  have count_le := inv.reassembly.count_le
  rcases inv.opened_next opened with ⟨next, rnext⟩
  rcases joined_rnext joined with ⟨taken, single, fins, moved⟩
  have counted : after.rcv.tcb.rbcount.toNat =
      run.rcv.tcb.rbcount.toNat + (run.rcv.tcb.joined count).edge.toNat := by
    have step : (BitVec.ofNat 32 (run.rcv.tcb.joined count).edge.toNat).toNat =
        (run.rcv.tcb.joined count).edge.toNat := by
      rw [BitVec.toNat_ofNat, Nat.mod_eq_of_lt (by omega)]
    rw [joined.moved.count, word_add_to_nat _ _ (by omega), step]
  have edge : (after.rcv.edge : Int) = run.rcv.edge + (run.rcv.tcb.joined count).edge := by
    simp only [RcvState.edge, out, counted]
    omega
  have done : after.rcv.tcb.flags.rdone = (fin || (run.rcv.tcb.joined count).marked) := by
    rw [joined.moved.rdone, opened]
    cases fin || (run.rcv.tcb.joined count).marked <;> rfl
  have nextAfter : after.rcv.next = after.rcv.edge + taken := by
    rw [RcvState.next, done]
    by_cases both : (fin || (run.rcv.tcb.joined count).marked) = true
    · rw [if_pos both, fins.mpr both]
    · have none : taken ≠ 1 := fun one => both (fins.mp one)
      rw [if_neg both]
      omega
  have marks : fin = false → (run.rcv.tcb.joined count).marked = true →
      run.finKept = true ∧ run.rcv.edge + (run.rcv.tcb.joined count).edge = finish :=
    fun without marked => (inv.joined_mark opened room
      (fun some unkept => nonzero some unkept without) (joined_some marked)).mp marked
  have ends : (fin || (run.rcv.tcb.joined count).marked) = true → after.rcv.edge = finish := by
    intro both
    cases fin with
    | true =>
        have whole := (last rfl).1
        omega
    | false =>
        have place := (marks rfl both).2
        omega
  constructor
  · exact reassembly
  · rw [moved, rnext, nextAfter, seqAt, seq_at_add]
    congr 1
    omega
  · omega
  · intro octet before
    by_cases old : octet < run.rcv.edge
    · exact (inv.arrived octet old).later more
    · by_cases own : octet < run.rcv.edge + count
      · exact brought octet (by omega) own
      · rcases joined_occupied run.rcv.tcb count ((octet : Int) - run.rcv.edge)
          (by omega) (by omega) with ⟨frag, member, low, high⟩
        exact ((inv.queued frag member).arrived octet (by omega) (by omega)).later more
  · intro frag member
    rcases left frag (joined.frags.mem_iff.mp member) with ⟨queued, _⟩
    have brings := inv.queued frag queued
    have fits := brings.within
    rcases start_shift ((run.rcv.tcb.joined count).edge.toNat + taken) (by omega)
      (inv.reassembly.near frag queued) with ⟨start, stop⟩
    rw [nextAfter, moved]
    constructor
    · rw [stop]
      omega
    · intro octet low high
      rw [start] at low
      rw [stop] at high
      exact (brings.arrived octet (by omega) (by omega)).later more
  · intro unkept
    rw [kept, Bool.or_eq_false_iff] at unkept
    rcases unkept with ⟨before, without⟩
    rw [joined.finseq, done, without]
    constructor
    · exact (inv.unkept before).1
    · by_contra marked
      have wrong := (marks without (by simpa using marked)).1
      rw [before] at wrong
      cases wrong
  · intro known
    rw [kept] at known
    rcases Bool.or_eq_true_iff.mp known with before | own
    · rcases inv.known before with ⟨arrival, member, place⟩
      exact ⟨arrival, more arrival member, place⟩
    · exact (last own).2
  · rw [done]
    exact ends
  · intro known open_
    rw [done, Bool.or_eq_false_iff] at open_
    rcases open_ with ⟨without, unmarked⟩
    rw [kept, without, Bool.or_false] at known
    rcases inv.awaited known opened with ⟨finseq, before, near⟩
    rw [joined.finseq]
    have short : run.rcv.edge + (run.rcv.tcb.joined count).edge ≠ finish := by
      by_cases some : 0 < count
      · intro place
        have marked := (inv.joined_mark opened room
          (fun some unkept => nonzero some unkept without) some).mpr ⟨known, place⟩
        rw [unmarked] at marked
        cases marked
      · rw [joined_none some]
        omega
    refine ⟨finseq, by omega, by omega⟩

end Opened

section Events

variable {isn : Tcpseq} {finish position : Nat} {run : Arrivals} {segment : Segment}

theorem ArrivalInv.lies (inv : ArrivalInv isn finish run)
    (sent : Sent isn finish run.rcv segment position) :
    Lies isn run.rcv.tcb run.rcv.next segment position where
  synchronised := inv.reassembly.synchronised
  size_le := inv.reassembly.size_le
  start_lt := inv.reassembly.start_lt
  count_le := inv.reassembly.count_le
  rnext_eq := inv.rnext_eq
  wellFormed := sent.wellFormed
  seq_eq := sent.seq_eq
  near_low := sent.near_low
  near_high := sent.near_high

/-- A FIN is kept where its code is not cut off. -/
theorem keeps_fin_eq {tcb : Tcb} {next : Nat} (lies : Lies isn tcb next segment position)
    (taken : tcb.takes segment = true) :
    tcb.keepsFin segment = (keptCode tcb next segment position).fin := by
  have low := lies.near_low
  have high := lies.near_high
  have datalen := (datalen_of_well_formed lies.wellFormed).1
  have window := rwindow_of_le lies.size_le lies.count_le
  have size_le := lies.size_le
  have last : segment.seq + BitVec.ofInt 32 segment.datalen - 1 =
      seqAt isn (position + segment.data.length - 1) := by
    rw [lies.seq_eq, datalen, seq_at_add, ← seq_at_sub_const]
    rfl
  have distance := signed_dist_seq_at isn (position + segment.data.length - 1)
    (next + tcb.rwindow - 1) (by omega) (by omega)
  rw [Tcb.keepsFin, taken, Bool.true_and, last, lies.wlast, seqcmp, distance, keptCode]
  split
  · have beyond : 0 < (position + segment.data.length - 1 : Int) - (next + tcb.rwindow - 1) := by
      omega
    rw [decide_eq_true beyond, Bool.not_true, Bool.and_false]
  · have inside : ¬ 0 < (position + segment.data.length - 1 : Int) -
        (next + tcb.rwindow - 1) := by omega
    rw [decide_eq_false inside, Bool.not_false, Bool.and_true]

/-- Behind the FIN only segments without data and without a FIN are taken. -/
theorem ArrivalInv.nothing_new (inv : ArrivalInv isn finish run)
    (sent : Sent isn finish run.rcv segment position)
    (closed : run.rcv.tcb.flags.rdone = true)
    (reaches : run.rcv.next ≤ position + segment.data.length) :
    segment.data.length = 0 ∧ segment.code.fin = false := by
  have edge := inv.done closed
  have next : run.rcv.next = run.rcv.edge + 1 := by
    rw [RcvState.next, closed]
    rfl
  constructor
  · by_contra some
    have within := sent.within (List.ne_nil_of_length_pos (by omega))
    omega
  · by_contra fin
    have last := sent.fin_last (by simpa using fin)
    omega

/-- The queue is clear of anything behind a FIN that is taken. -/
theorem ArrivalInv.fin_behind (inv : ArrivalInv isn finish run)
    (sent : Sent isn finish run.rcv segment position) (fin : segment.code.fin = true) :
    ∀ frag ∈ run.rcv.tcb.frags, seqcmp frag.seq segment.after ≤ 0 := by
  intro frag member
  have fits := (inv.queued frag member).within
  have last := sent.fin_last fin
  have low := sent.near_low
  have high := sent.near_high
  have size_le := inv.reassembly.size_le
  rcases inv.reassembly.ahead frag member with ⟨ahead, room⟩
  rw [Tcpfrag.stop] at fits room
  have seq : seqAt run.rcv.tcb.rnext (frag.start run.rcv.tcb.rnext) = frag.seq :=
    seq_at_signed_dist run.rcv.tcb.rnext frag.seq
  have place : frag.seq = seqAt isn (run.rcv.next + frag.start run.rcv.tcb.rnext) := by
    conv_lhs => rw [← seq]
    rw [inv.rnext_eq]
    exact seq_at_add isn _ _
  have after : segment.after = seqAt isn (position + segment.data.length) := by
    rw [Segment.after, (datalen_of_well_formed sent.wellFormed).1, sent.seq_eq, seq_at_add]
  rw [place, after, seqcmp, signed_dist_seq_at _ _ _ (by omega) (by omega)]
  omega

theorem ArrivalInv.place (inv : ArrivalInv isn finish run)
    (sent : Sent isn finish run.rcv segment position) :
    seqcmp segment.seq run.rcv.tcb.rnext = (position : Int) - run.rcv.next := by
  have low := sent.near_low
  have high := sent.near_high
  rw [inv.rnext_eq, sent.seq_eq, seqcmp, signed_dist_seq_at _ _ _ (by omega) (by omega)]

theorem ArrivalInv.close (inv : ArrivalInv isn finish run)
    (sent : Sent isn finish run.rcv segment position) :
    segment.Close run.rcv.tcb.rnext := by
  have place := inv.place sent
  have low := sent.near_low
  have high := sent.near_high
  exact ⟨sent.wellFormed, by omega, by omega⟩

theorem ArrivalInv.queueClear (inv : ArrivalInv isn finish run)
    (sent : Sent isn finish run.rcv segment position)
    (clear : run.rcv.tcb.ArrivalClear run.finKept segment) :
    run.rcv.tcb.QueueClear segment := by
  intro taken reached
  constructor
  · intro some
    exact (clear taken reached some).1
  · exact inv.fin_behind sent

variable {newqOk : Bool}

/-- The arrival of a segment that is refused changes nothing. -/
theorem arrival_refused (inv : ArrivalInv isn finish run)
    (refused : run.rcv.tcb.takes segment = false) :
    ArrivalInv isn finish (arrivalStep run (.segment segment position newqOk)) := by
  have same : (arrivalStep run (.segment segment position newqOk)).rcv = run.rcv := by
    show { run.rcv with tcb := rcvSegment run.rcv.tcb segment newqOk } = run.rcv
    rw [refused_segment refused]
  have kept : run.rcv.tcb.keepsFin segment = false := by
    rw [Tcb.keepsFin, refused, Bool.false_and, Bool.false_and]
  apply inv.still
  · rw [same]
    exact inv.reassembly
  · rw [same]
  · rw [same]
  · rw [same]
  · rw [same]
    exact fun frag member => Or.inl member
  · exact fun arrival member => List.mem_cons_of_mem _ member
  · left
    rw [same]
    constructor
    · show (run.finKept || run.rcv.tcb.keepsFin segment) = run.finKept
      rw [kept, Bool.or_false]
    · rfl

theorem arrival_postponed (inv : ArrivalInv isn finish run)
    (sent : Sent isn finish run.rcv segment position)
    (reassembly : Reassembly (rcvSegment run.rcv.tcb segment newqOk))
    (taken : run.rcv.tcb.takes segment = true) (beyond : run.rcv.next < position)
    (postponed : Postponed run.rcv.tcb
      ⟨segment.seq, BitVec.ofNat 32 (keptCount run.rcv.tcb run.rcv.next segment position)⟩
      (keptCode run.rcv.tcb run.rcv.next segment position).fin
      (rcvSegment run.rcv.tcb segment newqOk)) :
    ArrivalInv isn finish (arrivalStep run (.segment segment position newqOk)) := by
  have lies := inv.lies sent
  have size_le := inv.reassembly.size_le
  have count_le := inv.reassembly.count_le
  rcases taken_range lies taken with ⟨reaches, starts⟩
  have total := kept_end_position starts reaches
  rw [keptFirst, max_eq_right (by omega)] at total
  have small : (BitVec.ofNat 32 (keptCount run.rcv.tcb run.rcv.next segment position)).toNat =
      keptCount run.rcv.tcb run.rcv.next segment position := by
    rw [BitVec.toNat_ofNat, Nat.mod_eq_of_lt (by omega)]
  have moved := postponed.moved
  have rnext : (rcvSegment run.rcv.tcb segment newqOk).rnext = run.rcv.tcb.rnext := by
    simpa using moved.rnext
  have counted : (rcvSegment run.rcv.tcb segment newqOk).rbcount = run.rcv.tcb.rbcount := by
    simpa using moved.count
  have rdone : (rcvSegment run.rcv.tcb segment newqOk).flags.rdone =
      run.rcv.tcb.flags.rdone := by
    simpa using moved.rdone
  have edge : (arrivalStep run (.segment segment position newqOk)).rcv.edge = run.rcv.edge := by
    show run.rcv.out.length + (rcvSegment run.rcv.tcb segment newqOk).rbcount.toNat = _
    rw [counted]
    rfl
  have keeps := keeps_fin_eq lies taken
  apply inv.still reassembly edge rnext rdone
  · intro frag member
    rcases postponed.frags frag member with old | ⟨some, rfl⟩
    · exact Or.inl old
    · right
      have place := inv.place sent
      have nonempty : keptCount run.rcv.tcb run.rcv.next segment position ≠ 0 := by
        intro none
        rw [none] at some
        exact some rfl
      have within := sent.within (List.ne_nil_of_length_pos (by omega))
      constructor
      · rw [Tcpfrag.stop, Tcpfrag.start, place, small]
        omega
      · intro octet low high
        rw [Tcpfrag.start, place] at low
        rw [Tcpfrag.stop, Tcpfrag.start, place, small] at high
        refine ⟨(position, segment), List.mem_cons_self, ?_, ?_⟩
        · show position ≤ octet
          omega
        · show octet < position + segment.data.length
          omega
  · exact fun arrival member => List.mem_cons_of_mem _ member
  · cases kept : (keptCode run.rcv.tcb run.rcv.next segment position).fin with
    | false =>
        left
        constructor
        · show (run.finKept || run.rcv.tcb.keepsFin segment) = run.finKept
          rw [keeps, kept, Bool.or_false]
        · have finseq := postponed.finseq
          rw [kept, if_neg Bool.false_ne_true] at finseq
          exact finseq
    | true =>
        right
        rcases kept_fin_uncut kept with ⟨fin, uncut⟩
        have last := sent.fin_last fin
        have opened : run.rcv.tcb.flags.rdone = false := by
          by_contra closed
          have empty := (inv.nothing_new sent (by simpa using closed) reaches).2
          rw [fin] at empty
          cases empty
        have next := (inv.opened_next opened).1
        constructor
        · show (run.finKept || run.rcv.tcb.keepsFin segment) = true
          rw [keeps, kept, Bool.or_true]
        · exact ⟨(position, segment), List.mem_cons_self, fin, last⟩
        · exact rdone.trans opened
        · have finseq := postponed.finseq
          rw [kept, if_pos rfl] at finseq
          rw [sent.seq_eq, seq_at_add_nat] at finseq
          have whole : position + keptCount run.rcv.tcb run.rcv.next segment position =
              finish := by omega
          rw [← whole, Nat.cast_add]
          exact finseq
        · rw [edge]
          omega
        · rw [edge]
          omega

/-- So does one that brings nothing new. -/
theorem arrival_empty (inv : ArrivalInv isn finish run)
    (reassembly : Reassembly (rcvSegment run.rcv.tcb segment newqOk))
    (keeps : run.rcv.tcb.keepsFin segment = false)
    (joined : Joined run.rcv.tcb 0 false (rcvSegment run.rcv.tcb segment newqOk)) :
    ArrivalInv isn finish (arrivalStep run (.segment segment position newqOk)) := by
  have moved : Moved run.rcv.tcb (rcvSegment run.rcv.tcb segment newqOk) 0 0 := joined.moved
  have counted : (rcvSegment run.rcv.tcb segment newqOk).rbcount = run.rcv.tcb.rbcount := by
    simpa using moved.count
  apply inv.still reassembly
  · show run.rcv.out.length + (rcvSegment run.rcv.tcb segment newqOk).rbcount.toNat = _
    rw [counted]
    rfl
  · have rnext : (rcvSegment run.rcv.tcb segment newqOk).rnext = run.rcv.tcb.rnext := by
      simpa using moved.rnext
    exact rnext
  · have rdone : (rcvSegment run.rcv.tcb segment newqOk).flags.rdone =
        run.rcv.tcb.flags.rdone := by
      simpa using moved.rdone
    exact rdone
  · exact fun frag member => Or.inl (joined.frags.mem_iff.mp member)
  · exact fun arrival member => List.mem_cons_of_mem _ member
  · left
    constructor
    · show (run.finKept || run.rcv.tcb.keepsFin segment) = run.finKept
      rw [keeps, Bool.or_false]
    · exact joined.finseq

theorem arrival_joined (inv : ArrivalInv isn finish run)
    (sent : Sent isn finish run.rcv segment position)
    (clear : run.rcv.tcb.ArrivalClear run.finKept segment)
    (reassembly : Reassembly (rcvSegment run.rcv.tcb segment newqOk))
    (taken : run.rcv.tcb.takes segment = true) (reached : position ≤ run.rcv.next)
    (joined : Joined run.rcv.tcb (keptCount run.rcv.tcb run.rcv.next segment position)
      (keptCode run.rcv.tcb run.rcv.next segment position).fin
      (rcvSegment run.rcv.tcb segment newqOk)) :
    ArrivalInv isn finish (arrivalStep run (.segment segment position newqOk)) := by
  have lies := inv.lies sent
  have size_le := inv.reassembly.size_le
  have count_le := inv.reassembly.count_le
  have keeps := keeps_fin_eq lies taken
  have place := inv.place sent
  rcases taken_range lies taken with ⟨reaches, starts⟩
  have total := kept_end_position starts reaches
  rw [keptFirst, max_eq_left reached] at total
  cases opened : run.rcv.tcb.flags.rdone with
  | true =>
      rcases inv.nothing_new sent opened reaches with ⟨empty, without⟩
      have none : keptCount run.rcv.tcb run.rcv.next segment position = 0 := by omega
      have kept : (keptCode run.rcv.tcb run.rcv.next segment position).fin = false := by
        by_contra set
        have fin := (kept_fin_uncut (by simpa using set)).1
        rw [without] at fin
        cases fin
      rw [none, kept] at joined
      exact arrival_empty inv reassembly (keeps.trans kept) joined
  | false =>
      have next := (inv.opened_next opened).1
      have inOrder : seqcmp segment.seq run.rcv.tcb.rnext ≤ 0 := by omega
      have newData : 0 < keptCount run.rcv.tcb run.rcv.next segment position →
          0 < seqcmp segment.after run.rcv.tcb.rnext := by
        intro some
        rw [after_distance (inv.close sent), place]
        omega
      have within : run.rcv.edge + keptCount run.rcv.tcb run.rcv.next segment position ≤
          finish := by
        have edge_le := inv.edge_le
        by_cases some : 0 < keptCount run.rcv.tcb run.rcv.next segment position
        · have fits := sent.within (List.ne_nil_of_length_pos (by omega))
          omega
        · omega
      have joinedAfter : Joined run.rcv.tcb
          (keptCount run.rcv.tcb run.rcv.next segment position)
          (keptCode run.rcv.tcb run.rcv.next segment position).fin
          (arrivalStep run (.segment segment position newqOk)).rcv.tcb := joined
      apply inv.join opened joinedAfter rfl reassembly (by omega)
      · apply inv.reassembly.joined_rest
        intro some
        exact (clear taken inOrder (newData some)).1
      · exact within
      · intro octet low high
        refine ⟨(position, segment), List.mem_cons_self, ?_, ?_⟩
        · show position ≤ octet
          omega
        · show octet < position + segment.data.length
          omega
      · exact fun arrival member => List.mem_cons_of_mem _ member
      · intro kept
        rcases kept_fin_uncut kept with ⟨fin, uncut⟩
        have last := sent.fin_last fin
        exact ⟨by omega, (position, segment), List.mem_cons_self, fin, last⟩
      · show (run.finKept || run.rcv.tcb.keepsFin segment) = _
        rw [keeps]
      · intro some unkept kept
        have nonzero := (clear taken inOrder (newData some)).2 unkept (keeps.trans kept)
        have ends : run.rcv.tcb.keptEnd segment = seqAt run.rcv.tcb.rnext
            (keptCount run.rcv.tcb run.rcv.next segment position) := by
          rw [kept_end_eq lies reaches starts, inv.rnext_eq, keptFirst, max_eq_left reached,
            Nat.cast_add]
          exact (seq_at_add isn _ _).symm
        rw [ends] at nonzero
        exact nonzero

theorem arrival_segment (inv : ArrivalInv isn finish run)
    (sent : Sent isn finish run.rcv segment position)
    (clear : run.rcv.tcb.ArrivalClear run.finKept segment) :
    ArrivalInv isn finish (arrivalStep run (.segment segment position newqOk)) := by
  cases taken : run.rcv.tcb.takes segment with
  | false => exact arrival_refused inv taken
  | true =>
      have reassembly := (segment_reassembly inv.reassembly (inv.close sent)
        (inv.queueClear sent clear) newqOk).1
      rcases segment_received (inv.lies sent) inv.reassembly.keyed inv.reassembly.near taken
        newqOk with ⟨reached, joined⟩ | ⟨beyond, postponed⟩
      · exact arrival_joined inv sent clear reassembly taken reached joined
      · exact arrival_postponed inv sent reassembly taken beyond postponed

theorem arrival_read (inv : ArrivalInv isn finish run) (len : Word) :
    ArrivalInv isn finish (arrivalStep run (.getdata len)) := by
  rcases tcpgetdata_read run.rcv.tcb len inv.reassembly.start_lt with ⟨bounded, read⟩
  have reassembly := inv.reassembly.read read
  have left := taken_count run.rcv.tcb (tcpgetdata run.rcv.tcb len).1.length
  rcases read.kept with ⟨rnext, rdone, frags, finseq, rbcount⟩
  have edge : (arrivalStep run (.getdata len)).rcv.edge = run.rcv.edge := by
    show (run.rcv.out ++ (tcpgetdata run.rcv.tcb len).1).length +
      (tcpgetdata run.rcv.tcb len).2.1.rbcount.toNat = _
    rw [rbcount, left, List.length_append, RcvState.edge]
    omega
  apply inv.still reassembly edge
  · exact rnext
  · exact rdone
  · intro frag member
    left
    rw [← frags]
    exact member
  · intro arrival member
    exact member
  · left
    constructor
    · rfl
    · exact finseq

end Events

section Run

variable {isn : Tcpseq} {finish : Nat}

theorem arrival_step (run : Arrivals) (event : ArrivalEvent) (inv : ArrivalInv isn finish run)
    (permitted : ArrivalAllowed isn finish run event ∧ ArrivalClear run event) :
    ArrivalInv isn finish (arrivalStep run event) := by
  cases event with
  | segment segment position newqOk => exact arrival_segment inv permitted.1 permitted.2
  | getdata len => exact arrival_read inv len

theorem arrival_start {tcb : Tcb} (start : RcvStart isn tcb) :
    ArrivalInv isn finish { rcv := ⟨tcb, []⟩ } := by
  have count : tcb.rbcount.toNat = 0 := by
    rw [start.count_eq]
    rfl
  have edge : RcvState.edge ⟨tcb, []⟩ = 0 := by
    rw [RcvState.edge, count]
    rfl
  have next : RcvState.next ⟨tcb, []⟩ = 0 := by
    rw [RcvState.next, edge, start.not_done]
    rfl
  have begun : QueueStart tcb :=
    ⟨start.synchronised, start.size_le, start.start_lt, by omega, start.queue_eq⟩
  constructor
  · exact begun.inv
  · rw [next]
    exact start.rnext_eq.trans (seq_at_zero isn).symm
  · rw [edge]
    exact Nat.zero_le finish
  · intro octet before
    rw [edge] at before
    exact absurd before (Nat.not_lt_zero octet)
  · intro frag member
    change frag ∈ tcb.frags at member
    rw [frags_of_none start.queue_eq] at member
    exact absurd member List.not_mem_nil
  · exact fun _ => ⟨start.finseq_eq, start.not_done⟩
  · intro kept
    cases kept
  · intro done
    change tcb.flags.rdone = true at done
    rw [start.not_done] at done
    cases done
  · intro kept
    cases kept

end Run

instance (tcb : Tcb) (finKept : Bool) (segment : Segment) :
    Decidable (tcb.ArrivalClear finKept segment) :=
  inferInstanceAs (Decidable (tcb.takes segment = true → seqcmp segment.seq tcb.rnext ≤ 0 →
    0 < seqcmp segment.after tcb.rnext →
      tcb.OneSided ∧ (finKept = false → tcb.keepsFin segment = false →
        tcb.keptEnd segment ≠ 0 ∧ ∀ frag ∈ tcb.frags, frag.seq + frag.len ≠ 0)))

instance (run : Arrivals) (event : ArrivalEvent) : Decidable (ArrivalClear run event) :=
  match event with
  | .segment segment _ _ =>
      inferInstanceAs (Decidable (run.rcv.tcb.ArrivalClear run.finKept segment))
  | .getdata _ => .isTrue trivial

/-- The second half of a stream of four octets, with the FIN, arrives before the first half. -/
def earlyFin : List ArrivalEvent :=
  [.segment { seq := 102, code := { fin := true }, tcpData := [3, 4] } 2 true,
    .segment { seq := 100, tcpData := [1, 2] } 0 true]

/-- Three octets that end at sequence number 0. -/
def wrappingData : ArrivalEvent := .segment { seq := 0xfffffffd, tcpData := [1, 2, 3] } 0 true

end MvsXinu.Tcp
