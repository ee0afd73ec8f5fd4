import MvsXinu.Tcp.ReceiveStream

/-!
# The advertised window

`tcb_cwin` is the right edge that was advertised. Inbound segments of any content move
`rnext`, the reader frees buffer space, and `tcprwindow` is called by `tcpsend`,
`tcpackit` and `tcpgetdata`; every call is recorded together with the control block it
leaves. The edge does not move back and the buffer covers what was advertised.
-/

namespace MvsXinu.Tcp

open MvsXinu.SeqSpace

set_option autoImplicit false

inductive WinEvent where
  | segment (segment : Segment) (newqOk : Bool)
  | getdata (len : Word)
  | rwindow

/-- The control block and the calls of `tcprwindow` so far. -/
structure WinState where
  tcb : Tcb
  calls : List (Int × Tcb)

def winStep (state : WinState) : WinEvent → WinState
  | .segment segment newqOk => { state with tcb := rcvSegment state.tcb segment newqOk }
  | .getdata len =>
      { tcb := (tcpgetdata state.tcb len).2.1
        calls :=
          let copied := (tcpgetcopy state.tcb len).2
          if seqcmp copied.cwin copied.rnext ≤ 0 then state.calls ++ [tcprwindow copied]
          else state.calls }
  | .rwindow =>
      { tcb := (tcprwindow state.tcb).2
        calls := state.calls ++ [tcprwindow state.tcb] }

/-- Segments are well formed, with sequence numbers within `2 ^ 30` of `rnext`. -/
def WinAllowed (state : WinState) : WinEvent → Prop
  | .segment segment _ =>
      segment.WellFormed ∧ -2 ^ 30 ≤ seqcmp segment.seq state.tcb.rnext ∧
        seqcmp segment.seq state.tcb.rnext + segment.data.length ≤ 2 ^ 30
  | .getdata _ => True
  | .rwindow => True

/-- A FIN is taken once, and no fragment stays queued until the numbers come round. -/
def WinClear (state : WinState) : WinEvent → Prop
  | .segment segment _ =>
      ((tcpok state.tcb segment).1 = true → segment.code.fin = true →
        state.tcb.flags.rdone = false) ∧
        ∀ frag ∈ state.tcb.frags, -2 ^ 30 < seqcmp frag.seq state.tcb.rnext
  | .getdata _ => True
  | .rwindow => True

/-- A connection that has just been synchronised, with the edge set by `tcpwinit`. -/
structure WinStart (tcb : Tcb) : Prop where
  synchronised : TcpState.established.number ≤ tcb.state.number
  size_le : tcb.rbsize.toNat ≤ 65535
  start_lt : tcb.rbstart.toNat < tcb.rbsize.toNat
  count_le : tcb.rbcount.toNat ≤ tcb.rbsize.toNat
  queue_eq : tcb.rsegq = none
  edge_low : -65536 ≤ seqcmp tcb.cwin tcb.rnext
  edge_high : seqcmp tcb.cwin tcb.rnext ≤ (tcb.rbsize.toNat : Int) - tcb.rbcount.toNat

/-- Every call returned the distance to the edge it left, and the buffer has room up to
the edge. -/
def Backed (state : WinState) : Prop :=
  (∀ call ∈ state.calls, 0 ≤ call.1 ∧ call.1 = seqcmp call.2.cwin call.2.rnext) ∧
    seqcmp state.tcb.cwin state.tcb.rnext ≤
      (state.tcb.rbsize.toNat : Int) - state.tcb.rbcount.toNat

/-- A fragment between `floor` and `limit`, as distances from `base`. -/
def Fits (base : Tcpseq) (floor limit : Int) (frag : Tcpfrag) : Prop :=
  ∃ distance : Int, frag.seq = seqAt base distance ∧ floor < distance ∧
    frag.len.toNat ≤ 65535 ∧ distance + frag.len.toNat ≤ limit

theorem Fits.shift {base : Tcpseq} {floor limit : Int} {frag : Tcpfrag}
    (fits : Fits base floor limit frag) (step : Int) :
    Fits (seqAt base step) (floor - step) (limit - step) frag := by
  obtain ⟨distance, seq, low, len, high⟩ := fits
  refine ⟨distance - step, ?_, by omega, len, by omega⟩
  rw [seq, seqAt, seqAt, seqAt, BitVec.add_assoc, ← BitVec.ofInt_add]
  congr 2
  omega

/-- What `tcpdata` does to the fields that the window depends on: `count` octets are
counted in, and `fin` is 1 when a FIN is taken. -/
structure Moved (before after : Tcb) (count fin : Nat) : Prop where
  state : after.state = before.state
  size : after.rbsize = before.rbsize
  start : after.rbstart = before.rbstart
  cwin : after.cwin = before.cwin
  rnext : after.rnext = before.rnext + BitVec.ofNat 32 (count + fin)
  count : after.rbcount = before.rbcount + BitVec.ofNat 32 count
  rdone : after.flags.rdone = (before.flags.rdone || decide (fin = 1))

theorem Moved.refl (tcb : Tcb) : Moved tcb tcb 0 0 := by
  constructor <;> simp

theorem Moved.trans {first second third : Tcb} {count more fin : Nat}
    (moved : Moved first second count 0) (further : Moved second third more fin) :
    Moved first third (count + more) fin where
  state := further.state.trans moved.state
  size := further.size.trans moved.size
  start := further.start.trans moved.start
  cwin := further.cwin.trans moved.cwin
  rnext := by
    rw [further.rnext, moved.rnext, BitVec.add_assoc, ← BitVec.ofNat_add]
    congr 2
    omega
  count := by rw [further.count, moved.count, BitVec.add_assoc, ← BitVec.ofNat_add]
  rdone := by
    rw [further.rdone, moved.rdone]
    simp

theorem advance_moved (tcb : Tcb) (count : Nat) :
    Moved tcb (tcb.advance (BitVec.ofNat 32 count)) count 0 := by
  constructor <;> simp [Tcb.advance]

theorem push_moved (tcb : Tcb) (code : Code) : Moved tcb (tfpush tcb code).1 0 0 := by
  rw [(tfpush_fields tcb code).1]
  constructor <;> simp

section Loop

variable {base : Tcpseq} {limit : Nat}

theorem tfjoin_moved (tcb : Tcb) (frag : Tcpfrag) (moved : Nat)
    (rnext : tcb.rnext = seqAt base moved) (inside : moved ≤ limit) (short : limit ≤ 65535)
    (fits : Fits base (-2 ^ 30) limit frag) :
    ∃ count, moved + count ≤ limit ∧ Moved tcb (tfjoin tcb frag) count 0 := by
  obtain ⟨distance, seq, low, len, high⟩ := fits
  have newcount : frag.newcount tcb.rnext = distance + frag.len.toNat - moved := by
    have length : frag.len = BitVec.ofInt 32 (frag.len.toNat : Int) := by simp
    rw [Tcpfrag.newcount, rnext, seq, seq_at_sub]
    conv_lhs => rw [length]
    rw [BitVec.sub_eq_add_neg, ← BitVec.ofInt_neg, ← BitVec.ofInt_add,
      to_int_of_range _ (by omega) (by omega)]
    omega
  rw [tfjoin]
  by_cases positive : 0 < frag.newcount tcb.rnext
  · rw [if_pos positive]
    obtain ⟨count, count_eq⟩ := Int.eq_ofNat_of_zero_le (Int.le_of_lt positive)
    refine ⟨count, by omega, ?_⟩
    rw [count_eq, BitVec.ofInt_natCast]
    exact advance_moved tcb count
  · rw [if_neg positive]
    exact ⟨0, by omega, Moved.refl tcb⟩

/-- The fragments that are left in the queue are among those that were there. -/
theorem tfloop_moved (qMax : Nat) (items : List (Int × Tcpfrag)) (tcb : Tcb) (code : Code)
    (moved : Nat) (rnext : tcb.rnext = seqAt base moved) (inside : moved ≤ limit)
    (short : limit ≤ 65535) (fits : ∀ item ∈ items, Fits base (-2 ^ 30) limit item.2) :
    ∃ count, moved + count ≤ limit ∧ Moved tcb (tfloop qMax items tcb code).1 count 0 ∧
      ∀ frag ∈ (tfloop qMax items tcb code).1.frags, Fits base (-2 ^ 30) limit frag := by
  induction items generalizing tcb code moved with
  | nil =>
      refine ⟨0, by omega, ?_, ?_⟩
      · constructor <;> simp [tfloop]
      · simp [tfloop, Tcb.frags]
  | cons item rest ih =>
      have itemFits : Fits base (-2 ^ 30) limit item.2 := fits item (by simp)
      have restFits : ∀ other ∈ rest, Fits base (-2 ^ 30) limit other.2 := by
        intro other member
        exact fits other (by simp [member])
      rw [tfloop]
      by_cases beyond : 0 < seqcmp item.2.seq tcb.rnext
      · rw [if_pos beyond]
        have restQueued : ∀ frag ∈ Gpq.elements ({ qMax := qMax, items := rest } : Gpq.Queue Tcpfrag),
            Fits base (-2 ^ 30) limit frag := by
          intro frag member
          simp only [Gpq.elements, List.mem_map] at member
          obtain ⟨other, present, rfl⟩ := member
          exact restFits other present
        refine ⟨0, by omega, ?_⟩
        cases inserted : Gpq.enq ({ qMax := qMax, items := rest } : Gpq.Queue Tcpfrag) item.2
            (-item.2.seq).toInt with
        | none =>
            refine ⟨?_, restQueued⟩
            constructor <;> simp
        | some answer =>
            obtain ⟨left, longer⟩ := answer
            refine ⟨?_, ?_⟩
            · constructor <;> simp
            · intro frag member
              rcases (Gpq.enq_elements _ _ _ _ _ inserted frag).mp member with rfl | old
              · exact itemFits
              · exact restQueued frag old
      · rw [if_neg beyond]
        obtain ⟨count, within, joined⟩ := tfjoin_moved tcb item.2 moved rnext inside short itemFits
        simp only
        split
        · refine ⟨count, within, ?_, ?_⟩
          · exact ⟨joined.state, joined.size, joined.start, joined.cwin, joined.rnext,
              joined.count, joined.rdone⟩
          · simp [tfalldone, Tcb.frags]
        · have pushed := joined.trans (push_moved (tfjoin tcb item.2) code)
          have next : (tfpush (tfjoin tcb item.2) code).1.rnext =
              seqAt base (moved + count : Nat) := by
            rw [pushed.rnext, rnext, seq_at_add_nat, Nat.cast_add]
            rfl
          obtain ⟨more, further, rest_moved, known⟩ := ih _ (tfpush (tfjoin tcb item.2) code).2
            (moved + count) next within restFits
          exact ⟨count + more, by omega, pushed.trans rest_moved, known⟩

theorem tfcoalesce_moved (tcb : Tcb) (code : Code) (count : Nat) (rnext : tcb.rnext = base)
    (inside : count ≤ limit) (short : limit ≤ 65535)
    (fits : ∀ frag ∈ tcb.frags, Fits base (-2 ^ 30) limit frag) :
    ∃ total, count ≤ total ∧ total ≤ limit ∧
      Moved tcb (tfcoalesce tcb (BitVec.ofNat 32 count) code).1 total 0 ∧
      ∀ frag ∈ (tfcoalesce tcb (BitVec.ofNat 32 count) code).1.frags,
        Fits base (-2 ^ 30) limit frag := by
  have advanced := advance_moved tcb count
  have pushed := advanced.trans (push_moved (tcb.advance (BitVec.ofNat 32 count)) code)
  have queue_eq : (tfpush (tcb.advance (BitVec.ofNat 32 count)) code).1.rsegq = tcb.rsegq := by
    rw [(tfpush_fields (tcb.advance (BitVec.ofNat 32 count)) code).1]
    rfl
  have same : ∀ frag ∈ (tfpush (tcb.advance (BitVec.ofNat 32 count)) code).1.frags,
      Fits base (-2 ^ 30) limit frag := by
    simpa only [Tcb.frags, queue_eq] using fits
  have next : (tfpush (tcb.advance (BitVec.ofNat 32 count)) code).1.rnext = seqAt base count := by
    rw [pushed.rnext, rnext, seqAt, BitVec.ofInt_natCast]
    rfl
  rw [tfcoalesce]
  split
  · refine ⟨count, le_rfl, inside, ?_, ?_⟩
    · exact ⟨advanced.state, advanced.size, advanced.start, advanced.cwin, advanced.rnext,
        advanced.count, advanced.rdone⟩
    · simp [tfalldone, Tcb.frags]
  · cases shape : tcb.rsegq with
    | none =>
        simp only [queue_eq, shape]
        exact ⟨count, le_rfl, inside, pushed, same⟩
    | some queue =>
        cases items : queue.items with
        | nil =>
            simp only [queue_eq, shape, items]
            exact ⟨count, le_rfl, inside, pushed, same⟩
        | cons item rest =>
            simp only [queue_eq, shape, items]
            obtain ⟨more, further, rest_moved, known⟩ := tfloop_moved queue.qMax (item :: rest) _
              (tfpush (tcb.advance (BitVec.ofNat 32 count)) code).2 count next inside short (by
                intro other member
                apply fits
                simp only [Tcb.frags, shape, Gpq.elements, items]
                exact List.mem_map_of_mem (f := Prod.snd) member)
            exact ⟨count + more, by omega, further, pushed.trans rest_moved, known⟩

end Loop

theorem controls_moved {before tcb : Tcb} {code : Code} {count : Nat}
    (moved : Moved before tcb count 0) :
    Moved before (tcpcontrols tcb code) count (if code.fin then 1 else 0) := by
  have taken : Moved before (if code.fin then
      { tcb with
        flags := { tcb.flags with rdone := true, needout := true }
        rnext := tcb.rnext + 1 }
      else tcb) count (if code.fin then 1 else 0) := by
    split
    · refine ⟨moved.state, moved.size, moved.start, moved.cwin, ?_, moved.count, ?_⟩
      · rw [moved.rnext, Nat.add_zero, BitVec.ofNat_add, ← BitVec.add_assoc]
        rfl
      · simp
    · exact moved
  rw [tcpcontrols]
  split
  · exact ⟨taken.state, taken.size, taken.start, taken.cwin, taken.rnext, taken.count,
      taken.rdone⟩
  · exact taken

theorem controls_frags (tcb : Tcb) (code : Code) : (tcpcontrols tcb code).frags = tcb.frags := by
  rw [tcpcontrols]
  split_ifs <;> rfl

theorem tfinsert_moved (tcb : Tcb) (seq : Tcpseq) (datalen : Word) (newqOk : Bool) :
    Moved tcb (tfinsert tcb seq datalen newqOk) 0 0 ∧
      ∀ frag ∈ (tfinsert tcb seq datalen newqOk).frags,
        frag ∈ tcb.frags ∨ datalen ≠ 0 ∧ frag = ⟨seq, datalen⟩ := by
  have queued : ∀ queue : Gpq.Queue Tcpfrag, Moved tcb { tcb with rsegq := some queue } 0 0 := by
    intro queue
    constructor <;> simp
  rcases tfinsert_cases tcb seq datalen newqOk with
    same | ⟨queue, after, source, inserts, entered⟩
  · rw [same]
    exact ⟨Moved.refl tcb, fun frag member => Or.inl member⟩
  · rw [inserts]
    refine ⟨queued after, ?_⟩
    intro frag member
    rw [← elements_before source]
    rcases entered with rfl | ⟨nonempty, left, accepted⟩
    · exact Or.inl member
    · rcases (Gpq.enq_elements _ _ _ _ _ accepted frag).mp member with rfl | old
      · exact Or.inr ⟨nonempty, rfl⟩
      · exact Or.inl old

theorem tcpdodat_moved (tcb : Tcb) (seq first : Tcpseq) (code : Code) (count limit : Nat)
    (inside : tcb.rnext = first → count ≤ limit) (short : limit ≤ 65535) (small : count ≤ 65535)
    (frags : ∀ frag ∈ tcb.frags, Fits tcb.rnext (-2 ^ 30) limit frag)
    (fresh : count ≠ 0 → Fits tcb.rnext (-2 ^ 30) limit ⟨first, BitVec.ofNat 32 count⟩)
    (newqOk : Bool) :
    ∃ total fin, total ≤ limit ∧ fin ≤ 1 ∧ (total = 0 → fin = 1 → code.fin = true) ∧
      Moved tcb (tcpdodat tcb seq code first (BitVec.ofNat 32 count) newqOk) total fin ∧
      ∀ frag ∈ (tcpdodat tcb seq code first (BitVec.ofNat 32 count) newqOk).frags,
        Fits tcb.rnext (-2 ^ 30) limit frag := by
  have length : (BitVec.ofNat 32 count).toNat = count := by
    rw [BitVec.toNat_ofNat, Nat.mod_eq_of_lt (by omega)]
  have finBound : ∀ code : Code, (if code.fin then 1 else 0) ≤ 1 := by
    intro code
    split <;> omega
  rw [tcpdodat]
  split
  · rename_i met
    rw [length]
    split
    · rename_i positive
      obtain ⟨total, low, high, moved, known⟩ := tfcoalesce_moved tcb code count rfl
        (inside met) short frags
      refine ⟨total, _, high, finBound _, by omega, controls_moved ?_, ?_⟩
      · exact ⟨moved.state, moved.size, moved.start, moved.cwin, moved.rnext, moved.count,
          moved.rdone⟩
      · rw [controls_frags]
        exact known
    · refine ⟨0, _, by omega, finBound code, ?_, controls_moved (Moved.refl tcb), ?_⟩
      · intro _ set
        by_contra unset
        rw [if_neg unset] at set
        cases set
      · rw [controls_frags]
        exact frags
  · refine ⟨0, 0, by omega, by omega, by omega, ?_⟩
    have delayed : ∀ other : Tcb, Moved tcb other 0 0 → other.frags = tcb.frags →
        Moved tcb (tfinsert other first (BitVec.ofNat 32 count) newqOk) 0 0 ∧
        ∀ frag ∈ (tfinsert other first (BitVec.ofNat 32 count) newqOk).frags,
          Fits tcb.rnext (-2 ^ 30) limit frag := by
      intro other moved same
      obtain ⟨inserted, known⟩ := tfinsert_moved other first (BitVec.ofNat 32 count) newqOk
      refine ⟨moved.trans inserted, ?_⟩
      intro frag member
      rcases known frag member with old | ⟨some, rfl⟩
      · exact frags frag (same ▸ old)
      · apply fresh
        rintro rfl
        exact some rfl
    apply delayed
    · split_ifs <;> constructor <;> simp
    · split_ifs <;> rfl

/-- `rnext` can run ahead of the edge by the octets it counted in since the reader last
looked, twice because each may come with a FIN of its own, and by the one FIN without
octets. -/
structure WinInv (tcb : Tcb) : Prop where
  synchronised : TcpState.established.number ≤ tcb.state.number
  size_le : tcb.rbsize.toNat ≤ 65535
  start_lt : tcb.rbstart.toNat < tcb.rbsize.toNat
  count_le : tcb.rbcount.toNat ≤ tcb.rbsize.toNat
  edge_low : -(65536 + 2 * tcb.rbcount.toNat + (if tcb.flags.rdone then 1 else 0)) ≤
    seqcmp tcb.cwin tcb.rnext
  edge_high : seqcmp tcb.cwin tcb.rnext ≤ (tcb.rbsize.toNat : Int) - tcb.rbcount.toNat
  frags : ∀ frag ∈ tcb.frags,
    Fits tcb.rnext (-2 ^ 30 - 65537) ((tcb.rbsize.toNat : Int) - tcb.rbcount.toNat) frag

theorem rdone_bound (tcb : Tcb) : 0 ≤ (if tcb.flags.rdone then 1 else 0 : Int) ∧
    (if tcb.flags.rdone then 1 else 0 : Int) ≤ 1 := by
  split <;> omega

/-- The edge is where it was, `rnext` and `rbcount` have moved towards it. -/
theorem WinInv.moved {before after : Tcb} {count fin : Nat} (inv : WinInv before)
    (moved : Moved before after count fin)
    (room : before.rbcount.toNat + count ≤ before.rbsize.toNat) (single : fin ≤ 1)
    (once : count = 0 → fin = 1 → before.flags.rdone = false)
    (frags : ∀ frag ∈ after.frags, Fits before.rnext (-2 ^ 30)
      ((before.rbsize.toNat : Int) - before.rbcount.toNat) frag) :
    WinInv after := by
  have size_le := inv.size_le
  have low := inv.edge_low
  have high := inv.edge_high
  have done := rdone_bound before
  have small : (BitVec.ofNat 32 count).toNat = count := by
    rw [BitVec.toNat_ofNat, Nat.mod_eq_of_lt (by omega)]
  have count_eq : after.rbcount.toNat = before.rbcount.toNat + count := by
    rw [moved.count, word_add_to_nat _ _ (by omega), small]
  have rnext_eq : after.rnext = seqAt before.rnext (count + fin : Nat) := by
    rw [moved.rnext, seqAt, BitVec.ofInt_natCast]
  have edge : seqcmp after.cwin after.rnext = seqcmp before.cwin before.rnext - (count + fin : Nat) := by
    have place : after.cwin = seqAt before.rnext (seqcmp before.cwin before.rnext) := by
      rw [moved.cwin]
      exact (seq_at_signed_dist _ _).symm
    rw [seqcmp, place, rnext_eq, signed_dist_seq_at _ _ _ (by omega) (by omega)]
  constructor
  · rw [moved.state]
    exact inv.synchronised
  · rw [moved.size]
    exact size_le
  · rw [moved.size, moved.start]
    exact inv.start_lt
  · rw [moved.size]
    omega
  · rw [edge, count_eq, moved.rdone]
    by_cases empty : count = 0
    · by_cases taken : fin = 1
      · rw [once empty taken] at low
        simp only [taken, decide_true, Bool.or_true, if_true]
        simp only [Bool.false_eq_true, if_false] at low
        omega
      · simp only [taken, decide_false, Bool.or_false]
        omega
    · have later : (if before.flags.rdone then 1 else 0 : Int) ≤
          if (before.flags.rdone || decide (fin = 1)) = true then 1 else 0 := by
        cases before.flags.rdone
        · simp only [Bool.false_eq_true, if_false, Bool.false_or]
          split <;> omega
        · simp
      omega
  · rw [edge, moved.size]
    omega
  · intro frag member
    obtain ⟨distance, seq, floor, len, limit⟩ := (frags frag member).shift (count + fin : Nat)
    rw [rnext_eq, moved.size, count_eq]
    exact ⟨distance, seq, by omega, len, by omega⟩

theorem winseg_frags {tcb : Tcb} (inv : WinInv tcb)
    (recent : ∀ frag ∈ tcb.frags, -2 ^ 30 < seqcmp frag.seq tcb.rnext) :
    ∀ frag ∈ tcb.frags, Fits tcb.rnext (-2 ^ 30)
      ((tcb.rbsize.toNat : Int) - tcb.rbcount.toNat) frag := by
  intro frag member
  obtain ⟨distance, seq, floor, len, limit⟩ := inv.frags frag member
  have size_le := inv.size_le
  have near := recent frag member
  have place : seqcmp frag.seq tcb.rnext = distance := by
    have distance_eq := signed_dist_seq_at tcb.rnext distance 0 (by omega) (by omega)
    rw [seq_at_zero] at distance_eq
    rw [seqcmp, seq, distance_eq]
    omega
  exact ⟨distance, seq, by omega, len, limit⟩

/-- Positions are counted from `2 ^ 31` before `rnext`. -/
theorem near_lies {tcb : Tcb} {segment : Segment}
    (synchronised : TcpState.established.number ≤ tcb.state.number)
    (size_le : tcb.rbsize.toNat ≤ 65535) (start_lt : tcb.rbstart.toNat < tcb.rbsize.toNat)
    (count_le : tcb.rbcount.toNat ≤ tcb.rbsize.toNat)
    (wellFormed : segment.WellFormed) (low : -2 ^ 30 ≤ seqcmp segment.seq tcb.rnext)
    (high : seqcmp segment.seq tcb.rnext + segment.data.length ≤ 2 ^ 30) :
    Lies (seqAt tcb.rnext (-2 ^ 31)) tcb (2 ^ 31) segment
      (2 ^ 31 + seqcmp segment.seq tcb.rnext).toNat := by
  have shifted : ∀ distance : Int, seqAt (seqAt tcb.rnext (-2 ^ 31)) distance =
      seqAt tcb.rnext (distance - 2 ^ 31) := by
    intro distance
    rw [seqAt, seq_at_add]
    congr 1
    omega
  refine ⟨synchronised, size_le, start_lt, count_le, ?_, wellFormed, ?_, ?_, ?_⟩
  · rw [shifted]
    simp
  · rw [shifted]
    have place : (((2 ^ 31 + seqcmp segment.seq tcb.rnext).toNat : Nat) : Int) - 2 ^ 31 =
        seqcmp segment.seq tcb.rnext := by omega
    rw [place]
    exact (seq_at_signed_dist _ _).symm
  · omega
  · omega

theorem winseg_lies {tcb : Tcb} {segment : Segment} (inv : WinInv tcb)
    (wellFormed : segment.WellFormed) (low : -2 ^ 30 ≤ seqcmp segment.seq tcb.rnext)
    (high : seqcmp segment.seq tcb.rnext + segment.data.length ≤ 2 ^ 30) :
    Lies (seqAt tcb.rnext (-2 ^ 31)) tcb (2 ^ 31) segment
      (2 ^ 31 + seqcmp segment.seq tcb.rnext).toNat :=
  near_lies inv.synchronised inv.size_le inv.start_lt inv.count_le wellFormed low high

theorem tcpurg_fields (tcb : Tcb) (segment : Segment) :
    Moved tcb (tcpurg tcb segment) 0 0 ∧ (tcpurg tcb segment).frags = tcb.frags := by
  simp only [tcpurg]
  split_ifs
  · refine ⟨?_, rfl⟩
    constructor <;> simp
  · exact ⟨Moved.refl tcb, rfl⟩
  · exact ⟨Moved.refl tcb, rfl⟩

theorem WinInv.frame {before after : Tcb} (inv : WinInv before) (moved : Moved before after 0 0)
    (frags : after.frags = before.frags) : WinInv after := by
  have count : after.rbcount = before.rbcount := by simpa using moved.count
  have rnext : after.rnext = before.rnext := by simpa using moved.rnext
  have rdone : after.flags.rdone = before.flags.rdone := by simpa using moved.rdone
  constructor
  · simpa only [moved.state] using inv.synchronised
  · simpa only [moved.size] using inv.size_le
  · simpa only [moved.size, moved.start] using inv.start_lt
  · simpa only [moved.size, count] using inv.count_le
  · simpa only [moved.cwin, rnext, count, rdone] using inv.edge_low
  · simpa only [moved.cwin, rnext, count, moved.size] using inv.edge_high
  · simpa only [frags, rnext, count, moved.size] using inv.frags

theorem tcpsection_invariant {tcb : Tcb} {segment : Segment} {position : Nat} (inv : WinInv tcb)
    (lies : Lies (seqAt tcb.rnext (-2 ^ 31)) tcb (2 ^ 31) segment position)
    (reaches : 2 ^ 31 ≤ position + segment.data.length)
    (starts : position ≤ 2 ^ 31 + (tcb.rbsize.toNat - tcb.rbcount.toNat))
    (once : segment.code.fin = true → tcb.flags.rdone = false)
    (recent : ∀ frag ∈ tcb.frags, -2 ^ 30 < seqcmp frag.seq tcb.rnext) (newqOk : Bool) :
    WinInv (tcpsection tcb segment.bare segment.seq newqOk) ∧
      (tcpsection tcb segment.bare segment.seq newqOk).cwin = tcb.cwin := by
  have size_le := inv.size_le
  have count_le := inv.count_le
  have end_eq := kept_end_position starts reaches
  have first_low : 2 ^ 31 ≤ keptFirst (2 ^ 31) position := le_max_left _ _
  have limit : ((tcb.rbsize.toNat - tcb.rbcount.toNat : Nat) : Int) =
      (tcb.rbsize.toNat : Int) - tcb.rbcount.toNat := by omega
  have frags := winseg_frags inv recent
  rw [← limit] at frags
  have copied : Moved tcb (keptTcb tcb (2 ^ 31) segment position) 0 0 := by
    constructor <;> simp [keptTcb]
  have first : seqAt (seqAt tcb.rnext (-2 ^ 31)) (keptFirst (2 ^ 31) position : Nat) =
      seqAt tcb.rnext ((keptFirst (2 ^ 31) position : Nat) - 2 ^ 31) := by
    rw [seqAt, seq_at_add, Int.sub_eq_add_neg, Int.add_comm]
  have small : (BitVec.ofNat 32 (keptCount tcb (2 ^ 31) segment position)).toNat =
      keptCount tcb (2 ^ 31) segment position := by
    rw [BitVec.toNat_ofNat, Nat.mod_eq_of_lt (by omega)]
  rw [tcpsection_eq lies reaches starts newqOk]
  obtain ⟨total, fin, room, single, own, moved, known⟩ := tcpdodat_moved
    (keptTcb tcb (2 ^ 31) segment position) segment.seq
    (seqAt (seqAt tcb.rnext (-2 ^ 31)) (keptFirst (2 ^ 31) position : Nat))
    (keptCode tcb (2 ^ 31) segment position) (keptCount tcb (2 ^ 31) segment position)
    (tcb.rbsize.toNat - tcb.rbcount.toNat)
    (by omega) (by omega) (by omega) frags (by
      intro some
      refine ⟨(keptFirst (2 ^ 31) position : Nat) - 2 ^ 31, first, by omega, ?_, ?_⟩
      · show (BitVec.ofNat 32 (keptCount tcb (2 ^ 31) segment position)).toNat ≤ 65535
        omega
      · show _ + ((BitVec.ofNat 32 (keptCount tcb (2 ^ 31) segment position)).toNat : Int) ≤ _
        omega) newqOk
  have whole := copied.trans moved
  rw [Nat.zero_add] at whole
  refine ⟨inv.moved whole (by omega) single ?_ ?_, whole.cwin⟩
  · intro empty taken
    apply once
    have kept := own empty taken
    rw [keptCode] at kept
    split at kept
    · cases kept
    · exact kept
  · rw [← limit]
    exact known

theorem segment_invariant {tcb : Tcb} {segment : Segment} (inv : WinInv tcb)
    (wellFormed : segment.WellFormed) (low : -2 ^ 30 ≤ seqcmp segment.seq tcb.rnext)
    (high : seqcmp segment.seq tcb.rnext + segment.data.length ≤ 2 ^ 30)
    (once : (tcpok tcb segment).1 = true → segment.code.fin = true → tcb.flags.rdone = false)
    (recent : ∀ frag ∈ tcb.frags, -2 ^ 30 < seqcmp frag.seq tcb.rnext) (newqOk : Bool) :
    WinInv (rcvSegment tcb segment newqOk) ∧ (rcvSegment tcb segment newqOk).cwin = tcb.cwin := by
  rw [rcvSegment]
  split
  · rename_i taken
    simp only [Bool.and_eq_true, Bool.not_eq_true'] at taken
    obtain ⟨⟨accepted, _⟩, noSyn⟩ := taken
    have lies := winseg_lies inv wellFormed low high
    obtain ⟨same, reaches, starts⟩ := tcpok_range lies noSyn accepted
    obtain ⟨urgent, frags⟩ := tcpurg_fields tcb segment.bare
    have section_eq : tcpdata tcb segment.bare newqOk =
        tcpsection (tcpurg tcb segment.bare) segment.bare segment.seq newqOk := by
      rw [tcpdata, show segment.bare.code = segment.code from rfl, noSyn]
      rfl
    have rnext : (tcpurg tcb segment.bare).rnext = tcb.rnext := by simpa using urgent.rnext
    have count : (tcpurg tcb segment.bare).rbcount = tcb.rbcount := by simpa using urgent.count
    have rdone : (tcpurg tcb segment.bare).flags.rdone = tcb.flags.rdone := by
      simpa using urgent.rdone
    have kept := tcpsection_invariant (inv.frame urgent frags)
      (winseg_lies (inv.frame urgent frags) wellFormed (by rw [rnext]; exact low)
        (by rw [rnext]; exact high))
      (by rw [rnext]; exact reaches) (by rw [rnext, urgent.size, count]; exact starts)
      (by rw [rdone]; exact once accepted) (by rw [rnext, frags]; exact recent) newqOk
    rw [same, section_eq]
    exact ⟨kept.1, kept.2.trans urgent.cwin⟩
  · exact ⟨inv, rfl⟩

/-- The fields that `tcprwindow` reads, with the edge anywhere near. -/
structure WinNear (tcb : Tcb) : Prop where
  synchronised : TcpState.established.number ≤ tcb.state.number
  size_le : tcb.rbsize.toNat ≤ 65535
  start_lt : tcb.rbstart.toNat < tcb.rbsize.toNat
  count_le : tcb.rbcount.toNat ≤ tcb.rbsize.toNat
  edge_low : -2 ^ 20 ≤ seqcmp tcb.cwin tcb.rnext
  edge_high : seqcmp tcb.cwin tcb.rnext ≤ (tcb.rbsize.toNat : Int) - tcb.rbcount.toNat
  frags : ∀ frag ∈ tcb.frags,
    Fits tcb.rnext (-2 ^ 30 - 65537) ((tcb.rbsize.toNat : Int) - tcb.rbcount.toNat) frag

theorem WinInv.near {tcb : Tcb} (inv : WinInv tcb) : WinNear tcb where
  synchronised := inv.synchronised
  size_le := inv.size_le
  start_lt := inv.start_lt
  count_le := inv.count_le
  edge_low := by
    have low := inv.edge_low
    have done := rdone_bound tcb
    have size_le := inv.size_le
    have count_le := inv.count_le
    omega
  edge_high := inv.edge_high
  frags := inv.frags

theorem WinNear.ahead {tcb : Tcb} (near : WinNear tcb) (ahead : 0 ≤ seqcmp tcb.cwin tcb.rnext) :
    WinInv tcb where
  synchronised := near.synchronised
  size_le := near.size_le
  start_lt := near.start_lt
  count_le := near.count_le
  edge_low := by
    have done := rdone_bound tcb
    omega
  edge_high := near.edge_high
  frags := near.frags

/-- A call never returns a negative window and only moves the edge forward. -/
theorem tcprwindow_spec {tcb : Tcb} (near : WinNear tcb) :
    0 ≤ (tcprwindow tcb).1 ∧
      (tcprwindow tcb).1 = seqcmp (tcprwindow tcb).2.cwin (tcprwindow tcb).2.rnext ∧
      0 ≤ seqcmp (tcprwindow tcb).2.cwin tcb.cwin ∧ WinInv (tcprwindow tcb).2 := by
  have low := near.edge_low
  have high := near.edge_high
  have size_le := near.size_le
  have count_le := near.count_le
  have rwindow := rwindow_of_le size_le count_le
  have window : ∃ window : Int, 0 ≤ window ∧ seqcmp tcb.cwin tcb.rnext ≤ window ∧
      window ≤ (tcb.rbsize.toNat : Int) - tcb.rbcount.toNat ∧
      tcprwindow tcb = (window, { tcb with cwin := seqAt tcb.rnext window }) := by
    refine ⟨_, ?_, le_max_right _ _, ?_, by
      rw [tcprwindow, if_neg (not_lt.mpr near.synchronised)]
      rfl⟩
    · apply le_max_of_le_left
      split <;> omega
    · apply max_le
      · split <;> omega
      · exact high
  obtain ⟨window, positive, forward, bounded, shape⟩ := window
  have distance : seqcmp (seqAt tcb.rnext window) tcb.rnext = window := by
    have place := signed_dist_seq_at tcb.rnext window 0 (by omega) (by omega)
    rw [seq_at_zero] at place
    rw [seqcmp, place, Int.sub_zero]
  have edge : tcb.cwin = seqAt tcb.rnext (seqcmp tcb.cwin tcb.rnext) :=
    (seq_at_signed_dist _ _).symm
  rw [shape]
  refine ⟨positive, distance.symm, ?_, WinNear.ahead ?_ (by rw [distance]; exact positive)⟩
  · show 0 ≤ seqcmp (seqAt tcb.rnext window) tcb.cwin
    rw [edge, seqcmp, signed_dist_seq_at _ _ _ (by omega) (by omega)]
    omega
  · exact ⟨near.synchronised, size_le, near.start_lt, count_le, by rw [distance]; omega,
      by rw [distance]; exact bounded, near.frags⟩

theorem tcpgetcopy_near {tcb : Tcb} (inv : WinInv tcb) (len : Word) :
    WinNear (tcpgetcopy tcb len).2 ∧ (tcpgetcopy tcb len).2.cwin = tcb.cwin := by
  have near := inv.near
  have size_pos : 0 < tcb.rbsize.toNat := by
    have start_lt := inv.start_lt
    omega
  obtain ⟨flags, bounded⟩ : ∃ flags, (tcpgeturg tcb len).2 = { tcb with flags := flags } := by
    simp only [tcpgeturg]
    split_ifs
    · exact ⟨_, rfl⟩
    · exact ⟨tcb.flags, rfl⟩
    · exact ⟨tcb.flags, rfl⟩
    · exact ⟨tcb.flags, rfl⟩
  obtain ⟨count, copied⟩ : ∃ count, (tcpgetoctets (tcpgeturg tcb len).1.toNat
      (tcpgeturg tcb len).2).2 = ({ tcb with flags := flags } : Tcb).taken count := by
    rw [bounded, tcpgetoctets_eq _ { tcb with flags := flags } size_pos inv.start_lt]
    exact ⟨_, rfl⟩
  have left := taken_count { tcb with flags := flags } count
  have start := taken_start { tcb with flags := flags } count size_pos
  have taken : WinNear (({ tcb with flags := flags } : Tcb).taken count) := by
    have count_le := near.count_le
    have high := near.edge_high
    refine ⟨near.synchronised, near.size_le, ?_, ?_, near.edge_low, ?_, ?_⟩
    · rw [start]
      exact Nat.mod_lt _ size_pos
    · rw [left]
      exact (Nat.sub_le _ _).trans count_le
    · rw [left]
      show _ ≤ (tcb.rbsize.toNat : Int) - (tcb.rbcount.toNat - count : Nat)
      exact high.trans (by omega)
    · intro frag member
      obtain ⟨distance, seq, floor, length, limit⟩ := near.frags frag member
      refine ⟨distance, seq, floor, length, ?_⟩
      rw [left]
      show _ ≤ (tcb.rbsize.toNat : Int) - (tcb.rbcount.toNat - count : Nat)
      omega
  simp only [tcpgetcopy, copied]
  split
  · exact ⟨⟨taken.synchronised, taken.size_le, taken.start_lt, taken.count_le, taken.edge_low,
      taken.edge_high, taken.frags⟩, rfl⟩
  · exact ⟨taken, rfl⟩

/-- The invariant of a run of the receive window. -/
structure WinRun (state : WinState) : Prop where
  inv : WinInv state.tcb
  calls : ∀ call ∈ state.calls, 0 ≤ call.1 ∧ call.1 = seqcmp call.2.cwin call.2.rnext

theorem win_step (state : WinState) (event : WinEvent) (run : WinRun state)
    (permitted : WinAllowed state event ∧ WinClear state event) :
    WinRun (winStep state event) ∧
      0 ≤ seqcmp (winStep state event).tcb.cwin state.tcb.cwin := by
  have stays : 0 ≤ seqcmp state.tcb.cwin state.tcb.cwin := by simp [seqcmp]
  have called : ∀ tcb, WinNear tcb → ∀ call ∈ state.calls ++ [tcprwindow tcb],
      0 ≤ call.1 ∧ call.1 = seqcmp call.2.cwin call.2.rnext := by
    intro tcb near call member
    rcases List.mem_append.mp member with old | new
    · exact run.calls call old
    · rw [List.mem_singleton.mp new]
      exact ⟨(tcprwindow_spec near).1, (tcprwindow_spec near).2.1⟩
  cases event with
  | segment segment newqOk =>
      obtain ⟨⟨wellFormed, low, high⟩, once, recent⟩ := permitted
      obtain ⟨inv, edge⟩ := segment_invariant run.inv wellFormed low high once recent newqOk
      refine ⟨⟨inv, run.calls⟩, ?_⟩
      rw [winStep, edge]
      exact stays
  | getdata len =>
      obtain ⟨near, edge⟩ := tcpgetcopy_near run.inv len
      have spec := tcprwindow_spec near
      rw [edge] at spec
      rw [winStep, tcpgetdata]
      by_cases behind : seqcmp (tcpgetcopy state.tcb len).2.cwin
          (tcpgetcopy state.tcb len).2.rnext ≤ 0
      · simp only [if_pos behind]
        split
        · refine ⟨⟨spec.2.2.2.frame ?_ rfl, called _ near⟩, spec.2.2.1⟩
          constructor <;> simp
        · exact ⟨⟨spec.2.2.2, called _ near⟩, spec.2.2.1⟩
      · simp only [if_neg behind]
        refine ⟨⟨near.ahead (by omega), run.calls⟩, ?_⟩
        rw [edge]
        exact stays
  | rwindow =>
      have spec := tcprwindow_spec run.inv.near
      exact ⟨⟨spec.2.2.2, called _ run.inv.near⟩, spec.2.2.1⟩

theorem WinStart.inv {tcb : Tcb} (start : WinStart tcb) : WinInv tcb where
  synchronised := start.synchronised
  size_le := start.size_le
  start_lt := start.start_lt
  count_le := start.count_le
  edge_low := by
    have low := start.edge_low
    have done := rdone_bound tcb
    omega
  edge_high := start.edge_high
  frags := by simp [Tcb.frags, start.queue_eq]

/-- In a run whose segments bring no second FIN and overtake no fragment for long, the
edge never moves back, every window returned is the distance to the edge, and the buffer
has room up to it. -/
theorem window_is_backed (tcb : Tcb) (state : WinState) (start : WinStart tcb)
    (reached : Runs.Reach winStep (fun before event => WinAllowed before event ∧ WinClear before event)
      ⟨tcb, []⟩ state) :
    Backed state ∧ ∀ event, WinAllowed state event ∧ WinClear state event →
      0 ≤ seqcmp (winStep state event).tcb.cwin state.tcb.cwin := by
  have run : WinRun state := reached.invariant ⟨start.inv, by simp⟩
    (fun before event held permitted => (win_step before event held permitted).1)
  exact ⟨⟨run.calls, run.inv.edge_high⟩,
    fun event permitted => (win_step state event run permitted).2⟩

/-- Three octets arrive ahead of the edge's last announcement, are read, and a window is
asked for. -/
def readRun : List WinEvent :=
  [.segment { seq := 100, tcpData := [1, 2, 3] } true, .getdata 2, .rwindow]

theorem window_of_read_run : Backed (readRun.foldl winStep ⟨freshRcv, []⟩) :=
  (window_is_backed freshRcv _ (by constructor <;> decide)
    (Runs.reach_of_permitted readRun Runs.Reach.start
      ⟨⟨⟨by decide, by decide, by decide⟩, by decide, by decide⟩, ⟨trivial, trivial⟩,
        ⟨trivial, trivial⟩, trivial⟩)).1

/-- A connection in TIME_WAIT, one FIN taken. -/
def waitingTcb (rnext : Tcpseq) : Tcb where
  state := .timewait
  flags := { rdone := true, needout := true }
  rnext := rnext
  cwin := 100 + 8192
  rmss := 536

/-- `tcptimewait` passes every segment to `tcpdata`, which takes one more FIN. -/
theorem fin_taken_again (rnext : Tcpseq) :
    rcvSegment (waitingTcb rnext) { seq := rnext, code := { fin := true } } true =
      waitingTcb (rnext + 1) := by
  have wlast : rnext + BitVec.ofInt 32 8192 - 1 = seqAt rnext 8191 :=
    seq_at_sub_const rnext 8192 1
  have last : rnext + BitVec.ofInt 32 0 - 1 = seqAt rnext (-1) :=
    seq_at_sub_const rnext 0 1
  have below : seqcmp rnext (seqAt rnext 8191) = -8191 := by
    have distance := signed_dist_seq_at rnext 0 8191 (by omega) (by omega)
    rw [seq_at_zero] at distance
    exact distance
  have before : seqcmp (seqAt rnext (-1)) (seqAt rnext 8191) = -8192 :=
    signed_dist_seq_at rnext (-1) 8191 (by omega) (by omega)
  have here : seqcmp rnext rnext = 0 := signed_dist_self rnext
  have window : (waitingTcb rnext).rwindow = 8192 := by
    show (BitVec.ofNat 32 tcprbs - 0).toInt = 8192
    decide
  have seglen : ({ seq := rnext, code := { fin := true } } : Segment).seglen = 1 := by
    show ({ seq := 0, code := { fin := true } } : Segment).seglen = 1
    decide
  have datalen : ({ seq := rnext, code := { fin := true } } : Segment).bare.datalen = 0 := by
    simp [bare_datalen, Segment.data]
  have accepted : tcpok (waitingTcb rnext) { seq := rnext, code := { fin := true } } =
      (true, { seq := rnext, code := { fin := true } }) := by
    rw [tcpok, window, seglen]
    simp only [show (waitingTcb rnext).rnext = rnext from rfl, wlast, below, here]
    simp [waitingTcb, TcpState.number]
  rw [rcvSegment, accepted]
  show tcpsection (waitingTcb rnext) _ rnext true = _
  simp only [tcpsection, window, datalen, show (waitingTcb rnext).rnext = rnext from rfl, wlast,
    last, before, here]
  simp [tcpdodat, tcpcontrols, waitingTcb, Segment.bare, Ring.store]

theorem fin_flood_reached (count : Nat) :
    Runs.Reach winStep WinAllowed ⟨waitingTcb 101, []⟩
      ⟨waitingTcb (101 + BitVec.ofNat 32 count), []⟩ := by
  induction count with
  | zero => exact Runs.Reach.start
  | succ count ih =>
      have next := Runs.Reach.step (.segment
        { seq := 101 + BitVec.ofNat 32 count, code := { fin := true } } true) ih (by
          have here : seqcmp (101 + BitVec.ofNat 32 count) (101 + BitVec.ofNat 32 count) = 0 :=
            signed_dist_self _
          refine ⟨?_, ?_, ?_⟩
          · show ({ seq := 0, code := { fin := true } } : Segment).WellFormed
            decide
          · show _ ≤ seqcmp (101 + BitVec.ofNat 32 count) (101 + BitVec.ofNat 32 count)
            omega
          · show seqcmp (101 + BitVec.ofNat 32 count) (101 + BitVec.ofNat 32 count) + _ ≤ _
            simp only [here, Segment.data, List.drop_nil, List.length_nil]
            omega)
      rw [winStep, fin_taken_again, BitVec.add_assoc] at next
      rw [BitVec.ofNat_add]
      exact next

/-- After enough FINs the edge seems to lie far ahead again. -/
theorem fin_flood_breaks_window :
    ¬ ∀ (tcb : Tcb) (state : WinState), WinStart tcb →
      Runs.Reach winStep WinAllowed ⟨tcb, []⟩ state →
      Backed state ∧ ∀ event, WinAllowed state event →
        0 ≤ seqcmp (winStep state event).tcb.cwin state.tcb.cwin := by
  intro claimed
  have wrong := (claimed _ _ (by constructor <;> decide)
    (fin_flood_reached (2 ^ 31 + 8192))).1.2
  revert wrong
  decide

end MvsXinu.Tcp
