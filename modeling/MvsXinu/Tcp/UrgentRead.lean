import MvsXinu.Tcp.ReceiveStream

/-!
# Reads and the urgent boundary

`tcpgetdata` replaces the length it was asked for by the count of urgent octets that it takes to
be buffered. That count is computed from `rnext`: it is negative for an urgent position before
the octets buffered, and short for one among them after a FIN. The octets that were returned say
which octet is the next.
-/

namespace MvsXinu.Tcp

open MvsXinu.SeqSpace

set_option autoImplicit false

/-- Sequence number of the first octet buffered. -/
def RcvState.first (isn : Tcpseq) (state : RcvState) : Tcpseq :=
  isn + BitVec.ofNat 32 state.out.length

/-- Place of the last urgent octet, counted from the first octet buffered. -/
def RcvState.boundary (isn : Tcpseq) (state : RcvState) : Nat :=
  (state.tcb.rupseq - state.first isn).toNat

/-- The FINs that `rnext` counts. -/
def RcvState.fins (isn : Tcpseq) (state : RcvState) : Word :=
  state.tcb.rnext - state.tcb.rbcount - state.first isn

/-- What a read of `len` octets should return, in number. -/
structure ReadBounded (isn : Tcpseq) (state : RcvState) (len : Word) : Prop where
  bounded : (tcpgetdata state.tcb len).1.length ≤ min len.toNat state.tcb.rbcount.toNat
  urgent : state.tcb.flags.rupok = true →
    state.boundary isn < state.tcb.rbcount.toNat →
    (tcpgetdata state.tcb len).1.length = min len.toNat (state.boundary isn + 1)

/-- The count of urgent octets, and of the octets behind them. -/
def Tcb.nbc (tcb : Tcb) : Int := (tcb.rnext - tcb.rupseq - 1).toInt
def Tcb.ubc (tcb : Tcb) : Word := tcb.rbcount - BitVec.ofInt 32 tcb.nbc

/-- The request is cut to `ubc`. -/
def Tcb.Cuts (tcb : Tcb) (len : Word) : Prop :=
  tcb.flags.rupok = true ∧ 0 ≤ tcb.nbc ∧ tcb.ubc.toInt ≤ len.toInt

/-- A negative count does no harm to a request for all that is buffered; without a FIN the
boundary is found; and a request that is not cut ends at the boundary or before. -/
structure BoundaryKept (isn : Tcpseq) (state : RcvState) (len : Word) : Prop where
  before : state.tcb.Cuts len → state.tcb.ubc.toInt < 0 → state.tcb.rbcount.toNat ≤ len.toNat
  counted : state.tcb.Cuts len → state.boundary isn < state.tcb.rbcount.toNat →
    state.fins isn = 0 ∨
      (len = state.tcb.ubc ∧ len.toNat ≤ state.boundary isn + 1) ∨
      (state.tcb.rbcount.toNat ≤ state.tcb.ubc.toNat ∧
        state.tcb.rbcount.toNat = state.boundary isn + 1)
  uncut : state.tcb.flags.rupok = true → ¬ state.tcb.Cuts len →
    state.boundary isn < state.tcb.rbcount.toNat →
    len.toNat ≤ state.boundary isn + 1 ∨ state.tcb.rbcount.toNat = state.boundary isn + 1

section Copied

variable {isn : Tcpseq} {state : RcvState} {len : Word}

theorem tcpgetoctets_length (len : Nat) (tcb : Tcb) :
    (tcpgetoctets len tcb).1.length = min len tcb.rbcount.toNat := by
  induction len generalizing tcb with
  | zero => simp [tcpgetoctets]
  | succ len ih =>
      rw [tcpgetoctets]
      split
      · rename_i none
        simp [none]
      · rename_i some
        have positive : 1 ≤ tcb.rbcount.toNat :=
          Nat.one_le_iff_ne_zero.mpr (BitVec.toNat_ne_iff_ne.mpr some)
        have left := word_sub_to_nat tcb.rbcount 1 positive
        have one : (1 : Word).toNat = 1 := rfl
        simp only [List.length_cons, ih, left, one]
        omega

theorem tcpgetdata_octets (tcb : Tcb) (len : Word) :
    (tcpgetdata tcb len).1 =
      (tcpgetoctets (tcpgeturg tcb len).1.toNat (tcpgeturg tcb len).2).1 := by
  simp only [tcpgetdata, tcpgetcopy]
  split_ifs <;> rfl

theorem tcpgeturg_count (tcb : Tcb) (len : Word) :
    (tcpgeturg tcb len).2.rbcount = tcb.rbcount := by
  simp only [tcpgeturg]
  split_ifs <;> rfl

theorem copied_cut (cuts : state.tcb.Cuts len) : (tcpgetdata state.tcb len).1.length =
    min state.tcb.ubc.toNat state.tcb.rbcount.toNat := by
  have bound : (tcpgeturg state.tcb len).1 = state.tcb.ubc := by
    rcases cuts with ⟨flag, inBuffer, reached⟩
    simp only [Tcb.nbc, Tcb.ubc] at inBuffer reached
    simp only [tcpgeturg, Tcb.ubc, Tcb.nbc]
    rw [if_pos flag, if_pos inBuffer, if_pos reached]
  rw [tcpgetdata_octets, tcpgetoctets_length, bound, tcpgeturg_count]

theorem copied_uncut (uncut : ¬ state.tcb.Cuts len) : (tcpgetdata state.tcb len).1.length =
    min len.toNat state.tcb.rbcount.toNat := by
  have bound : (tcpgeturg state.tcb len).1 = len := by
    simp only [Tcb.Cuts, Tcb.nbc, Tcb.ubc] at uncut
    simp only [tcpgeturg]
    split
    · rename_i flag
      split
      · rename_i inBuffer
        split
        · rename_i reached
          exact absurd ⟨flag, inBuffer, reached⟩ uncut
        · rfl
      · rfl
    · rfl
  rw [tcpgetdata_octets, tcpgetoctets_length, bound, tcpgeturg_count]

/-- The computed count is that up to the boundary, less the FINs. -/
theorem ubc_eq (isn : Tcpseq) (state : RcvState) :
    state.tcb.ubc = BitVec.ofNat 32 (state.boundary isn + 1) - state.fins isn := by
  have behind : BitVec.ofInt 32 state.tcb.nbc = state.tcb.rnext - state.tcb.rupseq - 1 :=
    of_int_to_int _
  have place : BitVec.ofNat 32 (state.boundary isn + 1) =
      state.tcb.rupseq - state.first isn + 1 := by
    rw [RcvState.boundary, BitVec.ofNat_add, BitVec.ofNat_toNat, BitVec.setWidth_eq]
    rfl
  rw [Tcb.ubc, behind, place, RcvState.fins]
  grind

/-- With a cut the count is the whole story. -/
theorem bounded_cut_iff (cuts : state.tcb.Cuts len) (small : len.toNat < 2 ^ 31) :
    min state.tcb.ubc.toNat state.tcb.rbcount.toNat ≤ min len.toNat state.tcb.rbcount.toNat ↔
      (state.tcb.ubc.toInt < 0 → state.tcb.rbcount.toNat ≤ len.toNat) := by
  have reached := cuts.2.2
  rw [to_int_of_small len small] at reached
  have value := BitVec.toInt_eq_toNat_cond state.tcb.ubc
  have range := state.tcb.ubc.isLt
  split at value <;> omega

theorem urgent_cut_iff (cuts : state.tcb.Cuts len) (small : len.toNat < 2 ^ 31)
    (harmless : state.tcb.ubc.toInt < 0 → state.tcb.rbcount.toNat ≤ len.toNat)
    (within : state.boundary isn < state.tcb.rbcount.toNat) :
    min state.tcb.ubc.toNat state.tcb.rbcount.toNat =
        min len.toNat (state.boundary isn + 1) ↔
      state.fins isn = 0 ∨ (len = state.tcb.ubc ∧ len.toNat ≤ state.boundary isn + 1) ∨
        (state.tcb.rbcount.toNat ≤ state.tcb.ubc.toNat ∧
          state.tcb.rbcount.toNat = state.boundary isn + 1) := by
  have reached := cuts.2.2
  rw [to_int_of_small len small] at reached
  have value := BitVec.toInt_eq_toNat_cond state.tcb.ubc
  have range := state.tcb.rbcount.isLt
  have place : (BitVec.ofNat 32 (state.boundary isn + 1)).toNat = state.boundary isn + 1 := by
    rw [BitVec.toNat_ofNat, Nat.mod_eq_of_lt (by omega)]
  have none : state.fins isn = 0 ↔ state.tcb.ubc.toNat = state.boundary isn + 1 := by
    rw [← place, ← BitVec.toNat_inj.symm, ubc_eq isn state]
    grind
  have same : len = state.tcb.ubc ↔ len.toNat = state.tcb.ubc.toNat := BitVec.toNat_inj.symm
  rw [none, same]
  split at value <;> omega

end Copied

/-- Whatever led to the state, a read returns what it should exactly where the computed count
is no worse than the request. -/
theorem read_bounded_iff (isn : Tcpseq) (state : RcvState) (len : Word)
    (small : len.toNat < 2 ^ 31) : ReadBounded isn state len ↔ BoundaryKept isn state len := by
  by_cases cuts : state.tcb.Cuts len
  · have copied := copied_cut cuts
    constructor
    · rintro ⟨bounded, urgent⟩
      rw [copied, bounded_cut_iff cuts small] at bounded
      constructor
      · intro _
        exact bounded
      · intro _ within
        have exact := urgent cuts.1 within
        rw [copied] at exact
        exact (urgent_cut_iff cuts small bounded within).mp exact
      · intro _ uncut
        exact absurd cuts uncut
    · rintro ⟨before, counted, _⟩
      constructor
      · rw [copied, bounded_cut_iff cuts small]
        exact before cuts
      · intro _ within
        rw [copied]
        exact (urgent_cut_iff cuts small (before cuts) within).mpr (counted cuts within)
  · have copied := copied_uncut cuts
    constructor
    · rintro ⟨_, urgent⟩
      constructor
      · intro cut
        exact absurd cut cuts
      · intro cut
        exact absurd cut cuts
      · intro flag _ within
        have exact := urgent flag within
        rw [copied] at exact
        omega
    · rintro ⟨_, _, uncut⟩
      constructor
      · rw [copied]
      · intro flag within
        have ends := uncut flag cuts within
        rw [copied]
        omega

/-- The second of four octets is the last urgent one. -/
def urgentRcv : RcvState :=
  rcvStep ⟨freshRcv, []⟩ (.segment
    { seq := 100, code := { ack := true, urg := true }, urgptr := 1, tcpData := [1, 2, 3, 4] } true)

theorem urgent_read_stops :
    ReadBounded 100 urgentRcv 10 ∧ (tcpgetdata urgentRcv.tcb 10).1 = [1, 2] := by
  constructor
  · apply (read_bounded_iff 100 urgentRcv 10 (by decide)).mpr
    constructor
    · intro _ negative
      revert negative
      decide
    · intro _ _
      exact Or.inl (by decide)
    · intro _ uncut
      exact absurd ⟨by decide, by decide, by decide⟩ uncut
  · decide

/-- A segment that repeats five old octets, the first of them marked as urgent. -/
def oldUrgent : RcvEvent :=
  .segment { seq := 95, code := { ack := true, urg := true },
             tcpData := [1, 2, 3, 4, 5, 6, 7, 8] } true

/-- A read of two octets returns three. -/
theorem old_urgent_overruns :
    ¬ ∀ (isn : Tcpseq) (tcb : Tcb) (state : RcvState) (len : Word), RcvStart isn tcb →
      Runs.Reach rcvStep (fun _ _ => True) ⟨tcb, []⟩ state → len.toNat < 2 ^ 31 →
      ReadBounded isn state len := by
  intro claimed
  have reached : Runs.Reach rcvStep (fun _ _ => True) ⟨freshRcv, []⟩
      (rcvStep ⟨freshRcv, []⟩ oldUrgent) :=
    Runs.Reach.step _ Runs.Reach.start trivial
  have bounded := (claimed 100 freshRcv _ 2 (by constructor <;> decide) reached (by decide)).bounded
  revert bounded
  decide

end MvsXinu.Tcp
