import Mathlib.Tactic.Linarith
import MvsXinu.Tcp.ControlFlags
import MvsXinu.Tcp.FinPlace

/-!
# The segment size and the send loop

`tcpxmit` sends until nothing is left or the window is full, and every send has to move `snext`
for that. It does while a segment holds at least one octet and a FIN that is due ends at `slast`.
`tcpsmss` takes the header off the size that the peer offers, and stores 0 for an offer of 20.
-/

namespace MvsXinu.Tcp

open MvsXinu.SeqSpace

set_option autoImplicit false

/-- The segment size that an MSS option at `popt` offers, the header included. -/
def offeredMss (tcb : Tcb) (inbound : Inbound) (popt : Nat) : Word :=
  let len := (inbound.option (popt + 1)).toNat
  let octet := fun index => inbound.option (popt + 2 + index)
  if len = 3 then (octet 0).setWidth 32
  else if len = 4 then (octet 0 ++ octet 1).setWidth 32
  else if len = 6 then octet 0 ++ octet 1 ++ octet 2 ++ octet 3
  else tcb.smss

/-- An MSS option of a SYN that offers just the header. -/
def OffersNothing (tcb : Tcb) (inbound : Inbound) (popt : Nat) : Prop :=
  inbound.segment.code.syn = true ∧ inbound.option popt = 2 ∧
    offeredMss tcb inbound popt = BitVec.ofNat 32 tcpmhlen

instance (tcb : Tcb) (inbound : Inbound) (popt : Nat) :
    Decidable (OffersNothing tcb inbound popt) :=
  inferInstanceAs (Decidable (_ ∧ _))

/-- None of the options that the loop of `tcpopts` meets offers just the header. -/
def OffersHold (inbound : Inbound) (popend : Nat) : Nat → Nat → Tcb → Prop
  | 0, _, _ => True
  | fuel + 1, popt, tcb =>
      let next := tcpoption tcb inbound popend popt
      ¬ OffersNothing tcb inbound popt ∧
        (inbound.option next.1 ≠ 0 ∧ next.1 < popend →
          OffersHold inbound popend fuel next.1 next.2)

instance decidableOffersHold (inbound : Inbound) (popend : Nat) :
    ∀ (fuel popt : Nat) (tcb : Tcb), Decidable (OffersHold inbound popend fuel popt tcb)
  | 0, _, _ => .isTrue trivial
  | fuel + 1, popt, tcb =>
      have := decidableOffersHold inbound popend fuel
        (tcpoption tcb inbound popend popt).1 (tcpoption tcb inbound popend popt).2
      inferInstanceAs (Decidable (_ ∧ (_ → _)))

def OptionsHold (tcb : Tcb) (inbound : Inbound) : Prop :=
  inbound.segment.hlen ≠ tcpmhlen →
    OffersHold inbound (inbound.segment.hlen - tcpmhlen)
      (inbound.segment.hlen - tcpmhlen + 1) 0 tcb

instance (tcb : Tcb) (inbound : Inbound) : Decidable (OptionsHold tcb inbound) :=
  inferInstanceAs (Decidable (_ → _))

/-- The options that are read hold, no octets are stored behind the FIN, and the FIN is asked
for when the SYN has been acknowledged. -/
def SizeKept (conn : Conn) : Event → Prop
  | .segment inbound =>
      conn.tcb.state ≠ .free → (tcpok conn.tcb inbound.segment).1 = true →
        OptionsHold conn.tcb { inbound with segment := (tcpok conn.tcb inbound.segment).2 }
  | .resume index => (conn.stores index).isSome = true → conn.tcb.flags.sndfin = false
  | .close => conn.closes → conn.tcb.code.syn = false
  | _ => True

instance decidableSizeKept (conn : Conn) : ∀ event, Decidable (SizeKept conn event)
  | .segment _ => inferInstanceAs (Decidable (_ → _ → _))
  | .resume _ => inferInstanceAs (Decidable (_ → _))
  | .close => inferInstanceAs (Decidable (_ → _))
  | .output _ | .tick _ | .clock _ | .write _ _ | .closeEnd | .read _ | .option _ _ _
  | .otherKick _ _ | .otherSet _ _ | .otherClear _ => .isTrue trivial

/-- The control block with which `tcpxmit` enters its loop, the amount at which it stops, and
what it tests. -/
def Conn.transmitting (conn : Conn) : Conn := { conn with tcb := { conn.tcb with ostate := .xmit } }
def Tcb.sendwindow (tcb : Tcb) : Int := (wordMin tcb.swindow tcb.cwnd).toInt
def GoesOn (window : Int) (conn : Conn) : Prop :=
  0 < tcphowmuch conn.tcb ∧ conn.tcb.pending.toInt < window

/-- The loop gets from one connection to the other. -/
inductive Loops (window : Int) (conn : Conn) : Conn → Prop where
  | entered : Loops window conn conn
  | sent {middle : Conn} (before : Loops window conn middle) (more : GoesOn window middle) :
      Loops window conn (tcpsend middle false)

/-- The sizes are positive, also where `tcprtt` has divided by one. The loop advances `snext`
in each pass, and `tcpxmit` returns. -/
structure SizesPositive (conn : Conn) : Prop where
  smss : 1 ≤ conn.tcb.smss.toNat
  cwnd : 1 ≤ conn.tcb.cwnd.toNat
  divisors : ∀ look ∈ conn.trace.acks, 1 ≤ look.1.cwnd.toNat
  advances : conn.tcb.swindow ≠ 0 → ∀ middle,
    Loops conn.tcb.sendwindow conn.transmitting middle → GoesOn conn.tcb.sendwindow middle →
      0 < seqcmp (tcpsend middle false).tcb.snext middle.tcb.snext
  returns : ∃ fuel after, tcpxmit fuel conn .send = some after

/-! ## Sizes -/

/-- The congestion window may grow up to the square of a segment. -/
structure Sized (gauge : Gauge) : Prop where
  smss : 1 ≤ gauge.smss.toNat ∧ gauge.smss.toNat ≤ 65535
  cwnd : 1 ≤ gauge.cwnd.toNat ∧ gauge.cwnd.toNat ≤ 65535 * 65535 + 1
  ssthresh : gauge.ssthresh.toNat ≤ 65535
  swindow : gauge.swindow.toNat ≤ 65535

theorem windowed_sized {before after : Readings} (window : Windowed before after)
    (sized : Sized before.gauge) : Sized after.gauge := by
  rcases window with ⟨swindow, ostate, rfl, source⟩
  constructor
  · exact sized.smss
  · exact sized.cwnd
  · exact sized.ssthresh
  · rcases source with same | small
    · show swindow.toNat ≤ _
      rw [same]
      exact sized.swindow
    · exact small

theorem paced_sized {before after : Gauge} (paced : Paced before after) (sized : Sized before) :
    Sized after := by
  rcases paced with ⟨ostate, rexmtcount, cwnd, ssthresh, rfl, source⟩
  have smss := sized.smss
  have swindow := sized.swindow
  rcases source with ⟨sameWindow, sameLimit⟩ | ⟨slowed, limit⟩
  · constructor
    · exact smss
    · show 1 ≤ cwnd.toNat ∧ cwnd.toNat ≤ _
      rw [sameWindow]
      exact sized.cwnd
    · show ssthresh.toNat ≤ _
      rw [sameLimit]
      exact sized.ssthresh
    · exact swindow
  · constructor
    · exact smss
    · show 1 ≤ cwnd.toNat ∧ cwnd.toNat ≤ _
      rw [slowed]
      omega
    · show ssthresh.toNat ≤ _
      rcases limit with segment | below
      · rw [segment]
        exact smss.2
      · omega
    · exact swindow

/-- A number and the quotient by it are furthest apart from each other at 1. -/
theorem add_div_le {limit square size : Nat} (positive : 1 ≤ size) (bounded : square ≤ limit)
    (small : size ≤ limit + 1) : size + square / size ≤ limit + 1 := by
  rcases Nat.eq_zero_or_pos (square / size) with none | some
  · omega
  · have times : size * (square / size) ≤ square := Nat.mul_div_le square size
    have cross : size + square / size ≤ size * (square / size) + 1 := by nlinarith
    omega

/-- Neither the sum nor the square of the segment size overflows. -/
theorem tcpcwnd_bounds (tcb : Tcb) (sized : Sized tcb.gauge) :
    1 ≤ (tcpcwnd tcb).toNat ∧ (tcpcwnd tcb).toNat ≤ 65535 * 65535 + 1 := by
  have smss : 1 ≤ tcb.smss.toNat ∧ tcb.smss.toNat ≤ 65535 := sized.smss
  have cwnd : 1 ≤ tcb.cwnd.toNat ∧ tcb.cwnd.toNat ≤ 65535 * 65535 + 1 := sized.cwnd
  have ssthresh : tcb.ssthresh.toNat ≤ 65535 := sized.ssthresh
  rw [tcpcwnd]
  split
  · rw [word_add_to_nat _ _ (by omega)]
    omega
  · have square : tcb.smss.toNat * tcb.smss.toNat ≤ 65535 * 65535 :=
      Nat.mul_le_mul smss.2 smss.2
    have product : (tcb.smss * tcb.smss).toNat = tcb.smss.toNat * tcb.smss.toNat := by
      rw [BitVec.toNat_mul]
      omega
    have quotient : (tcb.smss * tcb.smss / tcb.cwnd).toNat =
        tcb.smss.toNat * tcb.smss.toNat / tcb.cwnd.toNat := by
      rw [BitVec.toNat_udiv, product]
    have small : tcb.cwnd.toNat + tcb.smss.toNat * tcb.smss.toNat / tcb.cwnd.toNat ≤
        65535 * 65535 + 1 := add_div_le cwnd.1 square cwnd.2
    rw [word_add_to_nat _ _ (by omega)]
    omega

theorem timed_sizes (tcb : Tcb) (roundTrip : Option Int) :
    (tcb.timed roundTrip).smss = tcb.smss ∧ (tcb.timed roundTrip).cwnd = tcpcwnd tcb ∧
      (tcb.timed roundTrip).ssthresh = tcb.ssthresh ∧
      (tcb.timed roundTrip).swindow = tcb.swindow := by
  simp only [Tcb.timed]
  split
  · exact ⟨rfl, rfl, rfl, rfl⟩
  · split <;> exact ⟨rfl, rfl, rfl, rfl⟩

theorem acked_sized {conn : Conn} {segment : Segment} {readings : Readings}
    (acked : Acked conn segment readings) (sized : Sized conn.tcb.gauge) :
    Sized readings.gauge := by
  by_cases new : AcksNew conn.tcb segment
  · rcases acked.accepted new with ⟨ostate, rexmtcount, _, gauge⟩
    rcases timed_sizes conn.tcb conn.roundTrip with ⟨smss, cwnd, ssthresh, swindow⟩
    rw [gauge]
    constructor
    · show 1 ≤ (conn.tcb.timed conn.roundTrip).smss.toNat ∧
        (conn.tcb.timed conn.roundTrip).smss.toNat ≤ _
      rw [smss]
      exact sized.smss
    · show 1 ≤ (conn.tcb.timed conn.roundTrip).cwnd.toNat ∧
        (conn.tcb.timed conn.roundTrip).cwnd.toNat ≤ _
      rw [cwnd]
      exact tcpcwnd_bounds conn.tcb sized
    · show (conn.tcb.timed conn.roundTrip).ssthresh.toNat ≤ _
      rw [ssthresh]
      exact sized.ssthresh
    · show (conn.tcb.timed conn.roundTrip).swindow.toNat ≤ _
      rw [swindow]
      exact sized.swindow
  · rw [acked.other new]
    exact sized

/-! ## Options -/

section Options

variable {tcb : Tcb} {inbound : Inbound}

/-- What `tcpsmss` stores. -/
theorem tcpsmss_offered (tcb : Tcb) (inbound : Inbound) (popt : Nat) :
    (tcpsmss tcb inbound popt).2 =
      if inbound.segment.code.syn = true then
        { tcb with smss :=
            if tcb.smss = 0 then offeredMss tcb inbound popt - BitVec.ofNat 32 tcpmhlen
            else wordMin (offeredMss tcb inbound popt - BitVec.ofNat 32 tcpmhlen) tcb.smss }
      else tcb := by
  cases syn : inbound.segment.code.syn
  · simp only [tcpsmss, syn]
    rfl
  · simp only [tcpsmss, syn, offeredMss]
    rfl

/-- An offer of less than the header wraps around, and does not count. -/
theorem option_smss (popend popt : Nat) (holds : ¬ OffersNothing tcb inbound popt)
    (smss : 1 ≤ tcb.smss.toNat) :
    1 ≤ (tcpoption tcb inbound popend popt).2.smss.toNat ∧
      (tcpoption tcb inbound popend popt).2.smss.toNat ≤ tcb.smss.toNat := by
  simp only [tcpoption]
  split_ifs with noop eool mss
  · exact ⟨smss, Nat.le_refl _⟩
  · exact ⟨smss, Nat.le_refl _⟩
  · rw [tcpsmss_offered]
    split_ifs with syn zero
    · rw [zero] at smss
      exact absurd smss (by decide)
    · have left : offeredMss tcb inbound popt - BitVec.ofNat 32 tcpmhlen ≠ 0 := by
        intro none
        exact holds ⟨syn, mss, sub_eq_zero.mp none⟩
      have positive : 1 ≤ (offeredMss tcb inbound popt - BitVec.ofNat 32 tcpmhlen).toNat := by
        rw [Nat.one_le_iff_ne_zero]
        intro none
        exact left (BitVec.eq_of_toNat_eq none)
      show 1 ≤ (wordMin _ tcb.smss).toNat ∧ (wordMin _ tcb.smss).toNat ≤ tcb.smss.toNat
      rw [word_min_to_nat]
      omega
    · exact ⟨smss, Nat.le_refl _⟩
  · exact ⟨smss, Nat.le_refl _⟩
  · exact ⟨smss, Nat.le_refl _⟩

theorem loop_smss (popend fuel popt : Nat) (read : Tcb)
    (ended : tcpoptsloop inbound popend fuel popt tcb = some read)
    (holds : OffersHold inbound popend fuel popt tcb) (smss : 1 ≤ tcb.smss.toNat) :
    1 ≤ read.smss.toNat ∧ read.smss.toNat ≤ tcb.smss.toNat := by
  induction fuel generalizing popt tcb with
  | zero => cases ended
  | succ fuel ih =>
      rcases holds with ⟨here, later⟩
      have taken := option_smss popend popt here smss
      rw [tcpoptsloop] at ended
      split at ended
      · rename_i goesOn
        have rest := ih _ ended (later goesOn) taken.1
        exact ⟨rest.1, rest.2.trans taken.2⟩
      · cases ended
        exact taken

theorem options_sized (read : Tcb × Inbound) (ended : tcpopts tcb inbound = some read)
    (holds : OptionsHold tcb inbound) (sized : Sized tcb.gauge) : Sized read.1.gauge := by
  have shrunk : 1 ≤ read.1.smss.toNat ∧ read.1.smss.toNat ≤ tcb.smss.toNat := by
    rw [tcpopts] at ended
    split at ended
    · cases ended
      exact ⟨sized.smss.1, Nat.le_refl _⟩
    · rename_i options
      rw [Option.map_eq_some_iff] at ended
      rcases ended with ⟨last, loop, rfl⟩
      exact loop_smss _ _ _ last loop (holds options) sized.smss.1
  rcases tcpopts_smss tcb inbound read ended with ⟨smss, same⟩
  rw [same] at shrunk ⊢
  have most : tcb.smss.toNat ≤ 65535 := sized.smss.2
  constructor
  · show 1 ≤ smss.toNat ∧ smss.toNat ≤ 65535
    exact ⟨shrunk.1, shrunk.2.trans most⟩
  · exact sized.cwnd
  · exact sized.ssthresh
  · exact sized.swindow

end Options

/-! ## Steps -/

/-- Every step that keeps the sizes keeps the FIN at the end of the data. -/
theorem step_fin_behind (conn : Conn) (event : Event) (behind : FinBehind conn.main.core)
    (kept : SizeKept conn event) : FinBehind (connStep conn event).main.core := by
  cases event with
  | segment inbound =>
      rcases segment_acknowledges conn inbound with same | ⟨ack, taken⟩
      · exact fin_behind_of_stateless same behind
      · change FinBehind (connStep conn (.segment inbound)).stateless
        rw [taken]
        exact fin_behind_accepted ack behind
  | output fuel =>
      rw [connStep]
      cases ended : tcpout fuel conn with
      | none => exact behind
      | some after => exact fin_behind_emits (tcpout_emits conn fuel after ended) behind
  | resume index =>
      have stored := (stores_step conn index).1
      have permitted : (conn.stores index).isSome = true → conn.tcb.flags.sndfin = false := kept
      rw [Conn.main, stored]
      cases stores : conn.stores index with
      | none => exact behind
      | some write =>
          rw [stores] at permitted
          intro asked
          exact absurd (asked.symm.trans (permitted rfl)) (by decide)
  | close =>
      by_cases closes : conn.closes
      · change FinBehind (tcpclose conn).main.core
        rw [tcpclose_closes conn closes]
        intro _
        exact ⟨kept closes, rfl⟩
      · exact fin_behind_of_stateless (tcpclose_refused conn closes) behind
  | _ => exact fin_behind_of_stateless (idle_stateless conn _ trivial (by simp)) behind

/-! ## The send loop -/

section Pass

variable {tcb : Tcb}

/-- `tcphowmuch` counts the octets left, and the control octets. -/
theorem howmuch_left (tcb : Tcb) : tcphowmuch tcb = (tcb.sbcount - tcb.pending +
    (if tcb.code.syn then 1 else 0) + (if tcb.flags.sndfin then 1 else 0)).toInt := by
  have left : tcb.suna + tcb.sbcount - tcb.snext = tcb.sbcount - tcb.pending := by
    rw [Tcb.pending]
    grind
  rw [tcphowmuch, left]

/-- With no octets left a FIN is due, and it goes out. -/
theorem newdata_fin (behind : FinBehind tcb.core) (syn : tcb.code.syn = false)
    (none : tcb.sbcount - tcb.pending = 0) (more : 0 < tcphowmuch tcb) :
    (tcpsendcode tcb tcb.snext 0).fin = true := by
  have asked : tcb.flags.sndfin = true := by
    by_contra clear
    rw [howmuch_left, none, syn, Bool.eq_false_of_not_eq_true clear] at more
    exact absurd more (by decide)
  have slast : tcb.slast = tcb.suna + tcb.sbcount := (behind asked).2
  have ending : tcb.snext = tcb.slast := by
    rw [Tcb.pending] at none
    rw [slast]
    grind
  have due : seqcmp (tcb.snext + 0) tcb.slast = 0 := by
    have stays : tcb.snext + 0 = tcb.slast := by
      rw [ending]
      grind
    rw [stays]
    exact signed_dist_self tcb.slast
  rw [tcpsendcode, if_pos ⟨asked, due⟩]

theorem control_octet (flag : Bool) : (if flag then 1 else 0 : Word).toNat = flag.toNat := by
  cases flag <;> rfl

theorem newdata_sum (tcb : Tcb) (small : (tcpsndlen tcb false).2.toNat ≤ 65535) :
    (tcpnewdata tcb false).toNat = (tcpsndlen tcb false).2.toNat + tcb.code.syn.toNat +
      (tcpsendcode tcb tcb.snext (tcpsndlen tcb false).2).fin.toNat := by
  have counted : tcpnewdata tcb false = (tcpsndlen tcb false).2 +
      (if tcb.code.syn then 1 else 0) +
      (if (tcpsendcode tcb tcb.snext (tcpsndlen tcb false).2).fin then 1 else 0) := by
    rw [← sendcode_syn tcb tcb.snext (tcpsndlen tcb false).2]
    rfl
  have syn := tcb.code.syn.toNat_le
  have fin := (tcpsendcode tcb tcb.snext (tcpsndlen tcb false).2).fin.toNat_le
  have first : ((tcpsndlen tcb false).2 + (if tcb.code.syn then 1 else 0)).toNat =
      (tcpsndlen tcb false).2.toNat + tcb.code.syn.toNat := by
    rw [word_add_to_nat _ _ (by rw [control_octet]; omega), control_octet]
  rw [counted, word_add_to_nat _ _ (by rw [first, control_octet]; omega), first, control_octet]

/-- What a pass sends is at least one octet long, data or control. -/
theorem newdata_positive (sized : Sized tcb.gauge) (behind : FinBehind tcb.core)
    (opened : tcb.swindow ≠ 0) (more : 0 < tcphowmuch tcb) :
    1 ≤ (tcpnewdata tcb false).toNat ∧ (tcpnewdata tcb false).toNat ≤ 65537 := by
  have smss : 1 ≤ tcb.smss.toNat ∧ tcb.smss.toNat ≤ 65535 := sized.smss
  have swindow : tcb.swindow.toNat ≠ 0 := fun none => opened (BitVec.eq_of_toNat_eq none)
  have len := sndlen_to_nat tcb false
  have sum := newdata_sum tcb (by omega)
  have fin := (tcpsendcode tcb tcb.snext (tcpsndlen tcb false).2).fin.toNat_le
  cases syn : tcb.code.syn with
  | true =>
      rw [syn, Bool.toNat_true] at sum
      omega
  | false =>
      have offset : (tcpsndlen tcb false).1 = tcb.pending := by
        simp only [tcpsndlen, syn, Bool.or_false, Bool.false_eq_true, if_false]
      rw [offset] at len
      rw [syn, Bool.toNat_false] at sum
      by_cases none : tcb.sbcount - tcb.pending = 0
      · have zero : (0 : Word).toNat = 0 := rfl
        have empty : (tcpsndlen tcb false).2 = 0 := by
          apply BitVec.eq_of_toNat_eq
          rw [none] at len
          omega
        rw [empty, newdata_fin behind syn none more, Bool.toNat_true] at sum
        omega
      · have some : (tcb.sbcount - tcb.pending).toNat ≠ 0 :=
          fun empty => none (BitVec.eq_of_toNat_eq empty)
        omega

end Pass

/-- What the loop rests on, and keeps. -/
structure Sending (conn : Conn) : Prop where
  sized : Sized conn.tcb.gauge
  behind : FinBehind conn.main.core
  opened : conn.tcb.swindow ≠ 0

section Loop

variable {conn : Conn}

theorem sending_sent (sending : Sending conn) : Sending (tcpsend conn false) := by
  have block := tcpsend_tcb conn false
  constructor
  · rw [block, tcpsent_gauge]
    exact sending.sized
  · rw [Conn.main, block]
    exact fin_behind_sent false sending.behind
  · have swindow : (tcpsent conn.tcb false).swindow = conn.tcb.swindow :=
      congrArg Gauge.swindow (tcpsent_gauge conn.tcb false)
    rw [block, swindow]
    exact sending.opened

theorem loops_sending {window : Int} {middle : Conn} (sending : Sending conn)
    (loops : Loops window conn middle) : Sending middle := by
  induction loops with
  | entered => exact sending
  | sent _ _ ih => exact sending_sent ih

theorem send_snext (conn : Conn) :
    (tcpsend conn false).tcb.snext = conn.tcb.snext + tcpnewdata conn.tcb false := by
  rw [tcpsend_tcb, tcpsent]

theorem send_suna (conn : Conn) : (tcpsend conn false).tcb.suna = conn.tcb.suna := by
  rw [tcpsend_tcb]
  exact congrArg Core.suna (tcpsent_core conn.tcb false)

/-- A pass moves `snext` on. -/
theorem pass_advances (sending : Sending conn) (more : 0 < tcphowmuch conn.tcb) :
    0 < seqcmp (tcpsend conn false).tcb.snext conn.tcb.snext := by
  have positive := newdata_positive sending.sized sending.behind sending.opened more
  have distance : seqcmp (tcpsend conn false).tcb.snext conn.tcb.snext =
      (tcpnewdata conn.tcb false).toInt := by
    rw [seqcmp, SeqSpace.signedDist, send_snext, add_sub_cancel_left]
  rw [distance, to_int_of_small _ (by omega)]
  omega

/-- What is pending grows by what a pass sends. -/
theorem pass_pending (sending : Sending conn) {window : Int} (small : window ≤ 65535)
    (more : GoesOn window conn) :
    conn.tcb.pending.toInt < (tcpsend conn false).tcb.pending.toInt := by
  have positive := newdata_positive sending.sized sending.behind sending.opened more.1
  have low := (to_int_bounds conn.tcb.pending).1
  have below := more.2
  have grown : (tcpsend conn false).tcb.pending =
      BitVec.ofInt 32 (conn.tcb.pending.toInt + (tcpnewdata conn.tcb false).toNat) := by
    rw [BitVec.ofInt_add, of_int_to_int, BitVec.ofInt_natCast, BitVec.ofNat_toNat,
      BitVec.setWidth_eq, Tcb.pending, Tcb.pending, send_snext, send_suna]
    grind
  rw [grown, to_int_of_range _ (by omega) (by omega)]
  omega

theorem loop_returns {window : Int} (small : window ≤ 65535) (distance : Nat)
    (near : window - conn.tcb.pending.toInt ≤ distance) (sending : Sending conn) :
    ∃ after, tcpxmitloop window (distance + 1) conn = some after := by
  induction distance generalizing conn with
  | zero =>
      use conn
      apply if_neg
      intro more
      have below := more.2
      omega
  | succ distance ih =>
      rw [tcpxmitloop]
      split
      · rename_i more
        have further := pass_pending sending small more
        exact ih (by omega) (sending_sent sending)
      · exact ⟨conn, rfl⟩

end Loop

theorem sendwindow_small {tcb : Tcb} (sized : Sized tcb.gauge) : tcb.sendwindow ≤ 65535 := by
  have swindow : tcb.swindow.toNat ≤ 65535 := sized.swindow
  have least := word_min_to_nat tcb.swindow tcb.cwnd
  rw [Tcb.sendwindow, to_int_of_small _ (by omega)]
  omega

theorem goes_on_of_core {window : Int} {conn after : Conn}
    (same : after.main.core = conn.main.core) (more : GoesOn window conn) :
    GoesOn window after := by
  have code : after.tcb.code = conn.tcb.code := congrArg Core.code same
  have sndfin : after.tcb.flags.sndfin = conn.tcb.flags.sndfin := congrArg Core.sndfin same
  have suna : after.tcb.suna = conn.tcb.suna := congrArg Core.suna same
  have snext : after.tcb.snext = conn.tcb.snext := congrArg Core.snext same
  have sbcount : after.tcb.sbcount = conn.tcb.sbcount := congrArg Core.sbcount same
  rw [GoesOn, tcphowmuch, Tcb.pending] at more ⊢
  rw [code, sndfin, suna, snext, sbcount]
  exact more

/-- An empty segment, without a SYN or a FIN, leaves everything as it was. -/
theorem empty_send_core (conn : Conn) (empty : conn.tcb.smss = 0)
    (syn : conn.tcb.code.syn = false) (fin : conn.tcb.code.fin = false)
    (unasked : conn.tcb.flags.sndfin = false) :
    (tcpsend conn false).main.core = conn.main.core := by
  have zero : (0 : Word).toNat = 0 := rfl
  have len : (tcpsndlen conn.tcb false).2 = 0 := by
    apply BitVec.eq_of_toNat_eq
    rw [sndlen_to_nat, empty]
    omega
  have code : tcpsendcode conn.tcb conn.tcb.snext 0 = conn.tcb.code := by
    apply if_neg
    intro due
    exact absurd (due.1.symm.trans unasked) (by decide)
  have still : tcpnewdata conn.tcb false = 0 := by
    have sum := newdata_sum conn.tcb (by rw [len]; omega)
    rw [len, code, syn, fin] at sum
    exact BitVec.eq_of_toNat_eq sum
  have sent : (tcpsend conn false).main.core = (tcpsent conn.tcb false).core :=
    congrArg Tcb.core (tcpsend_tcb conn false)
  have snext : conn.tcb.snext + 0 = conn.tcb.snext := by grind
  have seq : tcpsendseq conn.tcb false = conn.tcb.snext := rfl
  rw [sent, tcpsent_core, still, len, seq, code, snext]
  rfl

/-- With empty segments, and neither a SYN nor a FIN to send, the loop does not end. -/
theorem empty_segments_spin (window : Int) (fuel : Nat) (conn : Conn) (empty : conn.tcb.smss = 0)
    (syn : conn.tcb.code.syn = false) (fin : conn.tcb.code.fin = false)
    (unasked : conn.tcb.flags.sndfin = false) (more : GoesOn window conn) :
    tcpxmitloop window fuel conn = none := by
  induction fuel generalizing conn with
  | zero => rfl
  | succ fuel ih =>
      have core := empty_send_core conn empty syn fin unasked
      have goesOn : 0 < tcphowmuch conn.tcb ∧ conn.tcb.pending.toInt < window := more
      rw [tcpxmitloop, if_pos goesOn]
      apply ih
      · have gauge : (tcpsend conn false).tcb.gauge = conn.tcb.gauge := by
          rw [tcpsend_tcb, tcpsent_gauge]
        exact (congrArg Gauge.smss gauge).trans empty
      · exact (congrArg (fun core => core.code.syn) core).trans syn
      · exact (congrArg (fun core => core.code.fin) core).trans fin
      · exact (congrArg Core.sndfin core).trans unasked
      · exact goes_on_of_core core more

theorem tcpxmit_send (fuel : Nat) (conn : Conn) : tcpxmit fuel conn .send =
    if tcphowmuch conn.tcb = 0 then some (tcpxmitidle conn)
    else if conn.tcb.swindow = 0 then some (tcpxmitshut conn)
    else (tcpxmitloop conn.tcb.sendwindow fuel conn.transmitting).map Conn.startTimer := by
  rw [tcpxmit, if_neg (by decide)]
  rfl

theorem transmitting_sending {conn : Conn} (sized : Sized conn.tcb.gauge)
    (behind : FinBehind conn.main.core) (opened : conn.tcb.swindow ≠ 0) :
    Sending conn.transmitting := by
  constructor
  · exact ⟨sized.smss, sized.cwnd, sized.ssthresh, sized.swindow⟩
  · exact behind
  · exact opened

theorem xmit_returns {conn : Conn} (sized : Sized conn.tcb.gauge)
    (behind : FinBehind conn.main.core) : ∃ fuel after, tcpxmit fuel conn .send = some after := by
  by_cases none : tcphowmuch conn.tcb = 0
  · use 0, tcpxmitidle conn
    rw [tcpxmit_send, if_pos none]
  · by_cases shut : conn.tcb.swindow = 0
    · use 0, tcpxmitshut conn
      rw [tcpxmit_send, if_neg none, if_pos shut]
    · rcases loop_returns (sendwindow_small sized)
        (conn.tcb.sendwindow - conn.transmitting.tcb.pending.toInt).toNat
        (Int.self_le_toNat _) (transmitting_sending sized behind shut) with ⟨after, loop⟩
      use (conn.tcb.sendwindow - conn.transmitting.tcb.pending.toInt).toNat + 1, after.startTimer
      rw [tcpxmit_send, if_neg none, if_neg shut, loop]
      rfl

/-! ## Runs -/

/-- What a run keeps. -/
structure Sane (conn : Conn) : Prop where
  sized : Sized conn.tcb.gauge
  behind : FinBehind conn.main.core
  divisors : ∀ look ∈ conn.trace.acks, 1 ≤ look.1.cwnd.toNat

theorem sane_positive {conn : Conn} (sane : Sane conn) : SizesPositive conn where
  smss := sane.sized.smss.1
  cwnd := sane.sized.cwnd.1
  divisors := sane.divisors
  advances := by
    intro opened middle loops more
    have entered := transmitting_sending sane.sized sane.behind opened
    exact pass_advances (loops_sending entered loops) more.1
  returns := xmit_returns sane.sized sane.behind

theorem Sane.of_readings {conn after : Conn} (sane : Sane conn)
    (same : after.readings = conn.readings) (behind : FinBehind after.main.core) : Sane after where
  sized := by
    have gauge : after.tcb.gauge = conn.tcb.gauge := congrArg Readings.gauge same
    rw [gauge]
    exact sane.sized
  behind := behind
  divisors := by
    have acks : after.trace.acks = conn.trace.acks := congrArg Readings.acks same
    rw [acks]
    exact sane.divisors

/-- `tcprtt` divides by the congestion window that the acknowledgement finds. -/
theorem handled_sane {conn after : Conn} {segment : Segment} (handled : Handled conn segment after)
    (sized : Sized conn.tcb.gauge) (behind : FinBehind after.main.core)
    (divisors : ∀ look ∈ conn.trace.acks, 1 ≤ look.1.cwnd.toNat) : Sane after := by
  cases handled with
  | aside same =>
      have acks : after.trace.acks = conn.trace.acks := by
        rcases same with ⟨_, _, readings, _⟩
        exact congrArg Readings.acks readings
      constructor
      · exact windowed_sized same sized
      · exact behind
      · rw [acks]
        exact divisors
  | acked start middle opened ostate clock flag looked closed =>
      have started : Sized start.tcb.gauge := windowed_sized opened sized
      have acks : after.trace.acks = conn.trace.acks ++ [(start.tcb, segment)] := by
        rcases opened with ⟨_, _, first, _⟩
        rcases closed with ⟨_, _, last, _⟩
        have old : start.trace.acks = conn.trace.acks := congrArg Readings.acks first
        have new : after.trace.acks = middle.readings.acks := congrArg Readings.acks last
        rw [new, looked.acks, old]
      constructor
      · exact windowed_sized closed (acked_sized looked started)
      · exact behind
      · rw [acks]
        intro look member
        rcases List.mem_append.mp member with old | new
        · exact divisors look old
        · rw [List.mem_singleton.mp new]
          exact started.cwnd.1

theorem step_sane (conn : Conn) (event : Event) (sane : Sane conn) (kept : SizeKept conn event) :
    Sane (connStep conn event) := by
  have behind := step_fin_behind conn event sane.behind kept
  cases event with
  | segment inbound =>
      rcases segment_taken conn inbound with same | ⟨⟨alive, accepted⟩, read, ended, handled⟩
      · exact sane.of_readings same behind
      · have sized := options_sized read ended (kept alive accepted) sane.sized
        exact handled_sane handled sized behind sane.divisors
  | output fuel =>
      have emitting := output_emitting conn fuel
      constructor
      · exact paced_sized emitting.gauge sane.sized
      · exact behind
      · rw [emitting.acks]
        exact sane.divisors
  | resume index =>
      rcases stores_step conn index with ⟨block, _, acks⟩
      constructor
      · rw [block]
        cases conn.stores index with
        | none => exact sane.sized
        | some write =>
            exact ⟨sane.sized.smss, sane.sized.cwnd, sane.sized.ssthresh, sane.sized.swindow⟩
      · exact behind
      · rw [acks]
        exact sane.divisors
  | _ => exact sane.of_readings (idle_readings conn _ trivial) behind

theorem tcpkick_rmss (conn : Conn) : (tcpkick conn).tcb.rmss = conn.tcb.rmss := by
  simp only [tcpkick]
  split <;> rfl

theorem tcpdeliver_rmss (conn : Conn) (inbound : Inbound) :
    (tcpdeliver conn inbound).tcb.rmss = conn.tcb.rmss := by
  have data : (tcpdata conn.tcb inbound.segment inbound.newqOk).rmss = conn.tcb.rmss := by
    have sizes := congrArg Tcb.rmss (tcpdata_sending conn.tcb inbound.segment inbound.newqOk)
    exact sizes
  simp only [tcpdeliver]
  split
  · rw [tcpkick_rmss, data]
  · exact data

theorem fin_unasked {core : Core} (clear : core.sndfin = false) : FinBehind core := by
  intro asked
  exact absurd (asked.symm.trans clear) (by decide)

/-- A block with its congestion window open by one segment. -/
theorem fresh_sane {conn : Conn} {size : Word} (positive : 1 ≤ size.toNat)
    (small : size.toNat ≤ 65535) (smss : conn.tcb.smss = size) (cwnd : conn.tcb.cwnd = size)
    (ssthresh : conn.tcb.ssthresh = 65535) (swindow : conn.tcb.swindow.toNat ≤ 65535)
    (clear : conn.tcb.flags.sndfin = false) (none : conn.trace.acks = []) : Sane conn := by
  constructor
  · constructor
    · show 1 ≤ conn.tcb.smss.toNat ∧ conn.tcb.smss.toNat ≤ 65535
      rw [smss]
      exact ⟨positive, small⟩
    · show 1 ≤ conn.tcb.cwnd.toNat ∧ conn.tcb.cwnd.toNat ≤ 65535 * 65535 + 1
      rw [cwnd]
      omega
    · show conn.tcb.ssthresh.toNat ≤ 65535
      rw [ssthresh]
      decide
    · exact swindow
  · exact fin_unasked clear
  · rw [none]
    intro look absent
    exact absurd absent List.not_mem_nil

/-- A connection opens with the segment size of its interface, or with less if the peer's SYN
offers less. -/
theorem opened_sane {start : Conn} (opened : Opened start) (positive : 1 ≤ start.tcb.rmss.toNat)
    (small : start.tcb.rmss.toNat ≤ 65535) : Sane start := by
  cases opened with
  | active iss mss lip rip lport rport tcbnum timers oport ctr100 others foreign =>
      rw [tcpkick_rmss] at positive small
      change 1 ≤ mss.toNat at positive
      change mss.toNat ≤ 65535 at small
      apply (fresh_sane positive small rfl rfl rfl small rfl rfl).of_readings (tcpkick_readings _)
      rw [tcpkick_main]
      exact fin_unasked rfl
  | passive iss mss parentSmss inbound tcbnum timers oport ctr100 syn others foreign =>
      rw [tcpdeliver_rmss] at positive small
      change 1 ≤ mss.toNat at positive
      change mss.toNat ≤ 65535 at small
      have smss : 1 ≤ (if parentSmss = 0 then mss else wordMin parentSmss mss).toNat ∧
          (if parentSmss = 0 then mss else wordMin parentSmss mss).toNat ≤ 65535 := by
        split
        · exact ⟨positive, small⟩
        · rename_i offered
          have some : parentSmss.toNat ≠ 0 := fun none => offered (BitVec.eq_of_toNat_eq none)
          rw [word_min_to_nat]
          omega
      apply (fresh_sane smss.1 smss.2 rfl rfl rfl (window_small inbound.segment) rfl
        rfl).of_readings (tcpdeliver_readings _ inbound)
      rw [tcpdeliver_main]
      exact fin_unasked rfl

theorem sizes_positive (start : Conn) (opened : Opened start)
    (positive : 1 ≤ start.tcb.rmss.toNat) (small : start.tcb.rmss.toNat ≤ 65535) (conn : Conn)
    (reached : Runs.Reach connStep SizeKept start conn) : SizesPositive conn := by
  apply sane_positive
  exact reached.invariant (opened_sane opened positive small) step_sane

/-- The peer answers with an MSS option, and an octet is written. -/
def offeredRun (mss : Octet) : List Event :=
  [.output 4,
    .segment { segment := {
      seq := 500
      ack := 101
      offset := 0x60
      code := { syn := true, ack := true }
      window := 100
      tcpData := [2, 4, 0, mss] } },
    .output 4, .write [7] false, .resume 0]

theorem offered_size_positive :
    ((offeredRun 100).foldl connStep activeConn).tcb.smss = 80 ∧
      SizesPositive ((offeredRun 100).foldl connStep activeConn) := by
  constructor
  · decide
  · apply sizes_positive activeConn active_opened (by decide) (by decide)
    exact Runs.reach_of_permitted (offeredRun 100) Runs.Reach.start (by decide)

/-- The peer offers the size of the header, and `tcpxmit` does not come back. -/
theorem header_offer_spins :
    ¬ ∀ start, Opened start → 1 ≤ start.tcb.rmss.toNat → start.tcb.rmss.toNat ≤ 65535 →
      ∀ conn, Runs.Reach connStep (fun _ _ => True) start conn → SizesPositive conn := by
  intro claimed
  have reached : Runs.Reach connStep (fun _ _ => True) activeConn
      ((offeredRun 20).foldl connStep activeConn) :=
    Runs.reach_of_permitted (offeredRun 20) Runs.Reach.start
      (Runs.unguarded_permitted (offeredRun 20) activeConn)
  have positive := claimed activeConn active_opened (by decide) (by decide) _ reached
  rcases positive.returns with ⟨fuel, after, ended⟩
  have spins := empty_segments_spin
    ((offeredRun 20).foldl connStep activeConn).tcb.sendwindow fuel
    ((offeredRun 20).foldl connStep activeConn).transmitting (by decide) (by decide) (by decide)
    (by decide) ⟨by decide, by decide⟩
  rw [tcpxmit_send, if_neg (by decide), if_neg (by decide), spins] at ended
  cases ended

end MvsXinu.Tcp
