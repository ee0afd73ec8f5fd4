import Mathlib.Algebra.Order.Ring.Int
import MvsXinu.Tcp.ControlFlags
import MvsXinu.Tcp.SendGauge
import MvsXinu.Tcp.TimerStamps

/-!
# Bounds on the retransmission timeout

`tcprtt` keeps eight times the smoothed round trip and four times its deviation. The timeout
that it makes of them has a least value and no greatest one: `tcprexmt` caps what it hands to
`tmset`, `tcpxmit` does not, and samples that just precede a timeout raise the next one.
-/

namespace MvsXinu.Tcp

open MvsXinu.SeqSpace

set_option autoImplicit false

/-- A value of the C type `int`. -/
def InInt (value : Int) : Prop := -2 ^ 31 ≤ value ∧ value < 2 ^ 31

/-- The smoothed round trip that a sample is compared with. -/
def Tcb.primed (tcb : Tcb) (rrt : Int) : Int := if tcb.srt = 0 then rrt * 8 else tcb.srt

def Tcb.deviation (tcb : Tcb) (rrt : Int) : Int := rrt - tcb.primed rrt / 8

/-- What `tcprtt` computes on the way. -/
def rttsums (tcb : Tcb) (rrt : Int) : List Int :=
  let delta := tcb.deviation rrt
  [rrt, tcb.primed rrt, delta, |delta|, tcb.primed rrt + delta, |delta| - tcb.rtde / 4,
    tcb.rtde + (|delta| - tcb.rtde / 4),
    (tcb.primed rrt + delta) / 4 + (tcb.rtde + (|delta| - tcb.rtde / 4))]

/-- The sample that an event takes: an acknowledgement is accepted while the timer runs, and
nothing has been retransmitted. -/
def Conn.sample (conn : Conn) (event : Event) : Option Int :=
  if (∃ look ∈ newAcks conn event, AcksNew look.1 look.2) ∧ conn.tcb.ostate ≠ .rexmt then
    conn.roundTrip
  else none

/-- A run with the samples that it took, each with the control block it found. -/
structure Timing where
  conn : Conn
  samples : List (Tcb × Int) := []

def rttStep (run : Timing) (event : Event) : Timing where
  conn := connStep run.conn event
  samples := run.samples ++
    (run.conn.sample event).toList.map fun rrt => (run.conn.tcb, rrt)

/-- The timeouts that `tcpxmit` and, after a number of timeouts, `tcprexmt` hand to `tmset`. -/
def Tcb.xmitTimeout (tcb : Tcb) : Int := tcb.rexmt
def Tcb.rexmtTimeout (tcb : Tcb) (rexmtcount : Nat) : Int :=
  min (tcb.rexmt * 2 ^ rexmtcount) tcpMaxrxt

/-- The timeouts are within their bounds and nothing has overflowed. -/
structure TimeoutsBounded (run : Timing) : Prop where
  sums : ∀ sample ∈ run.samples, ∀ sum ∈ rttsums sample.1 sample.2, InInt sum
  least : tcpMinrxt ≤ run.conn.tcb.rexmt
  xmit : 1 ≤ run.conn.tcb.xmitTimeout ∧ run.conn.tcb.xmitTimeout ≤ tcpMaxrxt
  shifts : ∀ rexmtcount ≤ tcpMaxretries, InInt (run.conn.tcb.rexmt * 2 ^ rexmtcount)
  rexmt : ∀ rexmtcount ≤ tcpMaxretries,
    1 ≤ run.conn.tcb.rexmtTimeout rexmtcount ∧
      run.conn.tcb.rexmtTimeout rexmtcount ≤ tcpMaxrxt

/-- The sample lies near enough to the smoothed round trip: the slack is what the round trip
and the deviation leave of twice the cap, and a sample above costs more of it than one below. -/
def SampleNear (tcb : Tcb) (rrt : Int) : Prop :=
  let slack := 16007 - tcb.primed rrt - 4 * (tcb.rtde - tcb.rtde / 4)
  5 * tcb.deviation rrt ≤ slack ∧ -3 * tcb.deviation rrt ≤ slack

/-- Every sample is near enough. -/
def SamplesNear (run : Timing) (event : Event) : Prop :=
  ∀ rrt, run.conn.sample event = some rrt → SampleNear run.conn.tcb rrt

instance decidableForward (conn : Conn) : ∀ event, Decidable (Forward conn event)
  | .clock ctr100 => inferInstanceAs (Decidable (conn.ctr100 ≤ ctr100))
  | .segment _ | .output _ | .tick _ | .write _ _ | .resume _ | .close | .closeEnd | .read _
  | .option _ _ _ | .otherKick _ _ | .otherSet _ _ | .otherClear _ => .isTrue trivial

instance (tcb : Tcb) (rrt : Int) : Decidable (SampleNear tcb rrt) :=
  inferInstanceAs (Decidable (_ ∧ _))

instance (run : Timing) (event : Event) : Decidable (SamplesNear run event) :=
  decidable_of_iff (∀ rrt ∈ (run.conn.sample event).toList, SampleNear run.conn.tcb rrt)
    (by simp only [SamplesNear, Option.mem_toList])

/-- The estimate is not negative, nor is any sample that may come. -/
structure Timed (run : Timing) : Prop extends TimeoutsBounded run where
  ahead : NoneAhead run.conn
  srt : 0 ≤ run.conn.tcb.srt
  rtde : 0 ≤ run.conn.tcb.rtde

section Sample

variable {tcb : Tcb} {rrt : Int}

theorem sample_fields (tcb : Tcb) (rrt : Int) :
    (tcprttsample tcb rrt).srt = tcb.primed rrt + tcb.deviation rrt ∧
      (tcprttsample tcb rrt).rtde = tcb.rtde + (|tcb.deviation rrt| - tcb.rtde / 4) ∧
      (tcprttsample tcb rrt).rexmt = max (((tcb.primed rrt + tcb.deviation rrt) / 4 +
        (tcb.rtde + (|tcb.deviation rrt| - tcb.rtde / 4))) / 2) tcpMinrxt :=
  ⟨rfl, rfl, rfl⟩

/-- The timeout stays below the cap exactly for the samples that are near enough. -/
theorem sample_near_iff (tcb : Tcb) (rrt : Int) :
    (tcprttsample tcb rrt).rexmt ≤ tcpMaxrxt ↔ SampleNear tcb rrt := by
  rw [(sample_fields tcb rrt).2.2, SampleNear]
  generalize tcb.primed rrt = srt
  generalize tcb.deviation rrt = delta
  have cap : tcpMaxrxt = 2000 := rfl
  have floor : tcpMinrxt = 50 := rfl
  rcases le_or_gt 0 delta with above | below
  · rw [abs_of_nonneg above, cap, floor]
    omega
  · rw [abs_of_neg below, cap, floor]
    omega

theorem primed_nonneg (srt : 0 ≤ tcb.srt) (nonneg : 0 ≤ rrt) : 0 ≤ tcb.primed rrt := by
  rw [Tcb.primed]
  split
  · omega
  · exact srt

theorem sample_nonneg (srt : 0 ≤ tcb.srt) (rtde : 0 ≤ tcb.rtde) (nonneg : 0 ≤ rrt) :
    0 ≤ (tcprttsample tcb rrt).srt ∧ 0 ≤ (tcprttsample tcb rrt).rtde := by
  have primed := primed_nonneg srt nonneg
  have size := abs_nonneg (tcb.deviation rrt)
  rcases sample_fields tcb rrt with ⟨newSrt, newRtde, _⟩
  rw [newSrt, newRtde]
  constructor
  · rw [Tcb.deviation]
    omega
  · omega

theorem near_sums (srt : 0 ≤ tcb.srt) (rtde : 0 ≤ tcb.rtde) (nonneg : 0 ≤ rrt)
    (near : SampleNear tcb rrt) : ∀ sum ∈ rttsums tcb rrt, InInt sum := by
  have primed := primed_nonneg srt nonneg
  rcases near with ⟨above, below⟩
  have mean : tcb.deviation rrt = rrt - tcb.primed rrt / 8 := rfl
  rw [mean] at above below
  intro sum member
  simp only [rttsums, List.mem_cons, List.not_mem_nil, or_false, mean] at member
  rw [InInt]
  rcases le_or_gt 0 (rrt - tcb.primed rrt / 8) with positive | negative
  · rw [abs_of_nonneg positive] at member
    omega
  · rw [abs_of_neg negative] at member
    omega

end Sample

/-- Every timeout that is derived from one within the bounds is. -/
theorem shifted_bounded {rexmt : Int} (least : tcpMinrxt ≤ rexmt) (most : rexmt ≤ tcpMaxrxt)
    {rexmtcount : Nat} (few : rexmtcount ≤ tcpMaxretries) :
    rexmt ≤ rexmt * 2 ^ rexmtcount ∧ InInt (rexmt * 2 ^ rexmtcount) := by
  have floor : tcpMinrxt = 50 := rfl
  have cap : tcpMaxrxt = 2000 := rfl
  have one : (1 : Int) ≤ 2 ^ rexmtcount := one_le_pow₀ (by omega)
  have top : (2 : Int) ^ rexmtcount ≤ 2 ^ tcpMaxretries := pow_le_pow_right₀ (by omega) few
  have power : (2 : Int) ^ tcpMaxretries = 4096 := rfl
  have grows : rexmt * 1 ≤ rexmt * 2 ^ rexmtcount := Int.mul_le_mul_of_nonneg_left one (by omega)
  have limit : rexmt * 2 ^ rexmtcount ≤ 2000 * 4096 :=
    Int.mul_le_mul (by omega) (by omega) (by omega) (by omega)
  rw [InInt]
  omega

/-! ## Steps -/

/-- The round trip estimate and the timeout are the same. -/
structure SameEstimate (before after : Tcb) : Prop where
  srt : after.srt = before.srt
  rtde : after.rtde = before.rtde
  rexmt : after.rexmt = before.rexmt

theorem SameEstimate.of_gauge {before after : Tcb} {gauge : Gauge} (same : after.gauge = gauge)
    (srt : gauge.srt = before.srt) (rtde : gauge.rtde = before.rtde)
    (rexmt : gauge.rexmt = before.rexmt) : SameEstimate before after where
  srt := (congrArg Gauge.srt same).trans srt
  rtde := (congrArg Gauge.rtde same).trans rtde
  rexmt := (congrArg Gauge.rexmt same).trans rexmt

theorem SameEstimate.trans {before middle after : Tcb} (first : SameEstimate before middle)
    (second : SameEstimate middle after) : SameEstimate before after where
  srt := second.srt.trans first.srt
  rtde := second.rtde.trans first.rtde
  rexmt := second.rexmt.trans first.rexmt

theorem windowed_estimate {before after : Conn} (window : Windowed before.readings after.readings) :
    SameEstimate before.tcb after.tcb := by
  rcases window with ⟨swindow, ostate, same, _⟩
  exact SameEstimate.of_gauge (congrArg Readings.gauge same) rfl rfl rfl

theorem sample_congr {tcb other : Tcb} (same : SameEstimate tcb other) (rrt : Int) :
    SameEstimate (tcprttsample tcb rrt) (tcprttsample other rrt) := by
  simp only [tcprttsample, same.srt, same.rtde]
  exact ⟨rfl, rfl, rfl⟩

/-- The control block with the estimate that a sample, if there is one, leads to. -/
def Tcb.sampled (tcb : Tcb) : Option Int → Tcb
  | none => tcb
  | some rrt => tcprttsample tcb rrt

theorem timed_estimate {tcb start : Tcb} (same : SameEstimate tcb start)
    (ostate : start.ostate = tcb.ostate) (roundTrip : Option Int) :
    SameEstimate (tcb.sampled (if tcb.ostate ≠ .rexmt then roundTrip else none))
      (start.timed roundTrip) := by
  simp only [Tcb.timed, ostate]
  cases roundTrip with
  | none =>
      simp only [ite_self, Tcb.sampled]
      exact ⟨same.srt, same.rtde, same.rexmt⟩
  | some rrt =>
      by_cases retransmits : tcb.ostate = .rexmt
      · simp only [retransmits, ne_eq, not_true_eq_false, if_false, if_true, Tcb.sampled]
        exact ⟨same.srt, same.rtde, same.rexmt⟩
      · have sampled := sample_congr same rrt
        simp only [retransmits, ne_eq, not_false_eq_true, if_true, if_false, Tcb.sampled]
        exact ⟨sampled.srt, sampled.rtde, sampled.rexmt⟩

theorem no_sample {conn : Conn} {event : Event} (none : newAcks conn event = []) :
    conn.sample event = .none := by
  simp [Conn.sample, none]

theorem segment_estimate (conn : Conn) (inbound : Inbound) :
    SameEstimate (conn.tcb.sampled (conn.sample (.segment inbound)))
      (connStep conn (.segment inbound)).tcb := by
  rcases segment_handled conn inbound with same | ⟨read, ended, handled⟩
  · rw [no_sample (no_new_acks (congrArg Readings.acks same))]
    exact SameEstimate.of_gauge (congrArg Readings.gauge same) rfl rfl rfl
  · rcases tcpopts_smss conn.tcb _ read ended with ⟨smss, options⟩
    have readSame : SameEstimate conn.tcb read.1 := by
      rw [options]
      exact ⟨rfl, rfl, rfl⟩
    have readState : read.1.ostate = conn.tcb.ostate := by
      rw [options]
    cases handled with
    | aside same =>
        have acks : (connStep conn (.segment inbound)).trace.acks = conn.trace.acks := by
          rcases same with ⟨_, _, readings, _⟩
          exact congrArg Readings.acks readings
        rw [no_sample (no_new_acks acks)]
        exact readSame.trans (windowed_estimate same)
    | acked start middle opened ostate clock flag looked closed =>
        have startSame := readSame.trans (windowed_estimate opened)
        have startState := ostate.trans readState
        have startClock : start.roundTrip = conn.roundTrip := clock
        have listed : newAcks conn (.segment inbound) = [(start.tcb, read.2.segment)] := by
          rcases opened with ⟨_, _, first, _⟩
          rcases closed with ⟨_, _, last, _⟩
          have old : start.trace.acks = conn.trace.acks := congrArg Readings.acks first
          have new : (connStep conn (.segment inbound)).trace.acks = middle.readings.acks :=
            congrArg Readings.acks last
          rw [newAcks, new, looked.acks, old, List.drop_left]
        apply SameEstimate.trans _ (windowed_estimate closed)
        by_cases new : AcksNew start.tcb read.2.segment
        · have sample : conn.sample (.segment inbound) =
              if conn.tcb.ostate ≠ .rexmt then conn.roundTrip else none := by
            simp only [Conn.sample, listed, List.mem_singleton, exists_eq_left, new, true_and]
          rcases looked.accepted new with ⟨_, _, _, gauge⟩
          have timed := timed_estimate startSame startState start.roundTrip
          rw [startClock] at timed gauge
          rw [sample]
          exact SameEstimate.of_gauge gauge timed.srt timed.rtde timed.rexmt
        · have sample : conn.sample (.segment inbound) = none := by
            simp only [Conn.sample, listed, List.mem_singleton, exists_eq_left, new, false_and,
              if_false]
          rw [sample]
          exact SameEstimate.of_gauge (looked.other new) startSame.srt startSame.rtde
            startSame.rexmt

/-- The estimate changes by the samples only. -/
theorem step_estimate (conn : Conn) (event : Event) :
    SameEstimate (conn.tcb.sampled (conn.sample event)) (connStep conn event).tcb := by
  have quiet : ∀ event, (connStep conn event).readings = conn.readings →
      SameEstimate (conn.tcb.sampled (conn.sample event)) (connStep conn event).tcb := by
    intro event same
    rw [no_sample (no_new_acks (congrArg Readings.acks same))]
    exact SameEstimate.of_gauge (congrArg Readings.gauge same) rfl rfl rfl
  cases event with
  | segment inbound => exact segment_estimate conn inbound
  | output fuel =>
      have emitting := output_emitting conn fuel
      rw [no_sample (no_new_acks emitting.acks)]
      rcases emitting.gauge with ⟨_, _, _, _, same, _⟩
      exact SameEstimate.of_gauge same rfl rfl rfl
  | resume index =>
      have readings := stores_readings conn index
      have acks : (connStep conn (.resume index)).trace.acks = conn.trace.acks := by
        split at readings <;> exact congrArg Readings.acks readings
      rw [no_sample (no_new_acks acks)]
      split at readings
      · exact SameEstimate.of_gauge (congrArg Readings.gauge readings) rfl rfl rfl
      · exact SameEstimate.of_gauge (congrArg Readings.gauge readings) rfl rfl rfl
  | _ => exact quiet _ (idle_readings conn _ trivial)

/-! ## Runs -/

theorem bounded_of_rexmt {run : Timing} (sums : ∀ sample ∈ run.samples,
      ∀ sum ∈ rttsums sample.1 sample.2, InInt sum)
    (least : tcpMinrxt ≤ run.conn.tcb.rexmt) (most : run.conn.tcb.rexmt ≤ tcpMaxrxt) :
    TimeoutsBounded run := by
  have floor : tcpMinrxt = 50 := rfl
  constructor
  · exact sums
  · exact least
  · exact ⟨by rw [Tcb.xmitTimeout]; omega, most⟩
  · intro rexmtcount few
    exact (shifted_bounded least most few).2
  · intro rexmtcount few
    have grows := (shifted_bounded least most few).1
    have cap : tcpMaxrxt = 2000 := rfl
    rw [Tcb.rexmtTimeout]
    omega

theorem rtt_step (run : Timing) (event : Event) (timed : Timed run)
    (forward : Forward run.conn event) (near : SamplesNear run event) :
    Timed (rttStep run event) := by
  have estimate := step_estimate run.conn event
  have ahead := step_none_ahead run.conn event timed.ahead forward
  cases sample : run.conn.sample event with
  | none =>
      rw [sample] at estimate
      have samples : (rttStep run event).samples = run.samples := by
        rw [rttStep, sample]
        exact List.append_nil _
      have rexmt : (rttStep run event).conn.tcb.rexmt = run.conn.tcb.rexmt := estimate.rexmt
      constructor
      · apply bounded_of_rexmt
        · rw [samples]
          exact timed.sums
        · rw [rexmt]
          exact timed.least
        · rw [rexmt]
          exact timed.xmit.2
      · exact ahead
      · exact timed.srt.trans_eq estimate.srt.symm
      · exact timed.rtde.trans_eq estimate.rtde.symm
  | some rrt =>
      rw [sample] at estimate
      have isNear := near rrt sample
      have roundTrip : run.conn.roundTrip = some rrt := by
        rw [Conn.sample] at sample
        split at sample
        · exact sample
        · cases sample
      have nonneg := time_run_nonneg timed.ahead .retransmit rrt roundTrip
      rcases sample_nonneg timed.srt timed.rtde nonneg with ⟨srt, rtde⟩
      have samples : (rttStep run event).samples = run.samples ++ [(run.conn.tcb, rrt)] := by
        rw [rttStep, sample]
        rfl
      have rexmt : (rttStep run event).conn.tcb.rexmt = (tcprttsample run.conn.tcb rrt).rexmt :=
        estimate.rexmt
      constructor
      · apply bounded_of_rexmt
        · rw [samples]
          intro taken member
          rcases List.mem_append.mp member with old | new
          · exact timed.sums taken old
          · rw [List.mem_singleton.mp new]
            exact near_sums timed.srt timed.rtde nonneg isNear
        · rw [rexmt, (sample_fields run.conn.tcb rrt).2.2]
          exact le_max_right _ _
        · rw [rexmt]
          exact (sample_near_iff run.conn.tcb rrt).mpr isNear
      · exact ahead
      · exact srt.trans_eq estimate.srt.symm
      · exact rtde.trans_eq estimate.rtde.symm

/-- A timeout within its bounds comes from a sample that was near enough. -/
theorem near_of_bounded (run : Timing) (event : Event)
    (bounded : TimeoutsBounded (rttStep run event)) : SamplesNear run event := by
  intro rrt sample
  have estimate := step_estimate run.conn event
  rw [sample] at estimate
  have rexmt : (rttStep run event).conn.tcb.rexmt = (tcprttsample run.conn.tcb rrt).rexmt :=
    estimate.rexmt
  have most := bounded.xmit.2
  rw [Tcb.xmitTimeout, rexmt] at most
  exact (sample_near_iff run.conn.tcb rrt).mp most

theorem opened_timed {start : Conn} (opened : Opened start) : Timed { conn := start } := by
  have gauge : start.tcb.gauge.srt = 0 ∧ start.tcb.gauge.rtde = 0 ∧ start.tcb.gauge.rexmt = 50 := by
    cases opened with
    | active =>
        show (tcpkick _).readings.gauge.srt = 0 ∧ (tcpkick _).readings.gauge.rtde = 0 ∧
          (tcpkick _).readings.gauge.rexmt = 50
        rw [tcpkick_readings]
        exact ⟨rfl, rfl, rfl⟩
    | passive =>
        show (tcpdeliver _ _).readings.gauge.srt = 0 ∧ (tcpdeliver _ _).readings.gauge.rtde = 0 ∧
          (tcpdeliver _ _).readings.gauge.rexmt = 50
        rw [tcpdeliver_readings]
        exact ⟨rfl, rfl, rfl⟩
  rcases gauge with ⟨srt, rtde, rexmt⟩
  have initial : start.tcb.rexmt = 50 := rexmt
  have floor : tcpMinrxt = 50 := rfl
  have cap : tcpMaxrxt = 2000 := rfl
  constructor
  · apply bounded_of_rexmt
    · intro sample none
      exact absurd none List.not_mem_nil
    · show _ ≤ start.tcb.rexmt
      omega
    · show start.tcb.rexmt ≤ _
      omega
  · exact opened_none_ahead opened
  · exact srt.ge
  · exact rtde.ge

/-- The timeouts stay within their bounds along a run exactly if every sample is near enough
to the smoothed round trip. -/
theorem timeouts_bounded_iff (start : Conn) (opened : Opened start) (events : List Event)
    (forward : Runs.Permitted rttStep (fun run event => Forward run.conn event)
      { conn := start } events) :
    (∀ count, TimeoutsBounded ((events.take count).foldl rttStep { conn := start })) ↔
      Runs.Permitted rttStep SamplesNear { conn := start } events :=
  Runs.promised_throughout_iff events forward (opened_timed opened)
    (fun _ timed => timed.toTimeoutsBounded)
    (fun run event timed promised near => rtt_step run event timed promised near)
    (fun run event _ _ bounded => near_of_bounded run event bounded)

/-- An octet is written and sent, and acknowledged when the clock shows `ctr100`. -/
def ackedWrite (ack : Tcpseq) (ctr100 : Int) : List Event :=
  [Event.write [7] false, .resume 0, .output 4, .clock ctr100,
    .segment { segment := { seq := 501, ack := ack, code := { ack := true }, window := 100 } }]

/-- An octet after the other, with the round trips that are listed. -/
def ackedWrites : Tcpseq → Int → List Int → List Event
  | _, _, [] => []
  | ack, ctr100, rrt :: rest =>
      ackedWrite ack (ctr100 + rrt) ++ ackedWrites (ack + 1) (ctr100 + rrt) rest

def sampledRun (roundTrips : List Int) : List Event := openedRun (ackedWrites 102 0 roundTrips)

/-- Two octets, with round trips of 49 and of 0. -/
theorem short_round_trips_bounded :
    (∀ count, TimeoutsBounded (((sampledRun [49, 0]).take count).foldl rttStep
      { conn := activeConn })) ∧
    ((sampledRun [49, 0]).foldl rttStep { conn := activeConn }).samples.map (fun sample =>
      sample.2) = [0, 49, 0] := by
  constructor
  · apply (timeouts_bounded_iff activeConn active_opened _ (by decide +kernel)).mpr
    decide +kernel
  · decide +kernel

/-- Nearly every round trip ends just before the timeout. The last timeout is 2095. -/
def longTrips : List Int :=
  [49, 0, 0, 76, 91, 109, 132, 160, 196, 241, 297, 366, 453, 562, 698, 868, 1081, 1347, 1679]

theorem long_round_trips_unbounded :
    ¬ ∀ (start : Conn) (events : List Event), Opened start →
      Runs.Permitted rttStep (fun run event => Forward run.conn event) { conn := start } events →
      ∀ count, TimeoutsBounded ((events.take count).foldl rttStep { conn := start }) := by
  intro claimed
  have bounded := claimed activeConn (sampledRun longTrips) active_opened (by decide +kernel) 98
  have most := bounded.xmit.2
  revert most
  decide +kernel

end MvsXinu.Tcp
