import MvsXinu.Tcp.TimerDeltas

/-!
# When the timers fire (`tcptimer.c`)

The timer process charges the time since its last pass to the whole list, also to the timers
that were set after that pass. Between two passes it sleeps, and with an empty list it is
suspended until `tmset` resumes it, so that the last pass may lie far back. An interval that is
over an order of magnitude too long is charged as one delay.
-/

namespace MvsXinu.Tcp

open MvsXinu.Runs

set_option autoImplicit false

/-- In tenths of a second. -/
def timergran : Int := 1

/-- Where `tcptimer` is: in `sleep10`, suspended, or in front of its pass. -/
inductive TimerPhase where
  | sleeping | suspended | ready
  deriving DecidableEq

/-- A timer that was sent: when it was due, and the clock at that pass. -/
structure Delivery where
  key : TimerKey
  due : Int
  clock : Int
  deriving DecidableEq

/-- `setAt` and `due` keep for each timer the clock at which it was set and that clock plus the
time asked for. -/
structure TimerProcess where
  ctr100 : Int
  lastrun : Int
  phase : TimerPhase
  tqhead : List Tqent
  setAt : TimerKey → Int
  due : TimerKey → Int
  delivered : List Delivery

namespace TimerProcess

def started (ctr100 : Int) : TimerProcess where
  ctr100 := ctr100
  lastrun := ctr100
  phase := .sleeping
  tqhead := []
  setAt := fun _ => ctr100
  due := fun _ => ctr100
  delivered := []

variable (s : TimerProcess)

/-- The time charged in a pass. -/
def charge : Int :=
  let delta := s.ctr100 - s.lastrun
  if delta < 0 ∨ timergran * 100 < delta then timergran * 10 else delta

/-- The first timer of an empty list resumes the process. -/
def set (key : TimerKey) (time : Int) : TimerProcess :=
  { s with
    phase :=
      if (tmclear s.ctr100 key s.tqhead).2 = [] ∧ s.phase = .suspended then .ready else s.phase
    tqhead := tmset s.ctr100 key time s.tqhead
    setAt := Function.update s.setAt key s.ctr100
    due := Function.update s.due key (s.ctr100 + time) }

/-- `sleep10` returns. -/
def wakes : TimerProcess :=
  { s with phase := if s.tqhead = [] then .suspended else .ready }

/-- A timer whose port is full is taken off the list without being sent; here it counts as
delivered. -/
def pass : TimerProcess :=
  let passed := tcptimer s.charge s.tqhead
  { s with
    lastrun := s.ctr100
    phase := .sleeping
    tqhead := passed.2
    delivered := s.delivered ++ passed.1.map fun key => ⟨key, s.due key, s.ctr100⟩ }

inductive Event where
  | tick (elapsed : Nat)
  | tmset (key : TimerKey) (time : Int)
  | tmclear (key : TimerKey)
  | wakes
  | pass

def step : Event → TimerProcess
  | .tick elapsed => { s with ctr100 := s.ctr100 + elapsed }
  | .tmset key time => s.set key time
  | .tmclear key => { s with tqhead := (tmclear s.ctr100 key s.tqhead).2 }
  | .wakes => s.wakes
  | .pass => s.pass

def Allowed : Event → Prop
  | .wakes => s.phase = .sleeping
  | .pass => s.phase = .ready
  | _ => True

instance decidableAllowed : ∀ event, Decidable (s.Allowed event)
  | .wakes => inferInstanceAs (Decidable (s.phase = .sleeping))
  | .pass => inferInstanceAs (Decidable (s.phase = .ready))
  | .tick _ => isTrue trivial
  | .tmset _ _ => isTrue trivial
  | .tmclear _ => isTrue trivial

/-- In a pass that charges what has elapsed, no timer was set more than one delay after the
last pass. -/
def Recent : Event → Prop
  | .pass => timergran * 100 < s.ctr100 - s.lastrun ∨
      ∀ entry ∈ s.tqhead, s.setAt entry.key ≤ s.lastrun + timergran * 10
  | _ => True

/-- No timer was delivered more than one pass early. -/
def Punctual : Prop :=
  ∀ delivery ∈ s.delivered, delivery.due - timergran * 10 ≤ delivery.clock

/-! ## The credit of a timer -/

/-- A timer that was charged before has, counted from the last pass, no less time left than to
one delay before it is due; one that was set since then has all of its time left. -/
structure Credited : Prop where
  single : (s.tqhead.map Tqent.key).Nodup
  forward : s.lastrun ≤ s.ctr100
  past : ∀ key time, (key, time) ∈ expiries 0 s.tqhead → s.setAt key ≤ s.ctr100
  left : ∀ key time, (key, time) ∈ expiries 0 s.tqhead →
    s.due key - timergran * 10 - s.lastrun ≤ time ∨ s.due key - s.setAt key ≤ time
  punctual : s.Punctual

variable {s}

theorem started_credited (ctr100 : Int) : (started ctr100).Credited := by
  constructor
  · simp [started]
  · exact Int.le_refl ctr100
  · simp [started, expiries]
  · simp [started, expiries]
  · simp [started, Punctual]

theorem Credited.tick (credited : s.Credited) (elapsed : Nat) :
    (s.step (.tick elapsed)).Credited := by
  have forward := credited.forward
  constructor
  · exact credited.single
  · simp only [step]
    omega
  · intro key time found
    have past := credited.past key time found
    simp only [step]
    omega
  · exact credited.left
  · exact credited.punctual

theorem Credited.set (credited : s.Credited) (key : TimerKey) (time : Int) :
    (s.set key time).Credited := by
  have members := mem_tmset credited.single s.ctr100 key time
  constructor
  · exact tmset_single credited.single s.ctr100 key time
  · exact credited.forward
  · intro other left found
    simp only [TimerProcess.set] at found ⊢
    rcases (members _).mp found with own | ⟨old, different⟩
    · cases own
      rw [Function.update_self]
    · rw [Function.update_of_ne different]
      exact credited.past other left old
  · intro other left found
    simp only [TimerProcess.set] at found ⊢
    rcases (members _).mp found with own | ⟨old, different⟩
    · cases own
      rw [Function.update_self, Function.update_self]
      right
      omega
    · rw [Function.update_of_ne different, Function.update_of_ne different]
      exact credited.left other left old
  · exact credited.punctual

theorem Credited.clear (credited : s.Credited) (key : TimerKey) :
    (s.step (.tmclear key)).Credited := by
  have members := mem_tmclear credited.single s.ctr100 key
  constructor
  · exact tmclear_single credited.single s.ctr100 key
  · exact credited.forward
  · intro other left found
    exact credited.past other left ((members _).mp found).1
  · intro other left found
    exact credited.left other left ((members _).mp found).1
  · exact credited.punctual

theorem charge_cases :
    (s.charge = timergran * 10 ∧
        (s.ctr100 - s.lastrun < 0 ∨ timergran * 100 < s.ctr100 - s.lastrun)) ∨
      s.charge = s.ctr100 - s.lastrun := by
  by_cases long : s.ctr100 - s.lastrun < 0 ∨ timergran * 100 < s.ctr100 - s.lastrun
  · exact Or.inl ⟨if_pos long, long⟩
  · exact Or.inr (if_neg long)

/-- What a pass charges a timer at most: the time since the last pass, or one delay more than
the time since it was set. -/
theorem charge_le (forward : s.lastrun ≤ s.ctr100) (recent : s.Recent .pass) :
    s.charge ≤ s.ctr100 - s.lastrun ∧
      ∀ key time, (key, time) ∈ expiries 0 s.tqhead → s.setAt key ≤ s.ctr100 →
        s.charge ≤ s.ctr100 - s.setAt key + timergran * 10 := by
  have cases := s.charge_cases
  simp only [Recent, timergran] at recent
  simp only [timergran] at cases ⊢
  constructor
  · rcases cases with ⟨estimate, long⟩ | elapsed <;> omega
  · intro key time found past
    have running := (expiries_running 0 s.tqhead key).mpr ⟨time, found⟩
    obtain ⟨entry, member, rfl⟩ := List.mem_map.mp running
    rcases cases with ⟨estimate, long⟩ | elapsed
    · omega
    · rcases recent with long | set
      · have estimate : s.charge = 1 * 10 := if_pos (Or.inr long)
        omega
      · have fresh := set entry member
        omega

theorem Credited.pass (credited : s.Credited) (recent : s.Recent .pass) : s.pass.Credited := by
  obtain ⟨elapsed, fresh⟩ := charge_le credited.forward recent
  have members := @tcptimer_members s.tqhead s.charge
  constructor
  · exact tcptimer_single credited.single s.charge
  · exact Int.le_refl s.ctr100
  · intro key time found
    exact credited.past key _ ((members key).2 time found)
  · intro key time found
    have before := (members key).2 time found
    have bound := fresh key _ before (credited.past key _ before)
    have credit := credited.left key _ before
    simp only [TimerProcess.pass]
    left
    rcases credit with charged | uncharged <;> omega
  · intro delivery member
    rcases List.mem_append.mp member with earlier | now
    · exact credited.punctual delivery earlier
    · obtain ⟨key, sent, rfl⟩ := List.mem_map.mp now
      obtain ⟨time, due, found⟩ := (members key).1 sent
      have bound := fresh key time found (credited.past key time found)
      have credit := credited.left key time found
      dsimp only
      rcases credit with charged | uncharged <;> omega

theorem Credited.step (credited : s.Credited) (event : Event) (recent : s.Recent event) :
    (s.step event).Credited := by
  cases event with
  | tick elapsed => exact credited.tick elapsed
  | tmset key time => exact credited.set key time
  | tmclear key => exact credited.clear key
  | wakes => exact ⟨credited.single, credited.forward, credited.past, credited.left,
      credited.punctual⟩
  | pass => exact credited.pass recent

end TimerProcess

theorem timers_punctual_along_run {ctr100 : Int} {s : TimerProcess}
    (reached : Reach TimerProcess.step (fun before event => before.Allowed event ∧ before.Recent event)
      (TimerProcess.started ctr100) s) : s.Punctual := by
  have credited : s.Credited := by
    apply reached.invariant
    · exact TimerProcess.started_credited ctr100
    · rintro before event holds ⟨_, recent⟩
      exact holds.step event recent
  exact credited.punctual

/-- A timer of 12 hundredths, set soon after the last pass, is sent in the second pass after. -/
theorem early_set_timer_punctual :
    ([.tick 5, .tmset (.oport .retransmit 3) 12, .tick 5, .wakes, .pass, .tick 10, .wakes,
      .pass].foldl TimerProcess.step (TimerProcess.started 0)).Punctual := by
  apply @timers_punctual_along_run 0
  apply reach_of_permitted _ Reach.start
  simp [Permitted, TimerProcess.Allowed, TimerProcess.Recent, TimerProcess.step,
    TimerProcess.started, TimerProcess.wakes, TimerProcess.set, TimerProcess.pass,
    TimerProcess.charge, tmset, tmclear, tminsert, tcptimer, timergran]

/-- The process is suspended on the empty list for half a second; then a timer of 50 hundredths
is set, and the pass that follows charges it with the 60 since the pass before. -/
def idleRun : List TimerProcess.Event :=
  [.tick 10, .wakes, .tick 50, .tmset (.oport .retransmit 3) 50, .pass]

theorem timer_after_idle_fires_at_once :
    Reach TimerProcess.step TimerProcess.Allowed (TimerProcess.started 0)
        (idleRun.foldl TimerProcess.step (TimerProcess.started 0)) ∧
      ¬ (idleRun.foldl TimerProcess.step (TimerProcess.started 0)).Punctual := by
  constructor
  · apply reach_of_permitted _ Reach.start
    decide
  · have delivered : (idleRun.foldl TimerProcess.step (TimerProcess.started 0)).delivered =
        [⟨.oport .retransmit 3, 110, 60⟩] := by decide
    intro punctual
    have early := punctual ⟨.oport .retransmit 3, 110, 60⟩ (by
      rw [delivered]
      exact List.mem_singleton_self _)
    revert early
    decide

end MvsXinu.Tcp
