import MvsXinu.Tcp.Types

/-!
# The timer delta list (`tmset`, `tmclear`, `tmleft`, `tcptimer`)

Each entry holds the time it has left after the entry before it. The list is shared: of
the entries that are not the output process's only port and message matter here.
-/

namespace MvsXinu.Tcp

set_option autoImplicit false

def tcpTwomsl : Int := 12000
def tcpMaxrxt : Int := 2000
def tcpMinrxt : Int := 50
def tcpAckdelay : Int := 20
def tcpMaxprs : Int := 6000
def tcpMaxretries : Nat := 12

/-- Port and message of an entry: `MKEVENT(event, tcbnum)` for `tcps_oport`, or something
for another port. -/
inductive TimerKey where
  | oport (event : OutEvent) (tcbnum : Nat)
  | other (port msg : Nat)
  deriving DecidableEq, Repr

structure Tqent where
  timeleft : Int
  time : Int
  key : TimerKey
  deriving DecidableEq, Repr

/-- The time of a removed entry goes to the one behind it. -/
def tmabsorb (extra : Int) : List Tqent → List Tqent
  | [] => []
  | next :: later => { next with timeleft := next.timeleft + extra } :: later

/-- The time spent of the entry removed, `none` for `SYSERR`. -/
def tmclear (ctr100 : Int) (key : TimerKey) : List Tqent → Option Int × List Tqent
  | [] => (none, [])
  | entry :: rest =>
      if entry.key = key then (some (ctr100 - entry.time), tmabsorb entry.timeleft rest)
      else
        let cleared := tmclear ctr100 key rest
        (cleared.1, entry :: cleared.2)

def tminsert (new : Tqent) : List Tqent → List Tqent
  | [] => [new]
  | entry :: rest =>
      if new.timeleft < entry.timeleft then
        new :: { entry with timeleft := entry.timeleft - new.timeleft } :: rest
      else entry :: tminsert { new with timeleft := new.timeleft - entry.timeleft } rest

/-- Duplicates are cleared first. -/
def tmset (ctr100 : Int) (key : TimerKey) (time : Int) (timers : List Tqent) : List Tqent :=
  tminsert { timeleft := time, time := ctr100, key := key } (tmclear ctr100 key timers).2

/-- The sum of the times up to the entry, 0 when there is none. -/
def tmleft (key : TimerKey) (timers : List Tqent) : Int :=
  let rec scan (timeleft : Int) : List Tqent → Int
    | [] => 0
    | entry :: rest =>
        if entry.key = key then timeleft + entry.timeleft
        else scan (timeleft + entry.timeleft) rest
  scan 0 timers

/-- One pass of `tcptimer` with `delta` elapsed: the messages sent and the list left. -/
def tcptimer (delta : Int) : List Tqent → List TimerKey × List Tqent
  | [] => ([], [])
  | entry :: rest =>
      if entry.timeleft ≤ delta then
        let later := tcptimer (delta - entry.timeleft) rest
        (entry.key :: later.1, later.2)
      else ([], { entry with timeleft := entry.timeleft - delta } :: rest)

/-- A timer for `key` is running. -/
def Running (key : TimerKey) (timers : List Tqent) : Prop :=
  key ∈ timers.map Tqent.key

instance (key : TimerKey) (timers : List Tqent) : Decidable (Running key timers) :=
  inferInstanceAs (Decidable (key ∈ timers.map Tqent.key))

theorem tminsert_running (new : Tqent) (timers : List Tqent) (key : TimerKey) :
    Running key (tminsert new timers) ↔ key = new.key ∨ Running key timers := by
  induction timers generalizing new with
  | nil => simp [tminsert, Running]
  | cons entry rest ih =>
      rw [tminsert]
      split
      · simp [Running]
      · have later := ih { new with timeleft := new.timeleft - entry.timeleft }
        simp only [Running, List.map_cons, List.mem_cons] at later ⊢
        rw [later]
        tauto

theorem tmclear_running (ctr100 : Int) (cleared key : TimerKey) (timers : List Tqent)
    (different : key ≠ cleared) :
    Running key (tmclear ctr100 cleared timers).2 ↔ Running key timers := by
  induction timers with
  | nil => rfl
  | cons entry rest ih =>
      rw [tmclear]
      split
      · rename_i met
        cases rest with
        | nil => simp [tmabsorb, Running, met, different]
        | cons next later => simp [tmabsorb, Running, met, different]
      · simp only [Running, List.map_cons, List.mem_cons] at ih ⊢
        rw [ih]

theorem tmset_running (ctr100 : Int) (key other : TimerKey) (time : Int) (timers : List Tqent) :
    Running other (tmset ctr100 key time timers) ↔ other = key ∨ Running other timers := by
  rw [tmset, tminsert_running]
  by_cases same : other = key
  · simp [same]
  · simp only [same, false_or]
    exact tmclear_running ctr100 key other timers same

/-- What a nonzero answer of `tmleft` says. -/
theorem tmleft_running (key : TimerKey) (timers : List Tqent) (left : tmleft key timers ≠ 0) :
    Running key timers := by
  have scan : ∀ (timeleft : Int) (timers : List Tqent),
      tmleft.scan key timeleft timers ≠ 0 → Running key timers := by
    intro timeleft timers
    induction timers generalizing timeleft with
    | nil => simp [tmleft.scan]
    | cons entry rest ih =>
        rw [tmleft.scan]
        split
        · rename_i met
          simp [Running, met]
        · intro nonzero
          have later := ih _ nonzero
          simp only [Running, List.map_cons, List.mem_cons] at later ⊢
          exact Or.inr later
  exact scan 0 timers left

/-- A pass loses no timer: each is still running or its message was sent. -/
theorem tcptimer_running (delta : Int) (key : TimerKey) (timers : List Tqent)
    (running : Running key timers) :
    key ∈ (tcptimer delta timers).1 ∨ Running key (tcptimer delta timers).2 := by
  induction timers generalizing delta with
  | nil => simp [Running] at running
  | cons entry rest ih =>
      rw [tcptimer]
      split
      · simp only [Running, List.map_cons, List.mem_cons] at running
        rcases running with rfl | later
        · exact Or.inl (by simp)
        · rcases ih (delta - entry.timeleft) later with sent | left
          · exact Or.inl (by simp [sent])
          · exact Or.inr left
      · exact Or.inr running

end MvsXinu.Tcp
