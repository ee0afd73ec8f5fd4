import MvsXinu.Lib.Mutex
import MvsXinu.Lib.Counting
import MvsXinu.Lib.Runs

/-!
# The timer and the output process (`tcptimer.c`, `tcpout.c`, `tmset.c`, `tcpkick.c`, `pcount.c`)

`tcptimer` sends the messages of the timers that are due to the port `tcps_oport` while it
holds `tqmutex`. `tcpout` alone receives from the port, and each of the events it handles may
call `tmset`, `tmclear` or `tmleft`, which take `tqmutex`. So do the other processes, which
send to the port through `tcpkick`. Which timers are due and what the events ask for is left
open, and of a message that it is in the queue is kept. The port exists throughout, and has
nodes (`psend.c`, `preceive.c`).
-/

namespace MvsXinu.TimerPort

open MvsXinu.Mutex MvsXinu.Counting MvsXinu.Runs

set_option autoImplicit false

def tcpqlen : Int := 20

/-- `other` are `tcpinp` and the processes that call TCP. -/
inductive Party where
  | timer | out
  | other (pid : Nat)
  deriving DecidableEq

inductive TimerPc where
  | sleeping
  /-- In the loop over the timers that are due, or in the `wait` on `tqmutex` before it. -/
  | looping
  /-- In the `wait` of `psend`. -/
  | sending
  deriving DecidableEq

inductive OutPc where
  /-- Between two calls, handling an event. -/
  | handling
  /-- In the `wait` of `preceive`. -/
  | receiving
  /-- In `tmset`, `tmclear` or `tmleft`. -/
  | locking
  deriving DecidableEq

inductive OtherPc where
  | elsewhere | locking | sending
  deriving DecidableEq

structure TimerSystem where
  tqmutex : Mutex Party
  queued : Nat
  ptssem : Counting Party
  ptrsem : Counting Party
  timer : TimerPc
  out : OutPc
  others : Nat → OtherPc

/-- Messages in the port and senders that wait, less receivers that wait. -/
def pcount (s : TimerSystem) : Int :=
  if s.ptssem.count < 0 then s.ptrsem.count - s.ptssem.count else s.ptrsem.count

/-- The end of `psend`. -/
def deliver (s : TimerSystem) : TimerSystem :=
  { s with queued := s.queued + 1, ptrsem := s.ptrsem.signal }

/-- The end of `preceive`. -/
def collect (s : TimerSystem) : TimerSystem :=
  { s with queued := s.queued - 1, ptssem := s.ptssem.signal }

def setOther (s : TimerSystem) (pid : Nat) (pc : OtherPc) : TimerSystem :=
  { s with others := Function.update s.others pid pc }

/-- The party is in the `wait` of `psend`. `tcpout` does not send. -/
def stall (s : TimerSystem) : Party → TimerSystem
  | .timer => { s with timer := .sending }
  | .other pid => setOther s pid .sending
  | .out => s

def psend (s : TimerSystem) (party : Party) : TimerSystem :=
  let waited := { s with ptssem := s.ptssem.wait party }
  if s.ptssem.Blocks then stall waited party else deliver waited

inductive TimerEvent where
  | timerLock
  /-- The first timer of the list is due. -/
  | timerDue
  /-- `tcptimer` is dispatched in `psend`. -/
  | timerSent
  | timerUnlock
  | receive
  /-- `tcpout` is dispatched in `preceive`. -/
  | received
  | outLock
  | outUnlock
  | lock (pid : Nat)
  | unlock (pid : Nat)
  | tcpkick (pid : Nat)
  /-- The process is dispatched in the `psend` of `tcpkick`. -/
  | sent (pid : Nat)
  deriving DecidableEq

def step (s : TimerSystem) : TimerEvent → TimerSystem
  | .timerLock => { s with tqmutex := s.tqmutex.wait .timer, timer := .looping }
  | .timerDue => if pcount s ≤ tcpqlen then psend s .timer else s
  | .timerSent => deliver { s with timer := .looping }
  | .timerUnlock => { s with tqmutex := s.tqmutex.signal, timer := .sleeping }
  | .receive =>
      let waited := { s with ptrsem := s.ptrsem.wait .out }
      if s.ptrsem.Blocks then { waited with out := .receiving } else collect waited
  | .received => collect { s with out := .handling }
  | .outLock => { s with tqmutex := s.tqmutex.wait .out, out := .locking }
  | .outUnlock => { s with tqmutex := s.tqmutex.signal, out := .handling }
  | .lock pid => setOther { s with tqmutex := s.tqmutex.wait (.other pid) } pid .locking
  | .unlock pid => setOther { s with tqmutex := s.tqmutex.signal } pid .elsewhere
  | .tcpkick pid => if pcount s < tcpqlen then psend s (.other pid) else s
  | .sent pid => deliver (setOther s pid .elsewhere)

/-- A process that waits for a semaphore runs when it has been released. -/
def Allowed (s : TimerSystem) : TimerEvent → Prop
  | .timerLock => s.timer = .sleeping
  | .timerDue => s.timer = .looping ∧ s.tqmutex.owner = some .timer
  | .timerSent => s.timer = .sending ∧ .timer ∉ s.ptssem.waiting
  | .timerUnlock => s.timer = .looping ∧ s.tqmutex.owner = some .timer
  | .receive => s.out = .handling
  | .received => s.out = .receiving ∧ .out ∉ s.ptrsem.waiting
  | .outLock => s.out = .handling
  | .outUnlock => s.out = .locking ∧ s.tqmutex.owner = some .out
  | .lock pid => s.others pid = .elsewhere
  | .unlock pid => s.others pid = .locking ∧ s.tqmutex.owner = some (.other pid)
  | .tcpkick pid => s.others pid = .elsewhere
  | .sent pid => s.others pid = .sending ∧ .other pid ∉ s.ptssem.waiting

/-- `tcptimer` waits in `psend` with `tqmutex` in its hands, and `tcpout` waits for that. -/
def Deadlocked (s : TimerSystem) : Prop :=
  s.timer = .sending ∧ .timer ∈ s.ptssem.waiting ∧ s.tqmutex.owner = some .timer ∧
    .out ∈ s.tqmutex.waiting

/-- When `tcptimer` goes to `psend` the port takes a message, or it is just full and `tcpout`
has been released to take one out. -/
def Roomy (s : TimerSystem) : TimerEvent → Prop
  | .timerDue => pcount s ≤ tcpqlen →
      0 < s.ptssem.count ∨
        (s.ptssem.count = 0 ∧ s.out = .receiving ∧ .out ∉ s.ptrsem.waiting)
  | _ => True

/-- The port is empty, and `tcpout` is about to receive. -/
def started : TimerSystem where
  tqmutex := unowned
  queued := 0
  ptssem := ⟨tcpqlen, []⟩
  ptrsem := ⟨0, []⟩
  timer := .sleeping
  out := .handling
  others := fun _ => .elsewhere

/-! ## No deadlock -/

/-- The party holds `tqmutex` or waits for it. -/
def Locks (s : TimerSystem) : Party → Prop
  | .timer => s.timer ≠ .sleeping
  | .out => s.out = .locking
  | .other pid => s.others pid = .locking

/-- The party is in `psend`. -/
def Sends (s : TimerSystem) : Party → Prop
  | .timer => s.timer = .sending
  | .out => False
  | .other pid => s.others pid = .sending

structure Flowing (s : TimerSystem) : Prop where
  orderly : s.tqmutex.Orderly
  locks : ∀ party, s.tqmutex.Involves party ↔ Locks s party
  even : s.ptssem.Even
  nodup : s.ptssem.waiting.Nodup
  sends : ∀ party ∈ s.ptssem.waiting, Sends s party
  /-- While `tcptimer` waits, `tcpout` has been released and is going to release it. -/
  first : .timer ∈ s.ptssem.waiting →
    s.ptssem.waiting.head? = some .timer ∧ s.out = .receiving ∧ .out ∉ s.ptrsem.waiting

section Flow

variable {s later : TimerSystem}

theorem Flowing.not_deadlocked (flowing : Flowing s) : ¬ Deadlocked s := by
  rintro ⟨_, waits, _, outWaits⟩
  obtain ⟨_, receiving, _⟩ := flowing.first waits
  have locking : s.out = .locking := (flowing.locks .out).mp (Or.inr outWaits)
  rw [receiving] at locking
  cases locking

/-- A party calls `wait` on `tqmutex`. -/
theorem Flowing.lock (flowing : Flowing s) (party : Party) (absent : ¬ Locks s party)
    (comes : ∀ other, Locks later other ↔ Locks s other ∨ other = party)
    (sends : ∀ other, Sends s other → Sends later other)
    (out : s.out = .receiving → later.out = .receiving)
    (tqmutex : later.tqmutex = s.tqmutex.wait party) (ptssem : later.ptssem = s.ptssem)
    (ptrsem : later.ptrsem = s.ptrsem) : Flowing later := by
  constructor
  · rw [tqmutex]
    apply wait_orderly flowing.orderly
    rw [flowing.locks]
    exact absent
  · intro other
    rw [tqmutex, wait_involves flowing.orderly, flowing.locks, comes]
  · rw [ptssem]
    exact flowing.even
  · rw [ptssem]
    exact flowing.nodup
  · intro other member
    rw [ptssem] at member
    exact sends other (flowing.sends other member)
  · intro waits
    rw [ptssem] at waits ⊢
    obtain ⟨head, receiving, released⟩ := flowing.first waits
    rw [ptrsem]
    exact ⟨head, out receiving, released⟩

/-- A party gives up `tqmutex`. -/
theorem Flowing.unlock (flowing : Flowing s) (party : Party)
    (owned : s.tqmutex.owner = some party)
    (goes : ∀ other, Locks later other ↔ Locks s other ∧ other ≠ party)
    (sends : ∀ other ∈ s.ptssem.waiting, Sends s other → Sends later other)
    (out : s.out = .receiving → later.out = .receiving)
    (tqmutex : later.tqmutex = s.tqmutex.signal) (ptssem : later.ptssem = s.ptssem)
    (ptrsem : later.ptrsem = s.ptrsem) : Flowing later := by
  constructor
  · rw [tqmutex]
    exact signal_orderly flowing.orderly
  · intro other
    rw [tqmutex, signal_involves flowing.orderly owned, flowing.locks, goes]
  · rw [ptssem]
    exact flowing.even
  · rw [ptssem]
    exact flowing.nodup
  · intro other member
    rw [ptssem] at member
    exact sends other member (flowing.sends other member)
  · intro waits
    rw [ptssem] at waits ⊢
    obtain ⟨head, receiving, released⟩ := flowing.first waits
    rw [ptrsem]
    exact ⟨head, out receiving, released⟩

/-- A message goes into the port. -/
theorem Flowing.delivers (flowing : Flowing s) : Flowing (deliver s) := by
  refine ⟨flowing.orderly, flowing.locks, flowing.even, flowing.nodup, flowing.sends, ?_⟩
  intro waits
  obtain ⟨head, receiving, released⟩ := flowing.first waits
  exact ⟨head, receiving, fun member => released (mem_of_mem_signal member)⟩

/-- A party that has been released in `psend` is on its way out. -/
theorem Flowing.leaves (flowing : Flowing s) (locks : ∀ other, Locks later other ↔ Locks s other)
    (sends : ∀ other ∈ s.ptssem.waiting, Sends s other → Sends later other)
    (out : later.out = s.out) (tqmutex : later.tqmutex = s.tqmutex)
    (ptssem : later.ptssem = s.ptssem) (ptrsem : later.ptrsem = s.ptrsem) : Flowing later := by
  constructor
  · rw [tqmutex]
    exact flowing.orderly
  · intro other
    rw [tqmutex, locks]
    exact flowing.locks other
  · rw [ptssem]
    exact flowing.even
  · rw [ptssem]
    exact flowing.nodup
  · intro other member
    rw [ptssem] at member
    exact sends other member (flowing.sends other member)
  · rw [ptssem, ptrsem, out]
    exact flowing.first

/-- The port takes the message at once. -/
theorem Flowing.passes (flowing : Flowing s) (party : Party) (passes : ¬ s.ptssem.Blocks) :
    Flowing { s with ptssem := s.ptssem.wait party } := by
  have waiting : (s.ptssem.wait party).waiting = s.ptssem.waiting := if_neg passes
  refine ⟨flowing.orderly, flowing.locks, wait_even flowing.even party, ?_, ?_, ?_⟩
  · dsimp only
    rw [waiting]
    exact flowing.nodup
  · dsimp only
    rw [waiting]
    exact flowing.sends
  · dsimp only
    rw [waiting]
    exact flowing.first

/-- A party has to wait in `psend`. -/
theorem Flowing.stalls (flowing : Flowing s) (party : Party) (blocks : s.ptssem.Blocks)
    (absent : party ∉ s.ptssem.waiting)
    (locks : ∀ other, Locks later other ↔ Locks s other)
    (sends : ∀ other, Sends s other ∨ other = party → Sends later other)
    (isTimer : party = .timer →
      s.ptssem.count = 0 ∧ s.out = .receiving ∧ .out ∉ s.ptrsem.waiting)
    (out : later.out = s.out) (tqmutex : later.tqmutex = s.tqmutex)
    (ptssem : later.ptssem = s.ptssem.wait party) (ptrsem : later.ptrsem = s.ptrsem) :
    Flowing later := by
  have waiting : (s.ptssem.wait party).waiting = s.ptssem.waiting ++ [party] := if_pos blocks
  constructor
  · rw [tqmutex]
    exact flowing.orderly
  · intro other
    rw [tqmutex, locks]
    exact flowing.locks other
  · rw [ptssem]
    exact wait_even flowing.even party
  · rw [ptssem]
    exact wait_nodup flowing.nodup absent
  · intro other member
    rw [ptssem, waiting, List.mem_append, List.mem_singleton] at member
    rcases member with old | new
    · exact sends other (Or.inl (flowing.sends other old))
    · exact sends other (Or.inr new)
  · intro waits
    rw [ptssem, waiting] at waits ⊢
    rw [out, ptrsem]
    rcases List.mem_append.mp waits with old | new
    · obtain ⟨head, receiving, released⟩ := flowing.first old
      refine ⟨?_, receiving, released⟩
      rw [List.head?_append, head]
      rfl
    · have same : Party.timer = party := List.mem_singleton.mp new
      obtain ⟨empty, receiving, released⟩ := isTimer same.symm
      refine ⟨?_, receiving, released⟩
      rw [waiting_nil flowing.even (by omega), same]
      rfl

/-- `tcpout` takes a message out. If `tcptimer` waits, that releases it. -/
theorem Flowing.collects (flowing : Flowing s) (out : s.out = .handling ∨ s.out = .receiving) :
    Flowing (collect { s with out := .handling }) := by
  refine ⟨flowing.orderly, ?_, signal_even flowing.even, signal_nodup flowing.nodup, ?_, ?_⟩
  · intro party
    refine (flowing.locks party).trans ?_
    cases party with
    | timer => exact Iff.rfl
    | out =>
        constructor
        · intro locking
          rcases out with handling | receiving
          · exact absurd (handling.symm.trans locking) (by decide)
          · exact absurd (receiving.symm.trans locking) (by decide)
        · intro locking
          cases locking
    | other pid => exact Iff.rfl
  · intro party member
    have sends := flowing.sends party (mem_of_mem_signal member)
    cases party with
    | timer => exact sends
    | out => exact sends
    | other pid => exact sends
  · intro waits
    have before : Party.timer ∈ s.ptssem.waiting := mem_of_mem_signal waits
    obtain ⟨head, _, _⟩ := flowing.first before
    exact absurd waits (signal_releases flowing.even flowing.nodup head)

/-- Who locks and who sends after a change of one other process. -/
theorem locks_setOther {pid : Nat} {pc : OtherPc} (other : Party) :
    Locks (setOther s pid pc) other ↔
      (other = .other pid ∧ pc = .locking) ∨ (other ≠ .other pid ∧ Locks s other) := by
  cases other with
  | timer => simp [Locks, setOther]
  | out => simp [Locks, setOther]
  | other number =>
      by_cases same : number = pid
      · simp [Locks, setOther, same]
      · simp [Locks, setOther, same]

theorem sends_setOther {pid : Nat} {pc : OtherPc} (other : Party) :
    Sends (setOther s pid pc) other ↔
      (other = .other pid ∧ pc = .sending) ∨ (other ≠ .other pid ∧ Sends s other) := by
  cases other with
  | timer => simp [Sends, setOther]
  | out => simp [Sends]
  | other number =>
      by_cases same : number = pid
      · simp [Sends, setOther, same]
      · simp [Sends, setOther, same]

/-- A party that is not in `psend` does not wait there. -/
theorem Flowing.absent (flowing : Flowing s) {party : Party} (elsewhere : ¬ Sends s party) :
    party ∉ s.ptssem.waiting :=
  fun member => elsewhere (flowing.sends party member)

theorem timerDue_flowing (flowing : Flowing s) (looping : s.timer = .looping)
    (room : 0 < s.ptssem.count ∨
      (s.ptssem.count = 0 ∧ s.out = .receiving ∧ .out ∉ s.ptrsem.waiting)) :
    Flowing (psend s .timer) := by
  have notSending : ¬ Sends s .timer := by
    intro sending
    exact absurd (looping.symm.trans sending) (by decide)
  unfold psend
  dsimp only
  split
  · rename_i blocks
    have full : ¬ 0 < s.ptssem.count := by
      unfold Counting.Blocks at blocks
      omega
    refine flowing.stalls .timer blocks (flowing.absent notSending) ?_ ?_
      (fun _ => room.resolve_left full) rfl rfl rfl rfl
    · intro other
      cases other <;> simp [stall, Locks, looping]
    · intro other sends
      cases other with
      | timer => rfl
      | out => exact sends.elim id (fun isOut => by cases isOut)
      | other pid => exact sends.elim id (fun isOther => by cases isOther)
  · rename_i passes
    exact (flowing.passes .timer passes).delivers

theorem tcpkick_flowing (flowing : Flowing s) {pid : Nat} (elsewhere : s.others pid = .elsewhere) :
    Flowing (psend s (.other pid)) := by
  have notSending : ¬ Sends s (.other pid) := by
    intro sending
    exact absurd (elsewhere.symm.trans sending) (by decide)
  have notLocking : ¬ Locks s (.other pid) := by
    intro locking
    exact absurd (elsewhere.symm.trans locking) (by decide)
  unfold psend
  dsimp only
  split
  · rename_i blocks
    refine flowing.stalls (.other pid) blocks (flowing.absent notSending) ?_ ?_
      (fun isTimer => by cases isTimer) rfl rfl rfl rfl
    · intro other
      refine (locks_setOther other).trans ?_
      constructor
      · rintro (⟨_, locking⟩ | ⟨_, locks⟩)
        · cases locking
        · exact locks
      · intro locks
        refine Or.inr ⟨?_, locks⟩
        intro same
        rw [same] at locks
        exact notLocking locks
    · intro other sends
      apply (sends_setOther other).mpr
      by_cases same : other = .other pid
      · exact Or.inl ⟨same, rfl⟩
      · exact Or.inr ⟨same, sends.resolve_right same⟩
  · rename_i passes
    exact (flowing.passes (.other pid) passes).delivers

theorem receive_flowing (flowing : Flowing s) (handling : s.out = .handling) :
    Flowing (step s .receive) := by
  unfold step
  dsimp only
  split
  · refine ⟨flowing.orderly, ?_, flowing.even, flowing.nodup, ?_, ?_⟩
    · intro party
      refine (flowing.locks party).trans ?_
      cases party with
      | timer => exact Iff.rfl
      | out => simp [Locks, handling]
      | other pid => exact Iff.rfl
    · intro party member
      have sends := flowing.sends party member
      cases party with
      | timer => exact sends
      | out => exact sends
      | other pid => exact sends
    · intro waits
      obtain ⟨_, receiving, _⟩ := flowing.first waits
      exact absurd (handling.symm.trans receiving) (by decide)
  · have waited : Flowing { s with ptrsem := s.ptrsem.wait .out } := by
      refine ⟨flowing.orderly, flowing.locks, flowing.even, flowing.nodup, flowing.sends, ?_⟩
      intro waits
      obtain ⟨_, receiving, _⟩ := flowing.first waits
      exact absurd (handling.symm.trans receiving) (by decide)
    have collected := waited.collects (Or.inl handling)
    have same : ({ { s with ptrsem := s.ptrsem.wait .out } with out := .handling } : TimerSystem) =
        { s with ptrsem := s.ptrsem.wait .out } := by
      rw [← handling]
    rwa [same] at collected

theorem step_flowing (flowing : Flowing s) (event : TimerEvent) (allowed : Allowed s event)
    (roomy : Roomy s event) : Flowing (step s event) := by
  cases event with
  | timerLock =>
      have sleeping : s.timer = .sleeping := allowed
      refine flowing.lock .timer ?_ ?_ ?_ (fun out => out) rfl rfl rfl
      · exact fun locks => locks sleeping
      · intro other
        cases other <;> simp [step, Locks]
      · intro other sends
        cases other with
        | timer => exact absurd (sleeping.symm.trans sends) (by decide)
        | out => exact sends
        | other pid => exact sends
  | timerDue =>
      unfold step
      dsimp only
      split
      · rename_i room
        exact timerDue_flowing flowing allowed.1 (roomy room)
      · exact flowing
  | timerSent =>
      obtain ⟨sending, released⟩ := allowed
      apply Flowing.delivers
      refine flowing.leaves ?_ ?_ rfl rfl rfl rfl
      · intro other
        cases other <;> simp [Locks, sending]
      · intro other member sends
        cases other with
        | timer => exact absurd member released
        | out => exact sends
        | other pid => exact sends
  | timerUnlock =>
      obtain ⟨looping, owned⟩ := allowed
      refine flowing.unlock .timer owned ?_ ?_ (fun out => out) rfl rfl rfl
      · intro other
        cases other <;> simp [step, Locks]
      · intro other _ sends
        cases other with
        | timer => exact absurd (looping.symm.trans sends) (by decide)
        | out => exact sends
        | other pid => exact sends
  | receive => exact receive_flowing flowing allowed
  | received =>
      obtain ⟨receiving, _⟩ := allowed
      exact flowing.collects (Or.inr receiving)
  | outLock =>
      have handling : s.out = .handling := allowed
      refine flowing.lock .out ?_ ?_ ?_ ?_ rfl rfl rfl
      · exact fun locking => absurd (handling.symm.trans locking) (by decide)
      · intro other
        cases other <;> simp [step, Locks]
      · intro other sends
        cases other <;> exact sends
      · exact fun receiving => absurd (handling.symm.trans receiving) (by decide)
  | outUnlock =>
      obtain ⟨locking, owned⟩ := allowed
      refine flowing.unlock .out owned ?_ ?_ ?_ rfl rfl rfl
      · intro other
        cases other <;> simp [step, Locks]
      · intro other _ sends
        cases other <;> exact sends
      · exact fun receiving => absurd (locking.symm.trans receiving) (by decide)
  | lock pid =>
      have elsewhere : s.others pid = .elsewhere := allowed
      refine flowing.lock (.other pid) ?_ ?_ ?_ (fun out => out) rfl rfl rfl
      · exact fun locking => absurd (elsewhere.symm.trans locking) (by decide)
      · intro other
        refine (locks_setOther other).trans ?_
        by_cases same : other = .other pid
        · simp [same]
        · simp [same]
          exact Iff.rfl
      · intro other sends
        apply (sends_setOther other).mpr
        refine Or.inr ⟨?_, sends⟩
        intro same
        rw [same] at sends
        exact absurd (elsewhere.symm.trans sends) (by decide)
  | unlock pid =>
      obtain ⟨locking, owned⟩ := allowed
      refine flowing.unlock (.other pid) owned ?_ ?_ (fun out => out) rfl rfl rfl
      · intro other
        refine (locks_setOther other).trans ?_
        by_cases same : other = .other pid
        · simp [same]
        · simp [same]
          exact Iff.rfl
      · intro other _ sends
        apply (sends_setOther other).mpr
        refine Or.inr ⟨?_, sends⟩
        intro same
        rw [same] at sends
        exact absurd (locking.symm.trans sends) (by decide)
  | tcpkick pid =>
      unfold step
      dsimp only
      split
      · exact tcpkick_flowing flowing allowed
      · exact flowing
  | sent pid =>
      obtain ⟨sending, released⟩ := allowed
      apply Flowing.delivers
      refine flowing.leaves ?_ ?_ rfl rfl rfl rfl
      · intro other
        refine (locks_setOther other).trans ?_
        constructor
        · rintro (⟨_, locking⟩ | ⟨_, locks⟩)
          · cases locking
          · exact locks
        · intro locks
          refine Or.inr ⟨?_, locks⟩
          intro same
          rw [same] at locks
          exact absurd (sending.symm.trans locks) (by decide)
      · intro other member sends
        apply (sends_setOther other).mpr
        refine Or.inr ⟨?_, sends⟩
        intro same
        rw [same] at member
        exact released member

theorem started_flowing : Flowing started := by
  refine ⟨unowned_orderly, ?_, rfl, List.nodup_nil, ?_, ?_⟩
  · intro party
    constructor
    · intro involved
      exact absurd involved unowned_involves
    · intro locks
      cases party with
      | timer => exact absurd rfl locks
      | out => cases locks
      | other pid => cases locks
  · intro party member
    cases member
  · intro member
    cases member

end Flow

/-- In every run in which `tcptimer` finds the port so, the two processes do not wait for each
other. -/
theorem never_deadlocked_along_run (state : TimerSystem)
    (reached : Reach step (fun before event => Allowed before event ∧ Roomy before event)
      started state) : ¬ Deadlocked state := by
  have flowing : Flowing state := by
    apply reached.invariant
    · exact started_flowing
    · intro before event kept permitted
      exact step_flowing kept event permitted.1 permitted.2
  exact flowing.not_deadlocked

instance (s : TimerSystem) (event : TimerEvent) : Decidable (Allowed s event) :=
  match event with
  | .timerLock => inferInstanceAs (Decidable (_ = _))
  | .timerDue => inferInstanceAs (Decidable (_ ∧ _))
  | .timerSent => inferInstanceAs (Decidable (_ ∧ _))
  | .timerUnlock => inferInstanceAs (Decidable (_ ∧ _))
  | .receive => inferInstanceAs (Decidable (_ = _))
  | .received => inferInstanceAs (Decidable (_ ∧ _))
  | .outLock => inferInstanceAs (Decidable (_ = _))
  | .outUnlock => inferInstanceAs (Decidable (_ ∧ _))
  | .lock _ => inferInstanceAs (Decidable (_ = _))
  | .unlock _ => inferInstanceAs (Decidable (_ ∧ _))
  | .tcpkick _ => inferInstanceAs (Decidable (_ = _))
  | .sent _ => inferInstanceAs (Decidable (_ ∧ _))

instance (s : TimerSystem) (event : TimerEvent) : Decidable (Roomy s event) :=
  match event with
  | .timerDue => inferInstanceAs (Decidable (_ → _))
  | .timerLock | .timerSent | .timerUnlock | .receive | .received | .outLock | .outUnlock
  | .lock _ | .unlock _ | .tcpkick _ | .sent _ => inferInstanceAs (Decidable True)

instance (s : TimerSystem) : Decidable (Deadlocked s) := inferInstanceAs (Decidable (_ ∧ _))

/-- `tcpout` handles an event while other processes fill the port. -/
def filled : List TimerEvent :=
  [.receive, .tcpkick 1, .received] ++ List.replicate 20 (.tcpkick 1)

/-- A timer is due while the port is full, and the event needs `tqmutex`. -/
theorem timer_and_output_deadlock :
    let events := filled ++ [.timerLock, .timerDue, .outLock]
    Permitted step Allowed started events ∧ Deadlocked (events.foldl step started) := by
  decide +kernel

/-- A timer is due while the port has room. -/
theorem due_timer_delivered :
    let events : List TimerEvent := [.receive, .timerLock, .timerDue, .received, .outLock]
    Permitted step (fun before event => Allowed before event ∧ Roomy before event) started events ∧
      ¬ Deadlocked (events.foldl step started) := by
  have permitted : Permitted step (fun before event => Allowed before event ∧ Roomy before event)
      started [.receive, .timerLock, .timerDue, .received, .outLock] := by
    decide +kernel
  exact ⟨permitted, never_deadlocked_along_run _ (reach_of_permitted _ .start permitted)⟩

end MvsXinu.TimerPort
