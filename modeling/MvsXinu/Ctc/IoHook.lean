import MvsXinu.Kernel.Process
import MvsXinu.Lib.Runs

/-!
# Channel ends (`iohook.c`, `ctci_ioread.c`, `ctci_iowrite.c`, `igg019x8.asm`)

Each device has a process that starts its channel programs and suspends itself until
`iohook` resumes it. `iohook` runs inside every `resched`; the `resched` that `resume` asks
for starts a further one inside it, so a process that is in `resched` may look at any device
before it is switched or returns. What the processes do apart from that is left open.
-/

namespace MvsXinu.Iohook

open MvsXinu.Kernel MvsXinu.Runs

set_option autoImplicit false

/-- The read and the write halves of the `ctcdev` blocks, of which there are `Neth`, 3. -/
abbrev Half := Fin 6

/-- Where the process of a device is: anywhere else, behind `mvsctc`, behind the `signal` that
gives up the device, and in the `suspend` that waits for the channel end. -/
inductive IoPc where
  | elsewhere | started | released | awaiting
  deriving DecidableEq

/-- `flag1` is its two bits; `busy` says that the channel program is running. Of the semaphore,
which is created with a count of one, who holds it and who waits for it is kept. -/
structure Ctdev where
  ctiopend : Bool
  ctiocomplete : Bool
  busy : Bool
  owner : Option Int
  waiting : List Int
  pc : IoPc

/-- The processes of the devices, which `ctci_init` creates. -/
structure IoProcesses where
  iopid : Half → Int
  good : ∀ device, ¬ isbadpid (iopid device)
  distinct : Function.Injective iopid

/-- `within pid` says that the process is inside `resched`. -/
structure IoSystem where
  ctcdev : Half → Ctdev
  pstate : Int → Pstate
  currpid : Int
  within : Int → Bool

def IoSystem.setDev (s : IoSystem) (device : Half) (ctdev : Ctdev) : IoSystem :=
  { s with ctcdev := Function.update s.ctcdev device ctdev }

def IoSystem.setState (s : IoSystem) (pid : Int) (state : Pstate) : IoSystem :=
  { s with pstate := Function.update s.pstate pid state }

/-- The current process calls `resched`. -/
def IoSystem.enter (s : IoSystem) : IoSystem :=
  { s with within := Function.update s.within s.currpid true }

@[simp] theorem setDev_ctcdev (s : IoSystem) (device : Half) (ctdev : Ctdev) :
    (s.setDev device ctdev).ctcdev = Function.update s.ctcdev device ctdev := rfl

@[simp] theorem setDev_pstate (s : IoSystem) (device : Half) (ctdev : Ctdev) :
    (s.setDev device ctdev).pstate = s.pstate := rfl

@[simp] theorem setState_ctcdev (s : IoSystem) (pid : Int) (state : Pstate) :
    (s.setState pid state).ctcdev = s.ctcdev := rfl

@[simp] theorem setState_pstate (s : IoSystem) (pid : Int) (state : Pstate) :
    (s.setState pid state).pstate = Function.update s.pstate pid state := rfl

@[simp] theorem enter_ctcdev (s : IoSystem) : s.enter.ctcdev = s.ctcdev := rfl

@[simp] theorem enter_pstate (s : IoSystem) : s.enter.pstate = s.pstate := rfl

/-- `resume`, which fails unless the process is suspended. -/
def resume (s : IoSystem) (pid : Int) : IoSystem :=
  if isbadpid pid ∨ s.pstate pid ≠ .susp then s else s.setState pid .ready

/-- One turn of the loop of `iohook`. -/
def iohook (procs : IoProcesses) (s : IoSystem) (device : Half) : IoSystem :=
  let pct := s.ctcdev device
  if pct.ctiocomplete then
    resume (s.setDev device { pct with ctiopend := false, ctiocomplete := false })
      (procs.iopid device)
  else s

/-- `wait` on the semaphore of the device. -/
def waitDevice (s : IoSystem) (device : Half) : IoSystem :=
  match (s.ctcdev device).owner with
  | none => s.setDev device { s.ctcdev device with owner := some s.currpid }
  | some _ =>
      ((s.setDev device
        { s.ctcdev device with waiting := (s.ctcdev device).waiting ++ [s.currpid] }).setState
          s.currpid .wait).enter

/-- `signal` on the semaphore of the device; with a process waiting it reschedules. -/
def signalDevice (s : IoSystem) (device : Half) : IoSystem :=
  match (s.ctcdev device).waiting with
  | [] => s.setDev device { s.ctcdev device with owner := none }
  | pid :: rest =>
      ((s.setDev device { s.ctcdev device with owner := some pid, waiting := rest }).setState
        pid .ready).enter

def setPc (s : IoSystem) (device : Half) (pc : IoPc) : IoSystem :=
  s.setDev device { s.ctcdev device with pc := pc }

/-- `flag1 = CTIOPEND` and the `EXCP`. -/
def start (s : IoSystem) (device : Half) : IoSystem :=
  s.setDev device
    { s.ctcdev device with ctiopend := true, ctiocomplete := false, busy := true, pc := .started }

inductive IoEvent where
  /-- The channel end appendage. -/
  | post (device : Half)
  /-- The current process, in `resched`, looks at a device. -/
  | hook (device : Half)
  /-- The current process, in `resched`, gives up the processor. -/
  | switch (pid : Int)
  /-- The current process returns from `resched`. -/
  | leave
  /-- The process of a device starts a channel program. -/
  | start (device : Half)
  /-- It gives up the device. -/
  | release (device : Half)
  /-- It suspends itself. -/
  | suspend (device : Half)
  /-- It returns from the `suspend`. -/
  | awake (device : Half)
  /-- The current process waits for the device. -/
  | wait (device : Half)
  /-- The current process gives up the device. -/
  | signal (device : Half)
  /-- The current process reschedules, in the state it has set for itself. -/
  | resched (state : Pstate)
  /-- The current process readies another one. -/
  | ready (pid : Int)
  deriving DecidableEq

def step (procs : IoProcesses) (s : IoSystem) : IoEvent → IoSystem
  | .post device => s.setDev device { s.ctcdev device with ctiocomplete := true, busy := false }
  | .hook device => iohook procs s device
  | .switch pid =>
      let left := if s.pstate s.currpid = .curr then s.setState s.currpid .ready else s
      { left.setState pid .curr with currpid := pid }
  | .leave => { s with within := Function.update s.within s.currpid false }
  | .start device => start s device
  | .release device => signalDevice (setPc s device .released) device
  | .suspend device => ((setPc s device .awaiting).setState (procs.iopid device) .susp).enter
  | .awake device => setPc s device .elsewhere
  | .wait device => waitDevice s device
  | .signal device => signalDevice s device
  | .resched state => (s.setState s.currpid state).enter
  | .ready pid => s.setState pid .ready

/-- The process is at this place of its code, and it is the one that runs. -/
def At (procs : IoProcesses) (s : IoSystem) (device : Half) (pc : IoPc) : Prop :=
  (s.ctcdev device).pc = pc ∧ s.currpid = procs.iopid device ∧
    s.pstate s.currpid = .curr ∧ s.within s.currpid = false

/-- The current process runs code that is neither `resched` nor that of a device's process
from the start of a channel program to its end. -/
def Free (procs : IoProcesses) (s : IoSystem) : Prop :=
  s.pstate s.currpid = .curr ∧ s.within s.currpid = false ∧
    ∀ device, s.currpid = procs.iopid device → (s.ctcdev device).pc = .elsewhere

/-- What can happen. A process that awaits a channel end is made ready by `iohook` alone, and
one that waits for a device by the `signal` on its semaphore. -/
def Allowed (procs : IoProcesses) (s : IoSystem) : IoEvent → Prop
  | .post device => (s.ctcdev device).busy = true
  | .hook _ => s.within s.currpid = true
  | .switch pid => s.within s.currpid = true ∧
      (s.pstate pid = .ready ∨ (pid = s.currpid ∧ s.pstate pid = .curr))
  | .leave => s.within s.currpid = true ∧ s.pstate s.currpid = .curr
  | .start device => At procs s device .elsewhere ∧ (s.ctcdev device).owner = some s.currpid
  | .release device => At procs s device .started
  | .suspend device => At procs s device .released
  | .awake device => At procs s device .awaiting
  | .wait _ => Free procs s
  | .signal device => Free procs s ∧ (s.ctcdev device).owner = some s.currpid
  | .resched _ => Free procs s
  | .ready pid => Free procs s ∧ s.pstate pid ≠ .curr ∧
      ∀ device, pid ∉ (s.ctcdev device).waiting ∧
        (pid = procs.iopid device → (s.ctcdev device).pc = .elsewhere)

/-- The process of a device that `iohook` finds complete is not on its way from the start of
the channel program to the `suspend`. -/
def Settles (s : IoSystem) : IoEvent → Prop
  | .hook device => (s.ctcdev device).ctiocomplete = true →
      (s.ctcdev device).pc ≠ .started ∧ (s.ctcdev device).pc ≠ .released
  | _ => True

/-- The process of the device is suspended until the end of a channel program, and both flags
have been cleared. -/
def Lost (procs : IoProcesses) (s : IoSystem) (device : Half) : Prop :=
  (s.ctcdev device).pc = .awaiting ∧ s.pstate (procs.iopid device) = .susp ∧
    (s.ctcdev device).ctiopend = false ∧ (s.ctcdev device).ctiocomplete = false

/-- The null process runs, and the others are ready to. -/
def idle : IoSystem where
  ctcdev := fun _ =>
    { ctiopend := false, ctiocomplete := false, busy := false, owner := none, waiting := [], pc := .elsewhere }
  pstate := fun pid => if pid = nullproc then .curr else .ready
  currpid := nullproc
  within := fun _ => false

/-! ## Completions are not lost -/

section Completion

variable {procs : IoProcesses} {s later : IoSystem} {device : Half}

/-- Until the process of a device is resumed the pending bit of its operation is set. -/
structure Expected (procs : IoProcesses) (s : IoSystem) (device : Half) : Prop where
  starting : (s.ctcdev device).pc = .started ∨ (s.ctcdev device).pc = .released →
    (s.ctcdev device).ctiopend = true
  suspended : (s.ctcdev device).pc = .awaiting → s.pstate (procs.iopid device) = .susp →
    (s.ctcdev device).ctiopend = true

theorem Expected.not_lost (expected : Expected procs s device) : ¬ Lost procs s device := by
  rintro ⟨awaiting, suspended, cleared, _⟩
  rw [expected.suspended awaiting suspended] at cleared
  cases cleared

/-- Only the place of the process and the pending bit of a device matter, and whether its
process is suspended. -/
theorem Expected.congr (expected : Expected procs s device)
    (pc : (later.ctcdev device).pc = (s.ctcdev device).pc)
    (pend : (later.ctcdev device).ctiopend = (s.ctcdev device).ctiopend)
    (state : later.pstate (procs.iopid device) = .susp →
      (s.ctcdev device).pc = .awaiting → s.pstate (procs.iopid device) = .susp) :
    Expected procs later device := by
  constructor
  · rw [pc, pend]
    exact expected.starting
  · intro awaiting suspended
    rw [pc] at awaiting
    rw [pend]
    exact expected.suspended awaiting (state suspended awaiting)

/-- No process is suspended that was not. -/
def NoneSuspended (s later : IoSystem) : Prop :=
  ∀ pid, later.pstate pid = .susp → s.pstate pid = .susp

theorem setState_noneSuspended (s : IoSystem) (pid : Int) {state : Pstate}
    (notSusp : state ≠ .susp) : NoneSuspended s (s.setState pid state) := by
  intro other suspended
  rw [setState_pstate] at suspended
  by_cases same : other = pid
  · rw [same, Function.update_self] at suspended
    exact absurd suspended notSusp
  · rwa [Function.update_of_ne same] at suspended

/-- Another device, or what does not matter of this one, has changed. -/
theorem Expected.setDev (expected : Expected procs s device) (changed : Half) (ctdev : Ctdev)
    (pc : ctdev.pc = (s.ctcdev changed).pc) (pend : ctdev.ctiopend = (s.ctcdev changed).ctiopend) :
    Expected procs (s.setDev changed ctdev) device := by
  by_cases same : device = changed
  · subst same
    apply expected.congr
    · rw [setDev_ctcdev, Function.update_self, pc]
    · rw [setDev_ctcdev, Function.update_self, pend]
    · exact fun suspended _ => suspended
  · apply expected.congr
    · rw [setDev_ctcdev, Function.update_of_ne same]
    · rw [setDev_ctcdev, Function.update_of_ne same]
    · exact fun suspended _ => suspended

theorem Expected.setState (expected : Expected procs s device) (pid : Int) {state : Pstate}
    (notSusp : state ≠ .susp) : Expected procs (s.setState pid state) device :=
  expected.congr rfl rfl (fun suspended _ => setState_noneSuspended s pid notSusp _ suspended)

theorem Expected.enter (expected : Expected procs s device) : Expected procs s.enter device :=
  expected.congr rfl rfl (fun suspended _ => suspended)

theorem signalDevice_expected (expected : Expected procs s device) (signalled : Half) :
    Expected procs (signalDevice s signalled) device := by
  unfold signalDevice
  split
  · exact expected.setDev signalled _ rfl rfl
  · apply Expected.enter
    apply Expected.setState _ _ (by decide)
    exact expected.setDev signalled _ rfl rfl

theorem waitDevice_expected (expected : Expected procs s device) (waited : Half) :
    Expected procs (waitDevice s waited) device := by
  unfold waitDevice
  split
  · exact expected.setDev waited _ rfl rfl
  · apply Expected.enter
    apply Expected.setState _ _ (by decide)
    exact expected.setDev waited _ rfl rfl

/-- The process of a device moves on. -/
theorem setPc_expected (expected : Expected procs s device) (moved : Half) (pc : IoPc)
    (own : device = moved → Expected procs (setPc s moved pc) device) :
    Expected procs (setPc s moved pc) device := by
  by_cases same : device = moved
  · exact own same
  · apply expected.congr
    · rw [setPc, setDev_ctcdev, Function.update_of_ne same]
    · rw [setPc, setDev_ctcdev, Function.update_of_ne same]
    · exact fun suspended _ => suspended

theorem resume_ctcdev (s : IoSystem) (pid : Int) : (resume s pid).ctcdev = s.ctcdev := by
  unfold resume
  split
  · rfl
  · rfl

theorem resume_resumes (s : IoSystem) {pid : Int} (good : ¬ isbadpid pid) :
    (resume s pid).pstate pid ≠ .susp := by
  unfold resume
  split
  · rename_i refused
    exact refused.resolve_left good
  · rw [setState_pstate, Function.update_self]
    decide

theorem resume_other (s : IoSystem) {pid other : Int} (away : other ≠ pid) :
    (resume s pid).pstate other = s.pstate other := by
  unfold resume
  split
  · rfl
  · rw [setState_pstate, Function.update_of_ne away]

/-- `iohook` resumes the process of a completed device, unless that is on its way to the
`suspend`. -/
theorem iohook_expected (expected : Expected procs s device) (hooked : Half)
    (settles : Settles s (.hook hooked)) : Expected procs (iohook procs s hooked) device := by
  unfold iohook
  dsimp only
  split
  · rename_i complete
    obtain ⟨notStarted, notReleased⟩ := settles complete
    by_cases same : device = hooked
    · subst same
      have resumed := resume_resumes (s.setDev device { s.ctcdev device with
        ctiopend := false, ctiocomplete := false }) (procs.good device)
      constructor
      · rw [resume_ctcdev, setDev_ctcdev, Function.update_self]
        rintro (started | released)
        · exact absurd started notStarted
        · exact absurd released notReleased
      · intro _ suspended
        exact absurd suspended resumed
    · apply expected.congr
      · rw [resume_ctcdev, setDev_ctcdev, Function.update_of_ne same]
      · rw [resume_ctcdev, setDev_ctcdev, Function.update_of_ne same]
      · intro suspended _
        rwa [resume_other _ (fun equal => same (procs.distinct equal))] at suspended
  · exact expected

theorem step_expected (expected : ∀ device, Expected procs s device) (event : IoEvent)
    (allowed : Allowed procs s event) (settles : Settles s event) :
    ∀ device, Expected procs (step procs s event) device := by
  have notReady : Pstate.ready ≠ .susp := by decide
  have notCurr : Pstate.curr ≠ .susp := by decide
  intro device
  cases event with
  | post posted => exact (expected device).setDev posted _ rfl rfl
  | hook hooked => exact iohook_expected (expected device) hooked settles
  | switch pid =>
      unfold step
      dsimp only
      split
      · exact (((expected device).setState _ notReady).setState pid notCurr).congr rfl rfl
          (fun suspended _ => suspended)
      · exact ((expected device).setState pid notCurr).congr rfl rfl
          (fun suspended _ => suspended)
  | leave => exact (expected device).congr rfl rfl (fun suspended _ => suspended)
  | start started =>
      by_cases same : device = started
      · subst same
        constructor
        · intro _
          simp [step, start]
        · simp [step, start]
      · apply (expected device).congr
        · simp [step, start, Function.update_of_ne same]
        · simp [step, start, Function.update_of_ne same]
        · exact fun suspended _ => suspended
  | release released =>
      apply signalDevice_expected
      apply setPc_expected (expected device)
      intro same
      subst same
      constructor
      · intro _
        simpa [setPc] using (expected device).starting (Or.inl allowed.1)
      · simp [setPc]
  | suspend suspended =>
      by_cases same : device = suspended
      · subst same
        constructor
        · simp [step, setPc]
        · intro _ _
          simpa [step, setPc] using (expected device).starting (Or.inr allowed.1)
      · apply (expected device).congr
        · simp [step, setPc, Function.update_of_ne same]
        · simp [step, setPc, Function.update_of_ne same]
        · intro susp _
          simpa [step, setPc, Function.update_of_ne
            (fun equal => same (procs.distinct equal))] using susp
  | awake awoken =>
      apply setPc_expected (expected device)
      intro same
      subst same
      constructor
      · simp [setPc]
      · simp [setPc]
  | wait waited => exact waitDevice_expected (expected device) waited
  | signal signalled => exact signalDevice_expected (expected device) signalled
  | resched state =>
      apply (expected device).congr
      · rfl
      · rfl
      · intro suspended awaiting
        by_cases own : procs.iopid device = s.currpid
        · rw [allowed.2.2 device own.symm] at awaiting
          cases awaiting
        · simpa [step, Function.update_of_ne own] using suspended
  | ready pid => exact (expected device).setState pid notReady

/-- As long as `iohook` finds no completed device whose process is on its way to the
`suspend`, no process is left suspended with its completion taken away. -/
theorem completions_kept_along_run (procs : IoProcesses) (state : IoSystem)
    (reached : Reach (step procs)
      (fun before event => Allowed procs before event ∧ Settles before event) idle state) :
    ∀ device, ¬ Lost procs state device := by
  have expected : ∀ device, Expected procs state device := by
    apply reached.invariant
    · intro device
      constructor
      · simp [idle]
      · simp [idle]
    · intro before event kept permitted
      exact step_expected kept event permitted.1 permitted.2
  exact fun device => (expected device).not_lost

end Completion

/-- The processes of the devices when they are created first. -/
def firstPids : IoProcesses where
  iopid := fun device => (device.val : Int) + 1
  good := by decide
  distinct := by
    intro first second same
    apply Fin.ext
    dsimp only at same
    omega

instance (procs : IoProcesses) (s : IoSystem) (device : Half) (pc : IoPc) :
    Decidable (At procs s device pc) :=
  inferInstanceAs (Decidable (_ ∧ _))

instance (procs : IoProcesses) (s : IoSystem) : Decidable (Free procs s) :=
  inferInstanceAs (Decidable (_ ∧ _))

instance (procs : IoProcesses) (s : IoSystem) (event : IoEvent) :
    Decidable (Allowed procs s event) :=
  match event with
  | .post _ => inferInstanceAs (Decidable (_ = _))
  | .hook _ => inferInstanceAs (Decidable (_ = _))
  | .switch _ => inferInstanceAs (Decidable (_ ∧ _))
  | .leave => inferInstanceAs (Decidable (_ ∧ _))
  | .start _ => inferInstanceAs (Decidable (_ ∧ _))
  | .release device => inferInstanceAs (Decidable (At procs s device .started))
  | .suspend device => inferInstanceAs (Decidable (At procs s device .released))
  | .awake device => inferInstanceAs (Decidable (At procs s device .awaiting))
  | .wait _ => inferInstanceAs (Decidable (Free procs s))
  | .signal _ => inferInstanceAs (Decidable (_ ∧ _))
  | .resched _ => inferInstanceAs (Decidable (Free procs s))
  | .ready _ => inferInstanceAs (Decidable (_ ∧ _))

instance (s : IoSystem) (event : IoEvent) : Decidable (Settles s event) :=
  match event with
  | .hook _ => inferInstanceAs (Decidable (_ → _))
  | .post _ | .switch _ | .leave | .start _ | .release _ | .suspend _ | .awake _ | .wait _
  | .signal _ | .resched _ | .ready _ => inferInstanceAs (Decidable True)

instance (procs : IoProcesses) (s : IoSystem) (device : Half) : Decidable (Lost procs s device) :=
  inferInstanceAs (Decidable (_ ∧ _))

/-- Two processes are inside `ctci_read`. The process of the device (1) and the second reader
(9) wait while the first reader (8) frees a buffer; the device then goes to 1, which starts a
read. -/
def readersQueued : List IoEvent :=
  [.resched .curr, .switch 8, .wait 0, .resched .curr, .switch 1, .wait 0, .switch 9, .wait 0,
    .switch 8, .leave, .signal 0, .switch 1, .leave, .start 0]

/-- The channel end comes before 1 gives the device to 9. -/
theorem completion_lost_in_signal :
    let events := readersQueued ++ [.post 0, .release 0, .hook 0, .leave, .suspend 0]
    Permitted (step firstPids) (Allowed firstPids) idle events ∧
      Lost firstPids (events.foldl (step firstPids) idle) 0 := by
  decide +kernel

/-- The channel end comes when 1 is suspended. -/
theorem completion_kept_in_suspend :
    let events := readersQueued ++ [.release 0, .switch 1, .leave, .suspend 0, .post 0, .hook 0]
    Permitted (step firstPids)
      (fun before event => Allowed firstPids before event ∧ Settles before event) idle events ∧
      ¬ Lost firstPids (events.foldl (step firstPids) idle) 0 := by
  have permitted : Permitted (step firstPids)
      (fun before event => Allowed firstPids before event ∧ Settles before event) idle
      (readersQueued ++ [.release 0, .switch 1, .leave, .suspend 0, .post 0, .hook 0]) := by
    decide +kernel
  exact ⟨permitted, completions_kept_along_run firstPids _
    (reach_of_permitted _ .start permitted) 0⟩

end MvsXinu.Iohook
