import MvsXinu.Lib.Register
import MvsXinu.Kernel.DispatchLaw

/-!
# The count of live processes

`create` adds 1 to `numproc` and `killpid` subtracts 1, before it looks at the state of its
target. A process that returns is marked dead by `nullkill`, in the context of `nulldisp`, and
then killed. A dead entry is kept, so `killpid` takes it again, and counts it again.
-/

namespace MvsXinu.Kernel

open MvsXinu.Runs MvsXinu.Registers

set_option autoImplicit false

/-- `register` follows the processes that `create` has made and that have not terminated. -/
structure Census where
  kernel : Xinu
  numproc : Int
  nulldisppid : Int
  sysinit : Bool
  xdone : Bool
  register : Register Int

inductive CensusEvent where
  | call (call : Call) (scene : Scene)
  | nulldisp
  | returns
  | sysinitEnds

/-- As `procinit` leaves it. -/
def procinit : Census where
  kernel := booted
  numproc := 1
  nulldisppid := 0
  sysinit := true
  xdone := false
  register := emptyRegister

/-- The counting in `killpid`, which does not return from `xdone`. -/
def Census.uncount (c : Census) (pid : Int) (killed : Xinu) : Census :=
  let counted := { c with numproc := c.numproc - 1, register := c.register.retire pid }
  if c.numproc - 1 = 0 then { counted with xdone := true } else { counted with kernel := killed }

def Census.call (c : Census) (call : Call) (scene : Scene) : Census :=
  let later := turn c.kernel (call, scene)
  match call with
  | .create stack priority =>
      let pid := (create c.kernel stack priority).1
      if pid = syserr then { c with kernel := later }
      else { c with
             kernel := later, numproc := c.numproc + 1, register := c.register.enroll pid }
  | .killpid pid =>
      if isbadpid pid ∨ (c.kernel.proctab pid).pstate = .free then { c with kernel := later }
      else c.uncount pid later
  | _ => { c with kernel := later }

/-- `nullkill` up to its call of `killpid`: `nulldisp` runs, and the process is dead. -/
def nullkill (k : Xinu) (pid newpid : Int) : Xinu :=
  ({ k with currpid := newpid }.setState newpid .curr).setState pid .dead

def censusStep (c : Census) : CensusEvent → Census
  | .call call scene => c.call call scene
  | .nulldisp => { c with nulldisppid := c.kernel.currpid }
  | .returns =>
      let pid := c.kernel.currpid
      let dead := nullkill c.kernel pid c.nulldisppid
      { c with kernel := dead }.uncount pid dead
  | .sysinitEnds => { c with numproc := c.numproc - 1, sysinit := false }

/-- What the rest of the system promises: `nulldisp` sleeps while others run, and `nulluser`
does not return. -/
def Promised (c : Census) (event : CensusEvent) : Prop :=
  c.xdone = false ∧
    match event with
    | .call call scene => Orderly c.kernel (call, scene)
    | .nulldisp => True
    | .returns => c.kernel.currpid ≠ nullproc ∧ ¬ isbadpid c.nulldisppid ∧
        (c.kernel.proctab c.nulldisppid).pstate = .susp
    | .sysinitEnds => c.sysinit = true

def Pstate.alive : Pstate → Bool
  | .free | .dead => false
  | _ => true

/-- Nobody kills a dead process, and `ctci_write` does not wake what is free or dead. -/
def SparesDead (k : Xinu) : CensusEvent → Prop
  | .call (.killpid pid) _ => isbadpid pid ∨ (k.proctab pid).pstate ≠ .dead
  | .call (.ctciWrite device) _ => isbadpid (k.pidsleep device) ∨
      (k.proctab (k.pidsleep device)).pstate.alive = true
  | _ => True

def CountedOnce (c : Census) (event : CensusEvent) : Prop :=
  Promised c event ∧ SparesDead c.kernel event

def Census.bias (c : Census) : Int := if c.sysinit then 1 else 0

structure CensusLaw (c : Census) : Prop where
  counted : c.numproc = c.bias + c.register.present.card
  present : c.xdone = false → ∀ pid, pid ∈ c.register.present ↔
    ¬ isbadpid pid ∧ (c.kernel.proctab pid).pstate.alive = true
  once : c.register.retired.Nodup
  decrements : c.numproc = c.bias + c.register.issued - c.register.retired.length
  last : c.xdone = true → c.register.present = ∅

instance (c : Census) (event : CensusEvent) : Decidable (Promised c event) := by
  cases event <;> dsimp only [Promised] <;> infer_instance

instance (k : Xinu) (event : CensusEvent) : Decidable (SparesDead k event) := by
  cases event with
  | call call scene =>
      apply Call.casesOn (motive := fun call => Decidable (SparesDead k (.call call scene))) call <;>
        intros <;> dsimp only [SparesDead] <;> infer_instance
  | _ => exact inferInstanceAs (Decidable True)

instance (c : Census) (event : CensusEvent) : Decidable (CountedOnce c event) :=
  inferInstanceAs (Decidable (_ ∧ _))

/-! ## Who is alive after a call -/

theorem Roused.alive {before after : Pentry} (roused : Roused before after) :
    after.pstate.alive = before.pstate.alive := by
  rcases roused.state with same | rises
  · rw [same]
  · have lives : after.pstate.alive = true := by
      cases state : after.pstate with
      | curr => rfl
      | ready => rfl
      | _ =>
          rw [state] at rises
          cases rises.1
    have lived : before.pstate.alive = true := by
      cases state : before.pstate with
      | free =>
          rw [state] at rises
          cases rises.2
      | dead =>
          rw [state] at rises
          cases rises.2
      | _ => rfl
    rw [lives, lived]

theorem alive_update {table : Int → Pentry} {target : Int} {entry : Pentry}
    (same : entry.pstate.alive = (table target).pstate.alive) (pid : Int) :
    (Function.update table target entry pid).pstate.alive = (table pid).pstate.alive := by
  by_cases isTarget : pid = target
  · rw [isTarget, Function.update_self]
    exact same
  · rw [Function.update_of_ne isTarget]

theorem Pstate.notified_alive (state : Pstate) (forced : Bool) :
    (state.notified forced).alive = state.alive := by
  cases state with
  | trecv =>
      cases forced with
      | _ => rfl
  | _ => rfl

section Calls

variable {k : Xinu} {lists : Int → List Int}

/-- Only `create` and `killpid` change who is alive. -/
theorem edited_alive (settled : Settled k lists) {call : Call} {scene : Scene}
    (spares : SparesDead k (.call call scene))
    (notCreate : ∀ stack priority, call ≠ .create stack priority)
    (notKill : ∀ pid, call ≠ .killpid pid) (pid : Int) :
    (edited k call pid).pstate.alive = (k.proctab pid).pstate.alive := by
  have running := settled.running
  unfold Xinu.Running at running
  have current : (k.proctab k.currpid).pstate.alive = true := by
    rw [running]
    rfl
  cases call with
  | create stack priority => exact absurd rfl (notCreate stack priority)
  | killpid target => exact absurd rfl (notKill target)
  | suspend target =>
      simp only [edited]
      split
      · rfl
      · rename_i valid
        simp only [not_or, not_and_or, not_not] at valid
        apply alive_update
        rcases valid.2 with ready | runs
        · rw [ready]
          rfl
        · rw [runs]
          rfl
  | chprio target newprio =>
      simp only [edited]
      split
      · rfl
      · apply alive_update
        rfl
  | wait sem =>
      simp only [edited]
      split
      · apply alive_update
        exact current.symm
      · rfl
  | sleep10 n =>
      simp only [edited]
      split
      · rfl
      · apply alive_update
        exact current.symm
  | receive =>
      simp only [edited]
      split
      · apply alive_update
        exact current.symm
      · rfl
  | recvtim maxwait =>
      simp only [edited]
      split
      · rfl
      · apply alive_update
        exact current.symm
  | received =>
      simp only [edited]
      apply alive_update
      rfl
  | xsend target msg =>
      simp only [edited]
      split
      · rfl
      · apply alive_update
        exact Pstate.notified_alive _ false
  | sendf target msg =>
      simp only [edited]
      split
      · rfl
      · apply alive_update
        exact Pstate.notified_alive _ true
  | ctciWrite device =>
      simp only [edited]
      split
      · rfl
      · rename_i good
        apply alive_update
        exact (spares.resolve_left good).symm
  | _ => rfl

theorem nullkill_proctab {pid newpid : Int} (away : newpid ≠ pid) (other : Int) :
    (nullkill k pid newpid).proctab other =
      if other = pid then { k.proctab pid with pstate := .dead }
      else if other = newpid then { k.proctab newpid with pstate := .curr }
      else k.proctab other := by
  simp only [nullkill, Xinu.setState, Xinu.setEntry]
  by_cases isOld : other = pid
  · rw [isOld, Function.update_self, if_pos rfl, Function.update_of_ne (Ne.symm away)]
  · rw [Function.update_of_ne isOld, if_neg isOld]
    by_cases isNew : other = newpid
    · rw [isNew, Function.update_self, if_pos rfl]
    · rw [Function.update_of_ne isNew, if_neg isNew]

theorem nullkill_settled (settled : Settled k lists) {newpid : Int}
    (notNull : k.currpid ≠ nullproc) (good : ¬ isbadpid newpid)
    (sleeps : (k.proctab newpid).pstate = .susp) :
    Settled (nullkill k k.currpid newpid) lists := by
  have running := settled.running
  unfold Xinu.Running at running
  have away : newpid ≠ k.currpid := by
    intro same
    rw [same, running] at sleeps
    cases sleeps
  have homeless : home (k.proctab newpid) = none := by
    simp only [home, sleeps]
  have table := nullkill_proctab (k := k) away
  have started : Consistent k.q (Function.update k.proctab newpid
      { k.proctab newpid with pstate := .curr }) lists := by
    apply settled.on.toConsistent.mark
    · rw [homeless]
      rfl
    · intro ready
      cases ready
    · intro waits
      cases waits
  have ended : Consistent k.q (nullkill k k.currpid newpid).proctab lists := by
    apply started.mark
    · rw [Function.update_of_ne (Ne.symm away)]
      simp only [home, running]
    · intro ready
      cases ready
    · intro waits
      cases waits
  have nullAway : newpid ≠ nullproc := (isProc_of_good good).2
  constructor
  · exact ⟨settled.nextproc, settled.nextsem⟩
  · refine { toConsistent := ended, proc := (isProc_of_good good).1, only := ?_, null := ?_ }
    · intro pid isProc current
      rw [table pid] at current
      split at current
      · cases current
      · rename_i notOld
        split at current
        · rename_i isNew
          exact isNew
        · exact absurd (settled.on.only pid isProc current) notOld
    · left
      rw [table nullproc, if_neg (Ne.symm notNull), if_neg (Ne.symm nullAway)]
      rcases settled.on.null with ready | runs
      · exact ready
      · exact absurd runs.1 notNull
  · show ((nullkill k k.currpid newpid).proctab newpid).pstate = .curr
    rw [table newpid, if_neg away, if_pos rfl]
  · exact settled.timed

theorem nullkill_alive {newpid : Int} (away : newpid ≠ k.currpid)
    (sleeps : (k.proctab newpid).pstate = .susp) (pid : Int) :
    ((nullkill k k.currpid newpid).proctab pid).pstate.alive = true ↔
      pid ≠ k.currpid ∧ (k.proctab pid).pstate.alive = true := by
  rw [nullkill_proctab away]
  split
  · rename_i same
    constructor
    · intro lives
      cases lives
    · intro both
      exact absurd same both.1
  · rename_i other
    split
    · rename_i isNew
      rw [isNew, sleeps]
      exact ⟨fun _ => ⟨away, rfl⟩, fun _ => rfl⟩
    · exact ⟨fun lives => ⟨other, lives⟩, fun both => both.2⟩

/-- A call kills its target and nobody else. -/
theorem killpid_alive (settled : Settled k lists) {pid : Int} {scene : Scene}
    (valid : ¬ (isbadpid pid ∨ (k.proctab pid).pstate = .free))
    (notDead : (k.proctab pid).pstate ≠ .dead) (other : Int) :
    ((step k (.killpid pid) scene).proctab other).pstate.alive = true ↔
      other ≠ pid ∧ (k.proctab other).pstate.alive = true := by
  have orderly : Orderly k (.killpid pid, scene) := ⟨fun _ blocks => blocks, trivial⟩
  rw [(step_table settled orderly other).alive]
  simp only [not_or] at valid
  have kills : ¬ (isbadpid pid ∨ (k.proctab pid).pstate = .free ∨
      (k.proctab pid).pstate = .dead) := not_or.mpr ⟨valid.1, not_or.mpr ⟨valid.2, notDead⟩⟩
  simp only [edited, if_neg kills]
  by_cases same : other = pid
  · rw [same, Function.update_self]
    constructor
    · intro lives
      split at lives
      · cases lives
      · cases lives
    · intro both
      exact absurd rfl both.1
  · rw [Function.update_of_ne same]
    exact ⟨fun lives => ⟨same, lives⟩, fun both => both.2⟩

theorem create_alive (settled : Settled k lists) {stack : Bool} {priority : BitVec 32}
    {scene : Scene} (created : (create k stack priority).1 ≠ syserr) (other : Int) :
    ((step k (.create stack priority) scene).proctab other).pstate.alive = true ↔
      other = (create k stack priority).1 ∨ (k.proctab other).pstate.alive = true := by
  have orderly : Orderly k (.create stack priority, scene) := ⟨fun _ blocks => blocks, trivial⟩
  rw [(step_table settled orderly other).alive]
  simp only [edited, if_neg created]
  by_cases same : other = (create k stack priority).1
  · rw [same, Function.update_self]
    exact ⟨fun _ => Or.inl rfl, fun _ => rfl⟩
  · rw [Function.update_of_ne same]
    exact ⟨Or.inr, fun either => either.resolve_left same⟩

/-- `create` does not take the entry of the null process. -/
theorem create_good (settled : Settled k lists) {stack : Bool} {priority : BitVec 32}
    (created : (create k stack priority).1 ≠ syserr) :
    ¬ isbadpid (create k stack priority).1 := by
  have isFree := (create_found settled created).2
  have notNull : (create k stack priority).1 ≠ nullproc := by
    intro same
    rw [same] at isFree
    exact settled.null_used isFree
  rcases newpid_spec nproc.toNat k settled.nextproc with ⟨next, isNext, result, found⟩
  have isProc : IsProc (create k stack priority).1 := by
    simp only [create] at created ⊢
    split at created
    · exact absurd rfl created
    · rename_i valid
      rw [if_neg valid]
      split at created
      · rename_i none
        exact absurd none created
      · rename_i some
        rw [if_neg some]
        exact (found.resolve_left some).1
  unfold IsProc at isProc
  unfold nullproc at notNull
  unfold isbadpid
  omega

end Calls

/-! ## The law -/

structure Census.Sound (c : Census) (lists : Int → List Int) : Prop where
  settled : Settled c.kernel lists
  register : c.register.Sound
  counted : c.numproc = c.bias + c.register.present.card
  present : c.xdone = false → ∀ pid, pid ∈ c.register.present ↔
    ¬ isbadpid pid ∧ (c.kernel.proctab pid).pstate.alive = true
  last : c.xdone = true → c.register.present = ∅

theorem Census.Sound.law {c : Census} {lists : Int → List Int} (sound : c.Sound lists) :
    CensusLaw c where
  counted := sound.counted
  present := sound.present
  once := sound.register.once
  decrements := by
    have counted := sound.counted
    have balance := sound.register.balance
    omega
  last := sound.last

section Steps

variable {c : Census} {lists after : Int → List Int}

theorem procinit_sound : procinit.Sound (fun _ => []) where
  settled := booted_settled
  register := emptyRegister_sound
  counted := rfl
  present := by
    intro _ pid
    constructor
    · intro member
      exact absurd member (Finset.notMem_empty pid)
    · intro both
      have notNull : pid ≠ nullproc := (isProc_of_good both.1).2
      have isFree : (procinit.kernel.proctab pid).pstate = .free := if_neg notNull
      rw [isFree] at both
      cases both.2
  last := fun ended => by cases ended

/-- A call after which the same processes are alive. -/
theorem Census.Sound.same (sound : c.Sound lists) (running : c.xdone = false) {later : Xinu}
    (settled : Settled later after)
    (same : ∀ pid, (later.proctab pid).pstate.alive = (c.kernel.proctab pid).pstate.alive) :
    Census.Sound { c with kernel := later } after where
  settled := settled
  register := sound.register
  counted := sound.counted
  present := by
    intro _ pid
    rw [same pid]
    exact sound.present running pid
  last := sound.last

/-- One process more has terminated: one is subtracted, and at 0 nobody is left. -/
theorem Census.Sound.uncount (sound : c.Sound lists) (running : c.xdone = false) {pid : Int}
    (good : ¬ isbadpid pid) (lives : (c.kernel.proctab pid).pstate.alive = true)
    {kernel killed : Xinu} (before : Settled kernel lists) (settled : Settled killed after)
    (kills : ∀ other, (killed.proctab other).pstate.alive = true ↔
      other ≠ pid ∧ (c.kernel.proctab other).pstate.alive = true) :
    ∃ lists, (Census.uncount { c with kernel := kernel } pid killed).Sound lists := by
  have isPresent : pid ∈ c.register.present := (sound.present running pid).mpr ⟨good, lives⟩
  have counted := sound.counted
  have erased : (c.register.retire pid).present.card = c.register.present.card - 1 :=
    Finset.card_erase_of_mem isPresent
  have positive : 0 < c.register.present.card := Finset.card_pos.mpr ⟨pid, isPresent⟩
  have balance : c.numproc - 1 = c.bias + (c.register.retire pid).present.card := by
    rw [erased]
    omega
  simp only [Census.uncount]
  split
  · rename_i zero
    refine ⟨lists, before, sound.register.retire isPresent, balance, ?_, ?_⟩
    · intro ended
      cases ended
    · intro _
      have notNegative : 0 ≤ c.bias := by
        simp only [Census.bias]
        split
        · decide
        · decide
      have nobody : (c.register.retire pid).present.card = 0 := by omega
      exact Finset.card_eq_zero.mp nobody
  · refine ⟨after, settled, sound.register.retire isPresent, balance, ?_, ?_⟩
    · intro _ other
      rw [kills other]
      have member : other ∈ (c.register.retire pid).present ↔
          other ≠ pid ∧ other ∈ c.register.present := Finset.mem_erase
      rw [member, sound.present running other]
      constructor
      · intro all
        exact ⟨all.2.1, all.1, all.2.2⟩
      · intro all
        exact ⟨all.2.1, all.1, all.2.2⟩
    · intro ended
      rw [show c.xdone = false from running] at ended
      cases ended

theorem Census.Sound.call (sound : c.Sound lists) {call : Call} {scene : Scene}
    (counted : CountedOnce c (.call call scene)) :
    ∃ after, (c.call call scene).Sound after := by
  rcases counted with ⟨⟨running, orderly⟩, spares⟩
  rcases step_becomes sound.settled orderly with ⟨after, settled, rest⟩
  have table := step_table sound.settled orderly
  have others : (∀ stack priority, call ≠ .create stack priority) →
      (∀ pid, call ≠ .killpid pid) →
      Census.Sound { c with kernel := turn c.kernel (call, scene) } after := by
    intro notCreate notKill
    apply sound.same running settled
    intro pid
    exact (table pid).alive.trans (edited_alive sound.settled spares notCreate notKill pid)
  have unedited : edited c.kernel call = c.kernel.proctab →
      Census.Sound { c with kernel := turn c.kernel (call, scene) } after := by
    intro same
    apply sound.same running settled
    intro pid
    have roused := table pid
    rw [same] at roused
    exact roused.alive
  cases call with
  | create stack priority =>
      simp only [Census.call]
      split
      · rename_i none
        exact ⟨after, unedited (if_pos none)⟩
      · rename_i created
        have isFree := (create_found sound.settled created).2
        have isNew : (create c.kernel stack priority).1 ∉ c.register.present := by
          intro member
          have lives := ((sound.present running _).mp member).2
          rw [isFree] at lives
          cases lives
        refine ⟨after, settled, sound.register.enroll isNew, ?_, ?_, ?_⟩
        · show c.numproc + 1 = c.bias + (Insert.insert _ c.register.present).card
          rw [Finset.card_insert_of_notMem isNew]
          have before := sound.counted
          push_cast
          omega
        · intro _ pid
          have member : pid ∈ (c.register.enroll (create c.kernel stack priority).1).present ↔
              pid = (create c.kernel stack priority).1 ∨ pid ∈ c.register.present :=
            Finset.mem_insert
          have lives : ((step c.kernel (.create stack priority) scene).proctab pid).pstate.alive =
              true ↔ pid = (create c.kernel stack priority).1 ∨
                (c.kernel.proctab pid).pstate.alive = true :=
            create_alive sound.settled created pid
          show pid ∈ (c.register.enroll (create c.kernel stack priority).1).present ↔
            ¬ isbadpid pid ∧
              ((step c.kernel (.create stack priority) scene).proctab pid).pstate.alive = true
          rw [member, lives, sound.present running pid]
          constructor
          · intro either
            rcases either with isNew | before
            · rw [isNew]
              exact ⟨create_good sound.settled created, Or.inl rfl⟩
            · exact ⟨before.1, Or.inr before.2⟩
          · intro both
            rcases both.2 with isNew | alive
            · exact Or.inl isNew
            · exact Or.inr ⟨both.1, alive⟩
        · intro ended
          rw [show c.xdone = false from running] at ended
          cases ended
  | killpid pid =>
      simp only [Census.call]
      split
      · rename_i refused
        have same : edited c.kernel (.killpid pid) = c.kernel.proctab := by
          simp only [edited]
          rw [if_pos]
          rcases refused with bad | isFree
          · exact Or.inl bad
          · exact Or.inr (Or.inl isFree)
        exact ⟨after, unedited same⟩
      · rename_i valid
        have good : ¬ isbadpid pid := fun bad => valid (Or.inl bad)
        have notDead := spares.resolve_left good
        have lives : (c.kernel.proctab pid).pstate.alive = true := by
          cases state : (c.kernel.proctab pid).pstate with
          | free => exact absurd (Or.inr state) valid
          | dead => exact absurd state notDead
          | _ => rfl
        exact sound.uncount running good lives sound.settled settled
          (killpid_alive sound.settled valid notDead)
  | _ =>
      refine ⟨after, others ?_ ?_⟩
      · intro _ _ same
        cases same
      · intro _ same
        cases same

theorem Census.Sound.step (sound : c.Sound lists) {event : CensusEvent}
    (counted : CountedOnce c event) : ∃ after, (censusStep c event).Sound after := by
  cases event with
  | call call scene => exact sound.call counted
  | nulldisp =>
      exact ⟨lists, sound.settled, sound.register, sound.counted, sound.present, sound.last⟩
  | returns =>
      rcases counted with ⟨⟨running, notNull, good, sleeps⟩, spares⟩
      have isRunning := sound.settled.running
      unfold Xinu.Running at isRunning
      have away : c.nulldisppid ≠ c.kernel.currpid := by
        intro same
        rw [same, isRunning] at sleeps
        cases sleeps
      have isGood : ¬ isbadpid c.kernel.currpid := by
        have isProc := sound.settled.on.proc
        unfold IsProc at isProc
        unfold nullproc at notNull
        unfold isbadpid
        omega
      have settled := nullkill_settled sound.settled notNull good sleeps
      have lives : (c.kernel.proctab c.kernel.currpid).pstate.alive = true := by
        rw [isRunning]
        rfl
      exact sound.uncount running isGood lives settled settled (nullkill_alive away sleeps)
  | sysinitEnds =>
      rcases counted with ⟨⟨running, booting⟩, spares⟩
      refine ⟨lists, sound.settled, sound.register, ?_, sound.present, sound.last⟩
      have before := sound.counted
      have one : c.bias = 1 := by
        simp only [Census.bias]
        rw [if_pos booting]
      show c.numproc - 1 = 0 + (c.register.present.card : Int)
      omega

end Steps

theorem process_count_along_run {c : Census} (reached : Reach censusStep CountedOnce procinit c) :
    CensusLaw c := by
  have sound : ∃ lists, c.Sound lists := by
    induction reached with
    | start => exact ⟨_, procinit_sound⟩
    | step event _ counted ih =>
        rcases ih with ⟨lists, sound⟩
        exact sound.step counted
  rcases sound with ⟨lists, sound⟩
  exact sound.law

/-- `nulldisp` is process 49, and process 48 runs and returns. -/
def oneReturns : List CensusEvent :=
  [.call (.create true 127) calm, .call (.resume 49) calm, .nulldisp, .call (.suspend 49) calm,
    .call (.create true 20) calm, .call (.resume 48) calm, .returns]

theorem procinit_eq : procinit =
    { kernel := { booted with q := freshq 202 }
      numproc := 1
      nulldisppid := 0
      sysinit := true
      xdone := false
      register := emptyRegister } := by
  rw [procinit, booted_eq]

theorem one_returned :
    Permitted censusStep CountedOnce procinit oneReturns ∧
      CensusLaw (oneReturns.foldl censusStep procinit) := by
  have permitted : Permitted censusStep CountedOnce procinit oneReturns := by
    rw [procinit_eq]
    simp only [oneReturns, Permitted]
    decide +kernel
  exact ⟨permitted, process_count_along_run (reach_of_permitted oneReturns Reach.start permitted)⟩

/-- Process 49 kills itself, and is killed again. -/
def deadKilled : List CensusEvent :=
  [.call (.create true 20) calm, .call (.resume 49) calm, .call (.killpid 49) calm,
    .call (.killpid 49) calm]

theorem killed_dead_counts_twice :
    ¬ ∀ c, Reach censusStep Promised procinit c → CensusLaw c := by
  intro always
  have permitted : Permitted censusStep Promised procinit deadKilled := by
    rw [procinit_eq]
    simp only [deadKilled, Permitted]
    decide +kernel
  have reached := reach_of_permitted deadKilled Reach.start permitted
  have twice : (deadKilled.foldl censusStep procinit).register.retired = [0, 0] := by
    rw [procinit_eq]
    decide +kernel
  have once := (always _ reached).once
  rw [twice] at once
  cases once with
  | cons fresh _ => exact fresh 0 (List.mem_singleton_self 0) rfl

end MvsXinu.Kernel
