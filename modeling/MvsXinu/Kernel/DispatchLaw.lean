import MvsXinu.Kernel.ReadyOrder

/-!
# The scheduling law along every run

Every reschedule dispatches the highest priority, and within it the oldest ticket, and the
null process only when nobody else is ready. `chprio`, which takes any unsigned number and
stores it as a signed one, has to be kept from giving a priority below 1.
-/

namespace MvsXinu.Kernel

open MvsXinu.Runs MvsXinu.Ranks

set_option autoImplicit false

/-- `chprio` gives no process a priority that `create` refuses. -/
def Valued (k : Xinu) : Call → Prop
  | .chprio pid newprio =>
      isbadpid pid ∨ (k.proctab pid).pstate = .free ∨ newprio.slt 1 = false
  | _ => True

/-- Whoever `ctci_write` will wake has run, so `create` has given it a priority. -/
def SleepersValued (k : Xinu) : Prop :=
  ∀ device, isbadpid (k.pidsleep device) ∨ 1 ≤ prio k (k.pidsleep device)

theorem one_le_of_slt {priority : BitVec 32} (valued : priority.slt 1 = false) :
    1 ≤ priority.toInt := by
  have one : (1 : BitVec 32).toInt = 1 := by decide
  rw [BitVec.slt_eq_decide, one, decide_eq_false_iff_not] at valued
  omega

section Priorities

variable {k : Xinu} {lists : Int → List Int}

theorem Settled.running_prio (settled : Settled k lists) (lowest : NullLowest k.proctab)
    (notNull : k.currpid ≠ nullproc) : 1 ≤ prio k k.currpid := by
  have running := settled.running
  unfold Xinu.Running at running
  exact lowest.others k.currpid settled.on.proc notNull (by rw [running]; decide)

theorem create_found (settled : Settled k lists) {stack : Bool} {priority : BitVec 32}
    (created : (create k stack priority).1 ≠ syserr) :
    priority.slt 1 = false ∧ (k.proctab (create k stack priority).1).pstate = .free := by
  rcases newpid_spec nproc.toNat k settled.nextproc with ⟨next, isNext, result, found⟩
  simp only [create] at created ⊢
  split at created
  · exact absurd rfl created
  · rename_i valid
    split at created
    · rename_i none
      exact absurd none created
    · rename_i some
      rw [if_neg valid, if_neg some]
      simp only [not_or, Bool.not_eq_true] at valid
      exact ⟨valid.1, (found.resolve_left some).2⟩

theorem Settled.null_used (settled : Settled k lists) :
    (k.proctab nullproc).pstate ≠ .free := by
  rcases settled.on.null with ready | runs
  · rw [ready]
    decide
  · rw [runs.2]
    decide

/-- A change that keeps the priority of a process in use. -/
theorem NullLowest.keep (lowest : NullLowest k.proctab) {pid : Int} {entry : Pentry}
    (same : entry.pprio = (k.proctab pid).pprio) (isProc : IsProc pid)
    (used : pid ≠ nullproc → entry.pstate ≠ .free → (k.proctab pid).pstate ≠ .free) :
    NullLowest (Function.update k.proctab pid entry) := by
  apply lowest.update
  · intro _
    exact same
  · intro notNull notFree
    rw [same]
    exact lowest.others pid isProc notNull (used notNull notFree)

theorem edited_lowest (settled : Settled k lists) (lowest : NullLowest k.proctab)
    (sleepers : SleepersValued k) {call : Call} (valued : Valued k call) :
    NullLowest (edited k call) := by
  have running := settled.running
  unfold Xinu.Running at running
  have currentUsed : (k.proctab k.currpid).pstate ≠ .free := by
    rw [running]
    decide
  have isCurrent := settled.on.proc
  cases call with
  | create stack priority =>
      simp only [edited]
      split
      · exact lowest
      · rename_i created
        rcases create_found settled created with ⟨positive, isFree⟩
        apply lowest.update
        · intro null
          rw [null] at isFree
          exact absurd isFree settled.null_used
        · intro _ _
          exact one_le_of_slt positive
  | suspend pid =>
      simp only [edited]
      split
      · exact lowest
      · rename_i valid
        simp only [not_or] at valid
        have used : (k.proctab pid).pstate ≠ .free := by
          intro isFree
          exact valid.2 ⟨by rw [isFree]; decide, by rw [isFree]; decide⟩
        exact lowest.keep rfl (isProc_of_good valid.1).1 (fun _ _ => used)
  | chprio pid newprio =>
      simp only [edited]
      split
      · exact lowest
      · rename_i valid
        simp only [not_or] at valid
        have positive := (valued.resolve_left valid.1).resolve_left valid.2
        apply lowest.update
        · intro null
          exact absurd null (isProc_of_good valid.1).2
        · intro _ _
          exact one_le_of_slt positive
  | killpid pid =>
      simp only [edited]
      split
      · exact lowest
      · rename_i valid
        simp only [not_or] at valid
        exact lowest.keep rfl (isProc_of_good valid.1).1 (fun _ _ => valid.2.1)
  | wait sem =>
      simp only [edited]
      split
      · exact lowest.keep rfl isCurrent (fun _ _ => currentUsed)
      · exact lowest
  | sleep10 n =>
      simp only [edited]
      split
      · exact lowest
      · exact lowest.keep rfl isCurrent (fun _ _ => currentUsed)
  | receive =>
      simp only [edited]
      split
      · exact lowest.keep rfl isCurrent (fun _ _ => currentUsed)
      · exact lowest
  | recvtim maxwait =>
      simp only [edited]
      split
      · exact lowest
      · exact lowest.keep rfl isCurrent (fun _ _ => currentUsed)
  | received => exact lowest.keep rfl isCurrent (fun _ _ => currentUsed)
  | xsend pid msg =>
      simp only [edited]
      split
      · exact lowest
      · rename_i valid
        simp only [not_or] at valid
        exact lowest.keep rfl (isProc_of_good valid.1).1 (fun _ _ => valid.2.1)
  | sendf pid msg =>
      simp only [edited]
      split
      · exact lowest
      · rename_i valid
        simp only [not_or] at valid
        exact lowest.keep rfl (isProc_of_good valid.1).1 (fun _ _ => valid.2)
  | ctciWrite device =>
      simp only [edited]
      split
      · exact lowest
      · rename_i good
        apply lowest.update
        · intro _
          rfl
        · intro _ _
          exact (sleepers device).resolve_left good
  | _ => exact lowest

/-- A priority of at least 1 stays one. -/
theorem edited_valued (settled : Settled k lists) {call : Call} (valued : Valued k call)
    {pid : Int} (positive : 1 ≤ prio k pid) : 1 ≤ (edited k call pid).pprio.toInt := by
  have kept : ∀ target entry, entry.pprio = (k.proctab target).pprio →
      1 ≤ (Function.update k.proctab target entry pid).pprio.toInt := by
    intro target entry same
    by_cases isTarget : pid = target
    · rw [isTarget] at positive ⊢
      rw [Function.update_self, same]
      exact positive
    · rw [Function.update_of_ne isTarget]
      exact positive
  cases call with
  | create stack priority =>
      simp only [edited]
      split
      · exact positive
      · rename_i created
        by_cases isNew : pid = (create k stack priority).1
        · rw [isNew, Function.update_self]
          exact one_le_of_slt (create_found settled created).1
        · rw [Function.update_of_ne isNew]
          exact positive
  | chprio target newprio =>
      simp only [edited]
      split
      · exact positive
      · rename_i valid
        simp only [not_or] at valid
        by_cases isTarget : pid = target
        · rw [isTarget, Function.update_self]
          exact one_le_of_slt ((valued.resolve_left valid.1).resolve_left valid.2)
        · rw [Function.update_of_ne isTarget]
          exact positive
  | suspend _ =>
      simp only [edited]
      split
      · exact positive
      · exact kept _ _ rfl
  | killpid _ =>
      simp only [edited]
      split
      · exact positive
      · exact kept _ _ rfl
  | wait _ =>
      simp only [edited]
      split
      · exact kept _ _ rfl
      · exact positive
  | sleep10 _ =>
      simp only [edited]
      split
      · exact positive
      · exact kept _ _ rfl
  | receive =>
      simp only [edited]
      split
      · exact kept _ _ rfl
      · exact positive
  | recvtim _ =>
      simp only [edited]
      split
      · exact positive
      · exact kept _ _ rfl
  | received => exact kept _ _ rfl
  | xsend _ _ =>
      simp only [edited]
      split
      · exact positive
      · exact kept _ _ rfl
  | sendf _ _ =>
      simp only [edited]
      split
      · exact positive
      · exact kept _ _ rfl
  | ctciWrite _ =>
      simp only [edited]
      split
      · exact positive
      · exact kept _ _ rfl
  | _ => exact positive

theorem sleepers_step (settled : Settled k lists) (lowest : NullLowest k.proctab)
    (sleepers : SleepersValued k) {call : Call} {scene : Scene}
    (orderly : Orderly k (call, scene)) (valued : Valued k call) :
    SleepersValued (step k call scene) := by
  have prios : ∀ pid, 1 ≤ prio k pid → 1 ≤ prio (step k call scene) pid := by
    intro pid positive
    rw [prio, (step_table settled orderly pid).pprio]
    exact edited_valued settled valued positive
  intro device
  by_cases isSleep : ∃ own, call = .ctciSleep own
  · rcases isSleep with ⟨own, isCall⟩
    rw [isCall]
    by_cases isOwn : device = own
    · have woken : (step k (.ctciSleep own) scene).pidsleep device = k.currpid := by
        rw [isOwn]
        exact Function.update_self _ _ _
      rw [woken]
      by_cases null : k.currpid = nullproc
      · left
        rw [null]
        decide
      · exact Or.inr (settled.running_prio lowest null)
    · have kept : (step k (.ctciSleep own) scene).pidsleep device = k.pidsleep device :=
        Function.update_of_ne isOwn _ _
      rw [kept]
      exact sleepers device
  · by_cases isAwake : ∃ own, call = .ctciAwake own
    · rcases isAwake with ⟨own, isCall⟩
      rw [isCall]
      by_cases isOwn : device = own
      · left
        have nobody : (step k (.ctciAwake own) scene).pidsleep device = badpid := by
          rw [isOwn]
          exact Function.update_self _ _ _
        rw [nobody]
        decide
      · have kept : (step k (.ctciAwake own) scene).pidsleep device = k.pidsleep device :=
          Function.update_of_ne isOwn _ _
        rw [kept]
        exact sleepers device
    · have kept := step_pidsleep k call scene (fun own same => isSleep ⟨own, same⟩)
        (fun own same => isAwake ⟨own, same⟩)
      rw [kept]
      exact (sleepers device).imp id (prios _)

end Priorities

/-! ## Runs -/

/-- The kernel with a ticket for each entry into the ready list. -/
structure Ticketed where
  kernel : Xinu
  tickets : Tickets Int

def ticketed (w : Ticketed) (event : Call × Scene) : Ticketed :=
  let callPart := part w.kernel event.1
  { kernel := turn w.kernel event
    tickets := (w.tickets.takes callPart.entered).takes
      (if callPart.yields then reschedEntries callPart.kernel event.2 else []) }

def unticketed : Ticketed where
  kernel := booted
  tickets := { since := fun _ => 0, count := 0 }

/-- What the reschedule at the end of a call has to do. -/
def SchedulingLaw (w : Ticketed) (event : Call × Scene) : Prop :=
  (part w.kernel event.1).yields = true →
    (ticketed w event).kernel = resched (part w.kernel event.1).kernel event.2 ∧
    Dispatched (deciding (part w.kernel event.1).kernel event.2) (ticketed w event).kernel
      (ticketed w event).tickets

def Ranking (w : Ticketed) (event : Call × Scene) : Prop :=
  Orderly w.kernel event ∧ Valued w.kernel event.1

instance (k : Xinu) (call : Call) : Decidable (Valued k call) := by
  apply Call.casesOn (motive := fun call => Decidable (Valued k call)) call <;>
    intros <;> dsimp only [Valued] <;> infer_instance

instance (w : Ticketed) (event : Call × Scene) : Decidable (Ranking w event) :=
  inferInstanceAs (Decidable (_ ∧ _))

structure Ticketed.Sound (w : Ticketed) (lists : Int → List Int) : Prop where
  settled : Settled w.kernel lists
  inLine : InLine w.kernel w.tickets
  lowest : NullLowest w.kernel.proctab
  sleepers : SleepersValued w.kernel

theorem unticketed_sound : unticketed.Sound (fun _ => []) where
  settled := booted_settled
  inLine := by
    have nobody : queued booted.q rdyhead = [] := booted_settled.on.queue
    rw [InLine, show unticketed.kernel = booted from rfl, nobody]
    exact { ranked := List.Pairwise.nil, past := fun pid member => absurd member List.not_mem_nil }
  lowest := by
    constructor
    · rfl
    · intro pid isProc notNull used
      have isFree : (booted.proctab pid).pstate = .free := if_neg notNull
      exact absurd isFree used
  sleepers := by
    intro device
    left
    show isbadpid badpid
    decide

section Run

variable {w : Ticketed} {lists : Int → List Int} {event : Call × Scene}

theorem Ticketed.Sound.part_lowest (sound : w.Sound lists) (ranking : Ranking w event) :
    NullLowest (part w.kernel event.1).kernel.proctab :=
  (edited_lowest sound.settled sound.lowest sound.sleepers ranking.2).roused
    (part_table sound.settled event.1)

theorem Ticketed.Sound.law (sound : w.Sound lists) (ranking : Ranking w event) :
    SchedulingLaw w event := by
  intro yields
  rcases part_on sound.settled ranking.1 with ⟨after, on⟩
  have line := part_inLine sound.settled sound.inLine ranking.1
  have dispatched := (resched_dispatched on line (sound.part_lowest ranking) event.2).1
  have kernel : (ticketed w event).kernel = resched (part w.kernel event.1).kernel event.2 := by
    show step w.kernel event.1 event.2 = _
    rw [step_eq_part, if_pos yields]
  have tickets : (ticketed w event).tickets =
      (w.tickets.takes (part w.kernel event.1).entered).takes
        (reschedEntries (part w.kernel event.1).kernel event.2) := by
    simp only [ticketed, yields, if_true]
  rw [kernel, tickets]
  exact ⟨rfl, dispatched⟩

theorem Ticketed.Sound.step (sound : w.Sound lists) (ranking : Ranking w event) :
    ∃ after, (ticketed w event).Sound after := by
  rcases step_becomes sound.settled ranking.1 with ⟨after, settled, rest⟩
  have line := part_inLine sound.settled sound.inLine ranking.1
  refine ⟨after, settled, ?_, ?_, ?_⟩
  · show InLine (Kernel.step w.kernel event.1 event.2) _
    rw [step_eq_part]
    simp only [ticketed]
    split
    · rcases part_on sound.settled ranking.1 with ⟨middle, on⟩
      exact (resched_dispatched on line (sound.part_lowest ranking) event.2).2
    · exact line
  · exact (edited_lowest sound.settled sound.lowest sound.sleepers ranking.2).roused
      (step_table sound.settled ranking.1)
  · exact sleepers_step sound.settled sound.lowest sound.sleepers ranking.1 ranking.2

end Run

theorem scheduling_law_along_run {w : Ticketed} (reached : Reach ticketed Ranking unticketed w)
    {event : Call × Scene} (ranking : Ranking w event) : SchedulingLaw w event := by
  have sound : ∃ lists, w.Sound lists := by
    clear ranking
    induction reached with
    | start => exact ⟨_, unticketed_sound⟩
    | step event _ ranking ih =>
        rcases ih with ⟨lists, sound⟩
        exact sound.step ranking
  rcases sound with ⟨lists, sound⟩
  exact sound.law ranking

/-- Process 49 runs, then 48, of the same priority, takes over from it. -/
def twoEquals : List (Call × Scene) :=
  [(.create true 20, calm), (.create true 20, calm), (.resume 49, calm)]

theorem unticketed_eq : unticketed =
    { kernel := { booted with q := freshq 202 }
      tickets := { since := fun _ => 0, count := 0 } } := by
  rw [unticketed, booted_eq]

theorem equal_takes_over :
    Permitted ticketed Ranking unticketed twoEquals ∧
      SchedulingLaw (twoEquals.foldl ticketed unticketed) (.resume 48, calm) := by
  have permitted : Permitted ticketed Ranking unticketed twoEquals := by
    rw [unticketed_eq]
    simp only [twoEquals, Permitted]
    decide +kernel
  have ranking : Ranking (twoEquals.foldl ticketed unticketed) (.resume 48, calm) := by
    rw [unticketed_eq]
    decide +kernel
  exact ⟨permitted, scheduling_law_along_run
    (reach_of_permitted twoEquals Reach.start permitted) ranking⟩

/-- Process 49 lowers its own priority to -1, and the null process runs in its place. -/
theorem lowered_process_below_null :
    ¬ ∀ w event, Reach ticketed (fun w event => Orderly w.kernel event) unticketed w →
      Orderly w.kernel event → SchedulingLaw w event := by
  intro always
  have permitted : Permitted ticketed (fun w event => Orderly w.kernel event) unticketed
      twoEquals := by
    rw [unticketed_eq]
    simp only [twoEquals, Permitted]
    decide +kernel
  have orderly : Orderly (twoEquals.foldl ticketed unticketed).kernel
      (.chprio 49 0xffffffff, calm) := by
    rw [unticketed_eq]
    decide +kernel
  have law := always _ _ (reach_of_permitted twoEquals Reach.start permitted) orderly
  have yields : (part (twoEquals.foldl ticketed unticketed).kernel
      (.chprio 49 0xffffffff)).yields = true := by
    rw [unticketed_eq]
    decide +kernel
  have null : (ticketed (twoEquals.foldl ticketed unticketed)
      (.chprio 49 0xffffffff, calm)).kernel.currpid = nullproc := by
    rw [unticketed_eq]
    decide +kernel
  have waits : ((ticketed (twoEquals.foldl ticketed unticketed)
      (.chprio 49 0xffffffff, calm)).kernel.proctab 49).pstate = .ready := by
    rw [unticketed_eq]
    decide +kernel
  exact (law yields).2.null null 49 ⟨by decide, by decide⟩ (by decide) waits

end MvsXinu.Kernel
