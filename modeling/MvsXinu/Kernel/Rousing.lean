import MvsXinu.Kernel.SemaphoreOrder

/-!
# What scheduling does to the process table

Readying, waking and dispatching change nothing in an entry but its state, and that only to
ready or running. A process that is free, dead or blocked in `receive` they leave alone.
-/

namespace MvsXinu.Kernel

set_option autoImplicit false

/-- Asleep in a way that scheduling does not end. -/
def Pstate.deaf : Pstate → Bool
  | .free | .recv | .dead => true
  | _ => false

def Pstate.up : Pstate → Bool
  | .ready | .curr => true
  | _ => false

structure Roused (before after : Pentry) : Prop where
  rest : after = { before with pstate := after.pstate }
  state : after.pstate = before.pstate ∨
    (after.pstate.up = true ∧ before.pstate.deaf = false)

/-- The same for the whole table. -/
def RousedAll (k later : Xinu) : Prop := ∀ pid, Roused (k.proctab pid) (later.proctab pid)

theorem Roused.refl (entry : Pentry) : Roused entry entry where
  rest := rfl
  state := Or.inl rfl

theorem Pstate.not_deaf_of_up {state : Pstate} (up : state.up = true) : state.deaf = false := by
  cases state with
  | curr => rfl
  | ready => rfl
  | _ => cases up

theorem Roused.trans {first second third : Pentry} (before : Roused first second)
    (behind : Roused second third) : Roused first third := by
  have rest := behind.rest
  rw [before.rest] at rest
  constructor
  · exact rest
  · rcases behind.state with same | rises
    · rw [same]
      exact before.state
    · rcases before.state with kept | up
      · rw [← kept]
        exact Or.inr rises
      · exact Or.inr ⟨rises.1, up.2⟩

theorem Roused.pprio {before after : Pentry} (roused : Roused before after) :
    after.pprio = before.pprio := by
  rw [roused.rest]

theorem Roused.pmsg {before after : Pentry} (roused : Roused before after) :
    after.pmsg = before.pmsg := by
  rw [roused.rest]

theorem Roused.phasmsg {before after : Pentry} (roused : Roused before after) :
    after.phasmsg = before.phasmsg := by
  rw [roused.rest]

/-- Being deaf is neither lost nor gained. -/
theorem Roused.deaf_state {before after : Pentry} (roused : Roused before after)
    (deaf : before.pstate.deaf = true ∨ after.pstate.deaf = true) :
    after.pstate = before.pstate := by
  rcases roused.state with same | rises
  · exact same
  · rcases deaf with was | is
    · rw [rises.2] at was
      cases was
    · rw [Pstate.not_deaf_of_up rises.1] at is
      cases is

/-- A process that is not up has not been touched. -/
theorem Roused.idle_state {before after : Pentry} (roused : Roused before after)
    (idle : after.pstate.up = false) : after.pstate = before.pstate := by
  rcases roused.state with same | rises
  · exact same
  · rw [rises.1] at idle
    cases idle

theorem RousedAll.refl (k : Xinu) : RousedAll k k := fun _ => Roused.refl _

theorem RousedAll.trans {first second third : Xinu} (before : RousedAll first second)
    (behind : RousedAll second third) : RousedAll first third :=
  fun pid => (before pid).trans (behind pid)

section Steps

variable {k : Xinu} {lists : Int → List Int}

theorem setState_roused {pid : Int} {state : Pstate} (up : state.up = true)
    (hears : (k.proctab pid).pstate.deaf = false) : RousedAll k (k.setState pid state) := by
  intro other
  simp only [Xinu.setState, Xinu.setEntry]
  by_cases same : other = pid
  · rw [same, Function.update_self]
    exact { rest := rfl, state := Or.inr ⟨up, hears⟩ }
  · rw [Function.update_of_ne same]
    exact Roused.refl _

theorem readyNo_roused {pid : Int}
    (hears : ¬ isbadpid pid → (k.proctab pid).pstate.deaf = false) :
    RousedAll k (readyNo k pid) := by
  rw [readyNo]
  split
  · exact RousedAll.refl k
  · rename_i good
    exact setState_roused rfl (hears good)

/-- The state of a process on a list. -/
theorem Board.listed_hears {q : Qtab} {proctab : Int → Pentry} {currpid head pid : Int}
    (board : Board q proctab currpid lists) (isHead : Head head) (member : pid ∈ lists head) :
    (proctab pid).pstate.deaf = false := by
  have isHome := ((board.member head pid isHead).mp member).2
  cases state : (proctab pid).pstate with
  | free => simp [home, state] at isHome
  | recv => simp [home, state] at isHome
  | dead => simp [home, state] at isHome
  | _ => rfl

theorem readyFirst_roused (on : k.On lists) {head : Int} (isHead : Head head) :
    RousedAll k (readyFirst k head) := by
  cases found : lists head with
  | nil =>
      rw [readyFirst_empty on isHead found]
      exact RousedAll.refl k
  | cons pid rest =>
      have hears := Board.listed_hears on isHead (by rw [found]; exact List.mem_cons_self)
      rw [readyFirst, on.threaded.getfirst_cons isHead found]
      exact readyNo_roused (k := { k with q := dequeue k.q pid }) (fun _ => hears)

theorem iohook_roused (done : List Int) : ∀ k : Xinu, RousedAll k (iohook k done) := by
  induction done with
  | nil => exact RousedAll.refl
  | cons iopid others ih =>
      intro k
      rw [iohook]
      split
      · exact ih k
      · rename_i resumes
        simp only [not_or, not_not] at resumes
        have hears : (k.proctab iopid).pstate.deaf = false := by
          rw [resumes.2]
          rfl
        exact (readyNo_roused (fun _ => hears)).trans (ih _)

theorem wakeupLoop_roused (fuel : Nat) : ∀ (k : Xinu) (lists : Int → List Int), k.On lists →
    RousedAll k (wakeupLoop fuel k) := by
  induction fuel with
  | zero =>
      intro k lists on
      exact RousedAll.refl k
  | succ fuel ih =>
      intro k lists on
      rw [wakeupLoop]
      split
      · rename_i wakes
        rcases List.exists_cons_of_ne_nil
          (fun none => wakes.1 ((on.threaded.isempty_iff clockq_head).mpr none))
          with ⟨pid, rest, found⟩
        rcases readyFirst_on on clockq_head (by decide) found with ⟨readied, onReadied, same⟩
        exact (readyFirst_roused on clockq_head).trans (ih _ readied onReadied)
      · exact RousedAll.refl k

theorem wakeup_proctab (k : Xinu) : (wakeup k).proctab = (wakeupLoop nqent k).proctab := by
  simp only [wakeup]
  split
  · rfl
  · rfl

theorem wakeup_roused (on : k.On lists) : RousedAll k (wakeup k) := by
  intro pid
  rw [wakeup_proctab]
  exact wakeupLoop_roused nqent k lists on pid

theorem preempted_roused (k : Xinu) : RousedAll k (preempted k) := by
  rw [preempted]
  split
  · rename_i current
    have hears : (k.proctab k.currpid).pstate.deaf = false := by
      rw [current]
      rfl
    exact setState_roused rfl hears
  · exact RousedAll.refl k

/-- The process at the end of the ready list, which is there when nobody runs. -/
theorem ready_last (on : k.On lists) (idle : ¬ k.Running) :
    ∃ others top, lists rdyhead = others ++ [top] ∧
      getlast k.q rdytail = (top, dequeue k.q top) := by
  have nullReady : (k.proctab nullproc).pstate = .ready := by
    rcases on.null with ready | runs
    · exact ready
    · have current := runs.2
      rw [← runs.1] at current
      exact absurd current idle
  have nullIn : nullproc ∈ lists rdyhead :=
    (on.member rdyhead nullproc rdyhead_head).mpr ⟨⟨by decide, by decide⟩, home_ready nullReady⟩
  rcases (lists rdyhead).eq_nil_or_concat.resolve_left (List.ne_nil_of_mem nullIn)
    with ⟨others, top, found⟩
  rw [List.concat_eq_append] at found
  exact ⟨others, top, found, on.threaded.getlast_concat rdyhead_head found⟩

theorem dispatch_roused (on : k.On lists) (idle : ¬ k.Running) : RousedAll k (dispatch k) := by
  rcases ready_last on idle with ⟨others, top, found, last⟩
  have hears := Board.listed_hears on rdyhead_head
    (show top ∈ lists rdyhead by rw [found]; exact List.mem_append_right _ List.mem_cons_self)
  rw [dispatch, last]
  exact setState_roused (k := { k with q := dequeue k.q top, currpid := top }) rfl hears

theorem resched_roused (on : k.On lists) (scene : Scene) : RousedAll k (resched k scene) := by
  rcases iohook_on scene.done k lists on with ⟨hooked, onHooked, sameHooked⟩
  rcases wakeup_on onHooked with ⟨woken, onWoken, timed, sameWoken⟩
  have before := (iohook_roused scene.done k).trans (wakeup_roused onHooked)
  simp only [resched]
  split
  · exact before
  · rcases preempted_on onWoken with ⟨waiting, onWaiting, idle, sameWaiting⟩
    exact (before.trans (preempted_roused _)).trans (dispatch_roused onWaiting idle)

end Steps

end MvsXinu.Kernel
