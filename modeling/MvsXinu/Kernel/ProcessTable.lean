import MvsXinu.Kernel.CallParts

/-!
# What a call makes of the process table

`edited` is the table as the call itself writes it. A step leaves that table, but for the
processes that scheduling has roused.
-/

namespace MvsXinu.Kernel

set_option autoImplicit false

/-- The state of a receiver after a message for it. -/
def Pstate.notified (state : Pstate) (forced : Bool) : Pstate :=
  match state with
  | .recv => .ready
  | .trecv => if forced then .trecv else .ready
  | other => other

def edited (k : Xinu) (call : Call) : Int → Pentry :=
  match call with
  | .create stack priority =>
      if (create k stack priority).1 = syserr then k.proctab
      else Function.update k.proctab (create k stack priority).1
        { pstate := .susp, pprio := priority, psem := 0, phasmsg := 0, pmsg := 0 }
  | .suspend pid =>
      if isbadpid pid ∨ ((k.proctab pid).pstate ≠ .ready ∧ (k.proctab pid).pstate ≠ .curr) then
        k.proctab
      else Function.update k.proctab pid { k.proctab pid with pstate := .susp }
  | .chprio pid newprio =>
      if isbadpid pid ∨ (k.proctab pid).pstate = .free then k.proctab
      else Function.update k.proctab pid { k.proctab pid with pprio := newprio }
  | .killpid pid =>
      if isbadpid pid ∨ (k.proctab pid).pstate = .free ∨ (k.proctab pid).pstate = .dead then
        k.proctab
      else Function.update k.proctab pid
        { k.proctab pid with
          pstate := if (k.proctab pid).pstate = .curr then .dead else .free }
  | .wait sem =>
      if ¬ unusable k sem ∧ ((k.semaph sem).semcnt - 1).slt 0 then
        Function.update k.proctab k.currpid
          { k.proctab k.currpid with pstate := .wait, psem := sem }
      else k.proctab
  | .sleep10 n =>
      if (n.slt 0 ∨ k.clkruns = false) ∨ n = 0 then k.proctab
      else Function.update k.proctab k.currpid { k.proctab k.currpid with pstate := .sleep }
  | .receive =>
      if (k.proctab k.currpid).phasmsg = 0 then
        Function.update k.proctab k.currpid { k.proctab k.currpid with pstate := .recv }
      else k.proctab
  | .recvtim maxwait =>
      if (maxwait.slt 0 ∨ k.clkruns = false) ∨ (k.proctab k.currpid).phasmsg ≠ 0 then k.proctab
      else Function.update k.proctab k.currpid { k.proctab k.currpid with pstate := .trecv }
  | .received =>
      Function.update k.proctab k.currpid { k.proctab k.currpid with phasmsg := 0 }
  | .xsend pid msg =>
      if isbadpid pid ∨ (k.proctab pid).pstate = .free ∨ (k.proctab pid).phasmsg ≠ 0 then
        k.proctab
      else Function.update k.proctab pid
        { k.proctab pid with
          pmsg := msg, phasmsg := 1, pstate := (k.proctab pid).pstate.notified false }
  | .sendf pid msg =>
      if isbadpid pid ∨ (k.proctab pid).pstate = .free then k.proctab
      else Function.update k.proctab pid
        { k.proctab pid with
          pmsg := msg, phasmsg := (k.proctab pid).phasmsg + 1
          pstate := (k.proctab pid).pstate.notified true }
  | .ctciWrite device =>
      if isbadpid (k.pidsleep device) then k.proctab
      else Function.update k.proctab (k.pidsleep device)
        { k.proctab (k.pidsleep device) with pstate := .ready }
  | _ => k.proctab

section Parts

variable {k : Xinu} {lists : Int → List Int}

theorem signalOnce_roused (settled : Settled k lists) {sem : Int} (good : ¬ isbadsem sem) :
    RousedAll k (signalOnce k sem) := by
  have counted := settled.setSem sem
    { k.semaph sem with semcnt := (k.semaph sem).semcnt + 1 }
  simp only [signalOnce]
  split
  · exact readyFirst_roused counted.on (sqhead_head good)
  · exact RousedAll.refl k

theorem signalTimes_roused {sem : Int} (good : ¬ isbadsem sem) (count : Nat) :
    ∀ (k : Xinu) (lists : Int → List Int), Settled k lists →
      RousedAll k (signalTimes sem count k) := by
  induction count with
  | zero =>
      intro k lists settled
      exact RousedAll.refl k
  | succ count ih =>
      intro k lists settled
      rcases signalOnce_becomes settled good with ⟨after, settledAfter, rest⟩
      exact (signalOnce_roused settled good).trans (ih _ after settledAfter)

theorem readyAll_roused {head : Int} (isHead : Head head) (away : head ≠ rdyhead) (fuel : Nat) :
    ∀ (k : Xinu) (lists : Int → List Int), k.On lists → RousedAll k (readyAll head fuel k) := by
  induction fuel with
  | zero =>
      intro k lists on
      exact RousedAll.refl k
  | succ fuel ih =>
      intro k lists on
      rw [readyAll]
      split
      · exact RousedAll.refl k
      · rename_i taken
        cases found : lists head with
        | nil =>
            rw [on.threaded.getfirst_nil isHead found] at taken
            exact absurd rfl taken
        | cons pid rest =>
            rcases readyFirst_on on isHead away found with ⟨after, onAfter, same⟩
            exact (readyFirst_roused on isHead).trans (ih _ after onAfter)

theorem readyNo_proctab {pid : Int} (good : ¬ isbadpid pid) (k : Xinu) :
    (readyNo k pid).proctab =
      Function.update k.proctab pid { k.proctab pid with pstate := .ready } := by
  rw [readyNo, if_neg good]
  rfl

theorem roused_of_eq {before after : Int → Pentry} (same : after = before) :
    ∀ pid, Roused (before pid) (after pid) := by
  intro pid
  rw [same]
  exact Roused.refl _

theorem create_proctab (settled : Settled k lists) (stack : Bool) (priority : BitVec 32) :
    (create k stack priority).2.proctab = edited k (.create stack priority) := by
  rcases newpid_spec nproc.toNat k settled.nextproc with ⟨next, isNext, result, found⟩
  have tables : (newpid nproc.toNat k).2.proctab = k.proctab := by
    rw [result]
  simp only [edited, create]
  split
  · rfl
  · split
    · exact tables
    · simp only [Xinu.setEntry, tables]

theorem screate_proctab (settled : Settled k lists) (count : BitVec 32) :
    (screate k count).2.proctab = k.proctab := by
  rcases newsem_spec nsem.toNat k settled.nextsem with ⟨next, isNext, found⟩
  simp only [screate]
  rcases found with none | ⟨sem, good, isFree, taken⟩
  · rw [none]
    rfl
  · rw [taken]
    split
    · rfl
    · rfl

theorem killpid_proctab (pid : Int)
    (other : ¬ (¬ isbadpid pid ∧ (k.proctab pid).pstate = .curr)) (scene : Scene) :
    (killpid k scene pid).2.proctab = edited k (.killpid pid) := by
  simp only [edited, killpid]
  by_cases bad : isbadpid pid
  · simp [bad]
  · have notCurr : (k.proctab pid).pstate ≠ .curr := fun current => other ⟨bad, current⟩
    cases state : (k.proctab pid).pstate with
    | curr => exact absurd state notCurr
    | _ => simp [bad, Xinu.setState, Xinu.setEntry, Xinu.setCount, Xinu.setSem, unsleep_proctab]

/-- The table when a call has done its part. -/
theorem part_table (settled : Settled k lists) (call : Call) :
    ∀ pid, Roused (edited k call pid) ((part k call).kernel.proctab pid) := by
  cases call with
  | create stack priority => exact roused_of_eq (create_proctab settled stack priority)
  | resume pid =>
      simp only [part]
      split
      · rename_i refused
        apply roused_of_eq
        simp only [idlePart, step, resume, if_pos refused, edited]
      · rename_i suspended
        simp only [not_or, not_not] at suspended
        apply readyNo_roused
        intro good
        rw [suspended.2]
        rfl
  | suspend pid =>
      apply roused_of_eq
      have null : pid = nullproc → isbadpid pid := by
        intro same
        rw [same]
        decide
      by_cases bad : isbadpid pid
      · simp [part, idlePart, step, suspend, edited, bad]
      · have notNull : pid ≠ nullproc := fun same => bad (null same)
        cases state : (k.proctab pid).pstate <;>
          simp [part, idlePart, step, suspend, edited, bad, notNull, state, Xinu.setState,
            Xinu.setEntry]
  | chprio pid newprio =>
      apply roused_of_eq
      by_cases bad : isbadpid pid
      · simp [part, idlePart, step, chprio, edited, bad]
      · cases state : (k.proctab pid).pstate <;>
          simp [part, idlePart, step, chprio, edited, bad, state, Xinu.setEntry]
  | killpid pid =>
      apply roused_of_eq
      simp only [part]
      split
      · rename_i current
        simp [edited, current.1, current.2, Xinu.setState, Xinu.setEntry]
      · rename_i other
        exact killpid_proctab pid other calm
  | screate count =>
      exact roused_of_eq (screate_proctab settled count)
  | wait sem =>
      apply roused_of_eq
      simp only [part, edited]
      split
      · rfl
      · rename_i stays
        simp only [idlePart, step, wait_eq, if_neg stays]
        split
        · rfl
        · rfl
  | xsignal sem =>
      simp only [part, edited]
      split
      · rename_i signals
        exact signalOnce_roused settled (fun bad => signals.1 (Or.inl bad))
      · rename_i returns
        by_cases refused : unusable k sem
        · apply roused_of_eq
          simp only [idlePart, step, xsignal, if_pos refused]
        · have stays : ¬ ((k.semaph sem).semcnt.slt 0 ∧
              ¬ isbadpid (getfirst k.q (sqhead sem)).1) := fun both => returns ⟨refused, both⟩
          simp only [idlePart, step, xsignal_eq k calm refused, if_neg stays]
          exact signalOnce_roused settled (fun bad => refused (Or.inl bad))
  | signaln sem count =>
      simp only [part, edited]
      split
      · rename_i refused
        apply roused_of_eq
        simp only [idlePart, step, signaln, if_pos refused]
      · rename_i valid
        exact signalTimes_roused (fun bad => valid (Or.inl (Or.inl bad))) count.toNat k lists
          settled
  | sreset sem count =>
      simp only [part, edited]
      split
      · rename_i refused
        apply roused_of_eq
        simp only [idlePart, step, sreset, if_pos refused]
      · rename_i valid
        have good : ¬ isbadsem sem := fun bad => valid (Or.inl bad)
        exact readyAll_roused (sqhead_head good) (sqhead_ne good).1 nqent k lists settled.on
  | sdelete sem =>
      simp only [part, edited]
      split
      · rename_i idle
        apply roused_of_eq
        simp only [idlePart, step, sdelete]
        split
        · rfl
        · rename_i usable
          rw [if_pos (idle.resolve_left usable)]
          rfl
      · rename_i valid
        have good : ¬ isbadsem sem := fun bad => valid (Or.inl (Or.inl bad))
        exact readyAll_roused (sqhead_head good) (sqhead_ne good).1 nqent _ lists
          (settled.setSem sem _).on
  | sleep10 n =>
      apply roused_of_eq
      simp only [part, edited]
      by_cases refused : n.slt 0 ∨ k.clkruns = false
      · simp only [idlePart, step, sleep10, refused, true_or, if_true]
      · rw [if_neg refused]
        by_cases zero : n = 0
        · simp only [zero, or_true, if_true]
        · simp only [refused, zero, or_self, if_false]
          rfl
  | receive =>
      apply roused_of_eq
      simp only [part, edited]
      split
      · rfl
      · rename_i some
        simp only [idlePart, step, receive, if_neg some]
  | recvtim maxwait =>
      apply roused_of_eq
      simp only [part, edited]
      split
      · rename_i returns
        simp only [idlePart, step, recvtim]
        split
        · rfl
        · rename_i valid
          rw [if_neg (returns.resolve_left valid)]
      · rfl
  | received => exact roused_of_eq rfl
  | xsend pid msg =>
      apply roused_of_eq
      by_cases bad : isbadpid pid
      · simp [part, idlePart, step, xsend, edited, bad]
      · by_cases pending : (k.proctab pid).phasmsg = 0
        · cases state : (k.proctab pid).pstate <;>
            simp [part, idlePart, step, xsend, edited, bad, pending, state, readyNo_proctab,
              unsleep_proctab, sent, Xinu.setEntry, Pstate.notified]
        · simp only [part, idlePart, step, xsend, edited, ne_eq, pending, not_false_eq_true,
            or_true, if_true]
  | sendf pid msg =>
      apply roused_of_eq
      by_cases bad : isbadpid pid
      · simp [part, idlePart, step, sendf, edited, bad]
      · cases state : (k.proctab pid).pstate <;>
          simp [part, idlePart, step, sendf, edited, bad, state, readyNo_proctab, sent,
            Xinu.setEntry, Pstate.notified]
  | wakeup => exact wakeup_roused settled.on
  | resched => exact RousedAll.refl k
  | timerPop => exact roused_of_eq (timerPop_proctab k)
  | ctciSleep device => exact roused_of_eq rfl
  | ctciAwake device => exact roused_of_eq rfl
  | ctciWrite device =>
      apply roused_of_eq
      simp only [part, edited, ctciWrite]
      split
      · rename_i nobody
        have bad : isbadpid (k.pidsleep device) := by
          rw [nobody]
          decide
        rw [if_pos bad]
      · by_cases bad : isbadpid (k.pidsleep device)
        · rw [if_pos bad, readyNo, if_pos bad]
        · rw [if_neg bad, readyNo_proctab bad]

/-- A step writes the table as its call says, and rouses processes. -/
theorem step_table (settled : Settled k lists) {call : Call} {scene : Scene}
    (orderly : Orderly k (call, scene)) :
    ∀ pid, Roused (edited k call pid) ((step k call scene).proctab pid) := by
  have parts := part_table settled call
  rw [step_eq_part]
  split
  · rcases part_on settled orderly with ⟨after, on⟩
    intro pid
    exact (parts pid).trans (resched_roused on scene pid)
  · exact parts

end Parts

/-! ## Whom `ctci_write` will wake -/

section Sleepers

variable (k : Xinu)

theorem newpid_pidsleep (tries : Nat) : ∀ k : Xinu, (newpid tries k).2.pidsleep = k.pidsleep := by
  induction tries with
  | zero =>
      intro k
      rfl
  | succ tries ih =>
      intro k
      simp only [newpid]
      split
      · rfl
      · rw [ih]

theorem newsem_pidsleep (tries : Nat) : ∀ k : Xinu, (newsem tries k).2.pidsleep = k.pidsleep := by
  induction tries with
  | zero =>
      intro k
      rfl
  | succ tries ih =>
      intro k
      simp only [newsem]
      split
      · rfl
      · rw [ih]

theorem resched_pidsleep (scene : Scene) : (resched k scene).pidsleep = k.pidsleep :=
  (resched_rest k scene).pidsleep

theorem readyNo_pidsleep (pid : Int) : (readyNo k pid).pidsleep = k.pidsleep :=
  (readyNo_rest k pid).pidsleep

theorem readyYes_pidsleep (scene : Scene) (pid : Int) :
    (readyYes k scene pid).pidsleep = k.pidsleep := by
  rw [readyYes]
  split
  · rfl
  · rw [resched_pidsleep, readyNo_pidsleep]

theorem unsleep_pidsleep (pid : Int) : (unsleep k pid).2.pidsleep = k.pidsleep := by
  simp only [unsleep]
  split
  · rfl
  · split
    · rfl
    · rfl

theorem signalOnce_pidsleep (sem : Int) : (signalOnce k sem).pidsleep = k.pidsleep := by
  simp only [signalOnce]
  split
  · exact (readyFirst_rest _ _).pidsleep
  · rfl

theorem signalTimes_pidsleep (sem : Int) (count : Nat) :
    ∀ k : Xinu, (signalTimes sem count k).pidsleep = k.pidsleep := by
  induction count with
  | zero =>
      intro k
      rfl
  | succ count ih =>
      intro k
      rw [signalTimes, ih, signalOnce_pidsleep]

theorem readyAll_pidsleep (head : Int) (fuel : Nat) :
    ∀ k : Xinu, (readyAll head fuel k).pidsleep = k.pidsleep := by
  induction fuel with
  | zero =>
      intro k
      rfl
  | succ fuel ih =>
      intro k
      rw [readyAll]
      split
      · rfl
      · rw [ih]
        exact (readyFirst_rest k head).pidsleep

/-- Only the channel driver says whom to wake. -/
theorem step_pidsleep (call : Call) (scene : Scene) (notSleep : ∀ device, call ≠ .ctciSleep device)
    (notAwake : ∀ device, call ≠ .ctciAwake device) :
    (step k call scene).pidsleep = k.pidsleep := by
  cases call with
  | create stack priority =>
      simp only [step, create]
      split
      · rfl
      · split
        · exact newpid_pidsleep _ k
        · exact newpid_pidsleep _ k
  | resume pid =>
      simp only [step, resume]
      split
      · rfl
      · exact readyYes_pidsleep k scene pid
  | suspend pid =>
      simp only [step, suspend]
      split
      · rfl
      · split
        · rfl
        · split
          · exact resched_pidsleep _ scene
          · rfl
  | chprio pid newprio =>
      simp only [step, chprio]
      split
      · rfl
      · split
        · exact resched_pidsleep _ scene
        · exact resched_pidsleep _ scene
        · rfl
  | killpid pid =>
      simp only [step, killpid]
      split
      · rfl
      · split
        · rfl
        · exact resched_pidsleep _ scene
        · rfl
        · rfl
        · exact unsleep_pidsleep k pid
        · exact unsleep_pidsleep k pid
        · rfl
  | screate count =>
      simp only [step, screate]
      split
      · exact newsem_pidsleep _ k
      · exact newsem_pidsleep _ k
  | wait sem =>
      rw [step, wait_eq]
      split
      · exact resched_pidsleep _ scene
      · split
        · rfl
        · rfl
  | xsignal sem =>
      simp only [step, xsignal]
      split
      · rfl
      · split
        · exact readyYes_pidsleep _ scene _
        · rfl
  | signaln sem count =>
      simp only [step, signaln]
      split
      · rfl
      · exact (resched_pidsleep _ scene).trans (signalTimes_pidsleep sem _ k)
  | sreset sem count =>
      simp only [step, sreset]
      split
      · rfl
      · exact (resched_pidsleep _ scene).trans (readyAll_pidsleep _ _ k)
  | sdelete sem =>
      simp only [step, sdelete]
      split
      · rfl
      · split
        · rfl
        · exact (resched_pidsleep _ scene).trans (readyAll_pidsleep _ _ _)
  | sleep10 n =>
      simp only [step, sleep10]
      split
      · rfl
      · split
        · exact resched_pidsleep k scene
        · exact resched_pidsleep _ scene
  | receive =>
      simp only [step, receive]
      split
      · exact resched_pidsleep _ scene
      · rfl
  | recvtim maxwait =>
      simp only [step, recvtim]
      split
      · rfl
      · split
        · exact resched_pidsleep _ scene
        · rfl
  | received => rfl
  | xsend pid msg =>
      simp only [step, xsend]
      split
      · rfl
      · split
        · exact readyYes_pidsleep _ scene pid
        · exact (readyYes_pidsleep _ scene pid).trans (unsleep_pidsleep _ pid)
        · rfl
  | sendf pid msg =>
      simp only [step, sendf]
      split
      · rfl
      · split
        · exact readyYes_pidsleep _ scene pid
        · rfl
  | wakeup => exact (wakeup_rest k).pidsleep
  | resched => exact resched_pidsleep k scene
  | timerPop =>
      simp only [step, timerPop]
      split
      · rfl
      · rfl
  | ctciSleep device => exact absurd rfl (notSleep device)
  | ctciAwake device => exact absurd rfl (notAwake device)
  | ctciWrite device =>
      simp only [step, ctciWrite]
      split
      · rfl
      · exact readyNo_pidsleep k _

end Sleepers

end MvsXinu.Kernel
