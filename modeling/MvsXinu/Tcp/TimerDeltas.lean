import MvsXinu.Lib.Countdown
import MvsXinu.Lib.Runs
import MvsXinu.Tcp.Timer

/-!
# The times of the delta list

Read as the times at which its entries expire, counted from a base, the delta list is a
countdown: `tmset` strikes the timer out and places it anew, `tmclear` strikes it out, and a
pass of the timer process takes what has expired and counts the rest from where it ends.
-/

namespace MvsXinu.Tcp

open MvsXinu.Runs

set_option autoImplicit false

def expiries : Int → List Tqent → Countdown.Timers TimerKey
  | _, [] => []
  | base, entry :: rest =>
      (entry.key, base + entry.timeleft) :: expiries (base + entry.timeleft) rest

/-- What holds of the list between two calls. -/
structure WellTimed (timers : List Tqent) : Prop where
  nonneg : ∀ entry ∈ timers, 0 ≤ entry.timeleft
  single : (timers.map Tqent.key).Nodup

section Expiries

variable (base : Int) (timers : List Tqent)

theorem expiries_keys : (expiries base timers).map Prod.fst = timers.map Tqent.key := by
  induction timers generalizing base with
  | nil => rfl
  | cons entry rest ih => rw [expiries, List.map_cons, List.map_cons, ih]

theorem expiries_running (key : TimerKey) :
    Running key timers ↔ ∃ time, (key, time) ∈ expiries base timers := by
  rw [Running, ← expiries_keys base timers]
  simp

theorem expiries_rising :
    Countdown.Rising base (expiries base timers) ↔ ∀ entry ∈ timers, 0 ≤ entry.timeleft := by
  induction timers generalizing base with
  | nil => simp [expiries, Countdown.Rising]
  | cons entry rest ih =>
      rw [expiries, Countdown.rising_cons, ih, List.forall_mem_cons]
      simp

theorem expiries_tmabsorb (extra : Int) :
    expiries base (tmabsorb extra timers) = expiries (base + extra) timers := by
  cases timers with
  | nil => rfl
  | cons next later =>
      have same : base + (next.timeleft + extra) = base + extra + next.timeleft := by omega
      simp only [tmabsorb, expiries, same]

theorem expiries_tmclear (ctr100 : Int) (key : TimerKey) :
    expiries base (tmclear ctr100 key timers).2 = Countdown.strike key (expiries base timers) := by
  induction timers generalizing base with
  | nil => rfl
  | cons entry rest ih =>
      rw [tmclear, expiries, Countdown.strike]
      split
      · rename_i met
        rw [List.eraseP_cons_of_pos (by simpa using met)]
        exact expiries_tmabsorb base rest entry.timeleft
      · rename_i different
        rw [List.eraseP_cons_of_neg (by simpa using different), expiries, ih]
        rfl

theorem expiries_tminsert (new : Tqent) :
    expiries base (tminsert new timers) =
      Countdown.place new.key (base + new.timeleft) (expiries base timers) := by
  induction timers generalizing base new with
  | nil => rfl
  | cons entry rest ih =>
      rw [tminsert, expiries, Countdown.place_cons]
      split
      · rename_i earlier
        have behind : ¬ base + entry.timeleft ≤ base + new.timeleft := by omega
        have same : base + new.timeleft + (entry.timeleft - new.timeleft) =
            base + entry.timeleft := by omega
        rw [if_neg behind, expiries, expiries, same]
      · rename_i later
        have before : base + entry.timeleft ≤ base + new.timeleft := by omega
        have same : base + entry.timeleft + (new.timeleft - entry.timeleft) =
            base + new.timeleft := by omega
        rw [if_pos before, expiries, ih, same]

theorem expiries_tmset (ctr100 : Int) (key : TimerKey) (time : Int) :
    expiries base (tmset ctr100 key time timers) =
      Countdown.place key (base + time) (Countdown.strike key (expiries base timers)) := by
  rw [tmset, expiries_tminsert, expiries_tmclear]

theorem expiries_tcptimer (delta : Int) :
    (tcptimer delta timers).1 =
        (Countdown.expired (base + delta) (expiries base timers)).map Prod.fst ∧
      expiries (base + delta) (tcptimer delta timers).2 =
        Countdown.pending (base + delta) (expiries base timers) := by
  induction timers generalizing base delta with
  | nil => exact ⟨rfl, rfl⟩
  | cons entry rest ih =>
      rw [tcptimer, expiries, Countdown.expired, Countdown.pending]
      split
      · rename_i due
        have next := ih (base + entry.timeleft) (delta - entry.timeleft)
        have same : base + entry.timeleft + (delta - entry.timeleft) = base + delta := by omega
        rw [same] at next
        rw [List.takeWhile_cons_of_pos (by simpa using due),
          List.dropWhile_cons_of_pos (by simpa using due)]
        exact ⟨congrArg (entry.key :: ·) next.1, next.2⟩
      · rename_i late
        have same : base + delta + (entry.timeleft - delta) = base + entry.timeleft := by omega
        rw [List.takeWhile_cons_of_neg (by simpa using late),
          List.dropWhile_cons_of_neg (by simpa using late), expiries, same]
        exact ⟨rfl, rfl⟩

theorem expiries_shift (delta : Int) (key : TimerKey) (time : Int) :
    (key, time) ∈ expiries (base + delta) timers ↔ (key, time - delta) ∈ expiries base timers := by
  induction timers generalizing base with
  | nil => simp [expiries]
  | cons entry rest ih =>
      have same : base + delta + entry.timeleft = base + entry.timeleft + delta := by omega
      rw [expiries, expiries, same, List.mem_cons, List.mem_cons, ih, Prod.mk.injEq, Prod.mk.injEq]
      have moved : time = base + entry.timeleft + delta ↔ time - delta = base + entry.timeleft := by
        omega
      rw [moved]

end Expiries

/-! ## Where the timers go -/

section Members

variable {timers : List Tqent}

theorem expiries_single (single : (timers.map Tqent.key).Nodup) (base : Int) :
    Countdown.Single (expiries base timers) := by
  rwa [Countdown.Single, expiries_keys]

theorem mem_tmclear (single : (timers.map Tqent.key).Nodup) (ctr100 : Int) (key : TimerKey)
    (timer : TimerKey × Int) : timer ∈ expiries 0 (tmclear ctr100 key timers).2 ↔
      timer ∈ expiries 0 timers ∧ timer.1 ≠ key := by
  rw [expiries_tmclear]
  exact Countdown.mem_strike (expiries_single single 0) timer

theorem mem_tmset (single : (timers.map Tqent.key).Nodup) (ctr100 : Int) (key : TimerKey)
    (time : Int) (timer : TimerKey × Int) : timer ∈ expiries 0 (tmset ctr100 key time timers) ↔
      timer = (key, time) ∨ timer ∈ expiries 0 timers ∧ timer.1 ≠ key := by
  rw [expiries_tmset, (Countdown.place_perm key _ _).mem_iff, List.mem_cons,
    Countdown.mem_strike (expiries_single single 0), Int.zero_add]

theorem tmclear_single (single : (timers.map Tqent.key).Nodup) (ctr100 : Int) (key : TimerKey) :
    ((tmclear ctr100 key timers).2.map Tqent.key).Nodup := by
  have kept := (expiries_single single 0).strike key
  rwa [← expiries_tmclear 0 timers ctr100 key, Countdown.Single, expiries_keys] at kept

theorem tmset_single (single : (timers.map Tqent.key).Nodup) (ctr100 : Int) (key : TimerKey)
    (time : Int) : ((tmset ctr100 key time timers).map Tqent.key).Nodup := by
  have placed := ((expiries_single single 0).strike key).place (0 + time)
    (Countdown.not_mem_strike (expiries_single single 0))
  rwa [← expiries_tmset 0 timers ctr100 key time, Countdown.Single, expiries_keys] at placed

theorem tcptimer_single (single : (timers.map Tqent.key).Nodup) (delta : Int) :
    ((tcptimer delta timers).2.map Tqent.key).Nodup := by
  have left := (expiries_tcptimer 0 timers delta).2
  have kept := List.Nodup.sublist
    ((Countdown.pending_sublist (0 + delta) (expiries 0 timers)).map Prod.fst)
    (expiries_single single 0)
  rwa [← left, expiries_keys] at kept

/-- A timer is sent when its time is up, and what a pass leaves has lost the time charged. -/
theorem tcptimer_members (delta : Int) (key : TimerKey) :
    (key ∈ (tcptimer delta timers).1 → ∃ time ≤ delta, (key, time) ∈ expiries 0 timers) ∧
      ∀ time, (key, time) ∈ expiries 0 (tcptimer delta timers).2 →
        (key, time + delta) ∈ expiries 0 timers := by
  obtain ⟨sent, left⟩ := expiries_tcptimer 0 timers delta
  rw [Int.zero_add] at sent left
  constructor
  · intro member
    rw [sent] at member
    obtain ⟨⟨other, time⟩, taken, rfl⟩ := List.mem_map.mp member
    have due := List.mem_takeWhile_imp taken
    exact ⟨time, by simpa using due, (Countdown.expired_sublist _ _).subset taken⟩
  · intro time found
    have same : time + delta - delta = time := by omega
    have shifted := expiries_shift 0 (tcptimer delta timers).2 delta key (time + delta)
    rw [same, Int.zero_add, left] at shifted
    exact (Countdown.pending_sublist _ _).subset (shifted.mpr found)

end Members

/-! ## What `tmleft` reports -/

section Left

variable {base : Int} {timers : List Tqent} {key : TimerKey}

theorem WellTimed.rising (wellTimed : WellTimed timers) (base : Int) :
    Countdown.Rising base (expiries base timers) :=
  (expiries_rising base timers).mpr wellTimed.nonneg

theorem tmleft_scan_found {time : Int} (single : (timers.map Tqent.key).Nodup)
    (found : (key, time) ∈ expiries base timers) : tmleft.scan key base timers = time := by
  induction timers generalizing base with
  | nil => cases found
  | cons entry rest ih =>
      rw [List.map_cons, List.nodup_cons] at single
      rw [expiries, List.mem_cons, Prod.mk.injEq] at found
      rw [tmleft.scan]
      rcases found with ⟨met, sum⟩ | behind
      · rw [if_pos met.symm, sum]
      · have different : entry.key ≠ key := by
          intro met
          rw [met] at single
          exact single.1 ((expiries_running _ rest key).mpr ⟨time, behind⟩)
        rw [if_neg different]
        exact ih single.2 behind

theorem tmleft_found {time : Int} (wellTimed : WellTimed timers)
    (found : (key, time) ∈ expiries 0 timers) : tmleft key timers = time :=
  tmleft_scan_found wellTimed.single found

theorem tmleft_absent (absent : ¬ Running key timers) : tmleft key timers = 0 := by
  by_contra nonzero
  exact absent (tmleft_running key timers nonzero)

theorem running_iff_tmleft (wellTimed : WellTimed timers) :
    Running key timers ↔ (key, tmleft key timers) ∈ expiries 0 timers := by
  rw [expiries_running 0]
  constructor
  · rintro ⟨time, found⟩
    rwa [tmleft_found wellTimed found]
  · intro found
    exact ⟨_, found⟩

/-- Two lists that have the timer at the same time, or both not. -/
theorem tmleft_congr {after : List Tqent} (wellTimed : WellTimed timers) (kept : WellTimed after)
    (same : ∀ time, (key, time) ∈ expiries 0 after ↔ (key, time) ∈ expiries 0 timers) :
    (Running key after ↔ Running key timers) ∧ tmleft key after = tmleft key timers := by
  have running : Running key after ↔ Running key timers := by
    rw [expiries_running 0, expiries_running 0]
    exact exists_congr same
  refine ⟨running, ?_⟩
  by_cases runs : Running key timers
  · have found := (running_iff_tmleft wellTimed).mp runs
    exact tmleft_found kept ((same _).mpr found)
  · rw [tmleft_absent runs, tmleft_absent (fun still => runs (running.mp still))]

end Left

/-! ## The calls -/

inductive TimerCall where
  | tmset (ctr100 : Int) (key : TimerKey) (time : Int)
  | tmclear (ctr100 : Int) (key : TimerKey)
  | pass (delta : Int)

/-- No time is negative. -/
def TimerCall.Proper : TimerCall → Prop
  | .tmset _ _ time => 0 ≤ time
  | .tmclear _ _ => True
  | .pass delta => 0 ≤ delta

def timerStep (timers : List Tqent) : TimerCall → List Tqent
  | .tmset ctr100 key time => tmset ctr100 key time timers
  | .tmclear ctr100 key => (tmclear ctr100 key timers).2
  | .pass delta => (tcptimer delta timers).2

/-- The timers under other keys have the time left that they had. -/
def KeepsOthers (key : TimerKey) (before after : List Tqent) : Prop :=
  ∀ other, other ≠ key →
    (Running other after ↔ Running other before) ∧ tmleft other after = tmleft other before

structure PassCharged (delta : Int) (before : List Tqent) (sent : List TimerKey)
    (after : List Tqent) : Prop where
  removed : ∀ key, key ∈ sent ↔ Running key before ∧ tmleft key before ≤ delta
  once : sent.Nodup
  inOrder : sent.Pairwise fun first second => tmleft first before ≤ tmleft second before
  left : ∀ key, Running key after ↔ Running key before ∧ delta < tmleft key before
  reduced : ∀ key, Running key after → tmleft key after = tmleft key before - delta

def TimerCall.Law (timers : List Tqent) : TimerCall → Prop
  | .tmset ctr100 key time =>
      let after := Tcp.tmset ctr100 key time timers
      KeepsOthers key timers after ∧ Running key after ∧ tmleft key after = time
  | .tmclear ctr100 key =>
      let after := (Tcp.tmclear ctr100 key timers).2
      KeepsOthers key timers after ∧ ¬ Running key after
  | .pass delta => PassCharged delta timers (tcptimer delta timers).1 (tcptimer delta timers).2

section Calls

variable {timers : List Tqent}

theorem WellTimed.tmclear (wellTimed : WellTimed timers) (ctr100 : Int) (key : TimerKey) :
    WellTimed (tmclear ctr100 key timers).2 := by
  refine ⟨?_, tmclear_single wellTimed.single ctr100 key⟩
  rw [← expiries_rising 0, expiries_tmclear]
  exact (wellTimed.rising 0).sublist (Countdown.strike_sublist key _)

theorem WellTimed.tmset (wellTimed : WellTimed timers) (ctr100 : Int) (key : TimerKey)
    {time : Int} (nonneg : 0 ≤ time) : WellTimed (tmset ctr100 key time timers) := by
  refine ⟨?_, tmset_single wellTimed.single ctr100 key time⟩
  rw [← expiries_rising 0, expiries_tmset]
  exact ((wellTimed.rising 0).sublist (Countdown.strike_sublist key _)).place key (by omega)

theorem WellTimed.pass (wellTimed : WellTimed timers) (delta : Int) :
    WellTimed (tcptimer delta timers).2 := by
  refine ⟨?_, tcptimer_single wellTimed.single delta⟩
  rw [← expiries_rising (0 + delta), (expiries_tcptimer 0 timers delta).2]
  exact (wellTimed.rising 0).pending (0 + delta)

theorem WellTimed.step (wellTimed : WellTimed timers) (call : TimerCall) (proper : call.Proper) :
    WellTimed (timerStep timers call) := by
  cases call with
  | tmset ctr100 key time => exact wellTimed.tmset ctr100 key proper
  | tmclear ctr100 key => exact wellTimed.tmclear ctr100 key
  | pass delta => exact wellTimed.pass delta

/-- What is left of a timer that a pass leaves. -/
theorem WellTimed.mem_pass (wellTimed : WellTimed timers) (delta : Int) (key : TimerKey)
    (time : Int) : (key, time) ∈ expiries 0 (tcptimer delta timers).2 ↔
      (key, time + delta) ∈ expiries 0 timers ∧ 0 < time := by
  have rising := wellTimed.rising 0
  have left := (expiries_tcptimer 0 timers delta).2
  have shifted := expiries_shift 0 (tcptimer delta timers).2 delta key (time + delta)
  have same : time + delta - delta = time := by omega
  have positive : delta < time + delta ↔ 0 < time := by omega
  rw [Int.zero_add] at left
  rw [Int.zero_add, same, left, (Countdown.mem_expired rising _).2, positive] at shifted
  exact shifted.symm

theorem WellTimed.tmclear_law (wellTimed : WellTimed timers) (ctr100 : Int) (key : TimerKey) :
    (TimerCall.tmclear ctr100 key).Law timers := by
  have members := mem_tmclear wellTimed.single ctr100 key
  constructor
  · intro other different
    apply tmleft_congr wellTimed (wellTimed.tmclear ctr100 key)
    intro time
    rw [members]
    exact and_iff_left different
  · rw [expiries_running 0]
    rintro ⟨time, found⟩
    exact ((members _).mp found).2 rfl

theorem WellTimed.tmset_law (wellTimed : WellTimed timers) (ctr100 : Int) (key : TimerKey)
    {time : Int} (nonneg : 0 ≤ time) : (TimerCall.tmset ctr100 key time).Law timers := by
  have kept := wellTimed.tmset ctr100 key nonneg
  have members := mem_tmset wellTimed.single ctr100 key time
  have own : (key, time) ∈ expiries 0 (Tcp.tmset ctr100 key time timers) :=
    (members _).mpr (Or.inl rfl)
  refine ⟨?_, (expiries_running 0 _ key).mpr ⟨time, own⟩, tmleft_found kept own⟩
  intro other different
  apply tmleft_congr wellTimed kept
  intro left
  rw [members]
  simp [different]

theorem WellTimed.pass_law (wellTimed : WellTimed timers) (delta : Int) :
    (TimerCall.pass delta).Law timers := by
  have rising := wellTimed.rising 0
  have sent := (expiries_tcptimer 0 timers delta).1
  rw [Int.zero_add] at sent
  have kept := wellTimed.pass delta
  have taken := fun timer => (@Countdown.mem_expired _ 0 delta _ rising timer).1
  have stays := wellTimed.mem_pass delta
  have reduced : ∀ key, Running key (tcptimer delta timers).2 →
      Running key timers ∧ delta < tmleft key timers ∧
        tmleft key (tcptimer delta timers).2 = tmleft key timers - delta := by
    intro key running
    obtain ⟨time, found⟩ := (expiries_running 0 _ key).mp running
    obtain ⟨before, positive⟩ := (stays key time).mp found
    rw [tmleft_found kept found, tmleft_found wellTimed before]
    exact ⟨(expiries_running 0 _ key).mpr ⟨_, before⟩, by omega, by omega⟩
  constructor
  · intro key
    rw [sent, List.mem_map]
    constructor
    · rintro ⟨⟨other, time⟩, member, rfl⟩
      obtain ⟨found, due⟩ := (taken _).mp member
      refine ⟨(expiries_running 0 _ other).mpr ⟨time, found⟩, ?_⟩
      rw [tmleft_found wellTimed found]
      exact due
    · rintro ⟨running, due⟩
      have found := (running_iff_tmleft wellTimed).mp running
      exact ⟨_, (taken _).mpr ⟨found, due⟩, rfl⟩
  · rw [sent]
    exact List.Nodup.sublist ((Countdown.expired_sublist _ _).map Prod.fst)
      (expiries_single wellTimed.single 0)
  · rw [sent, List.pairwise_map]
    have ordered := rising.sublist (Countdown.expired_sublist delta _)
    rw [Countdown.Rising, List.pairwise_cons, List.pairwise_map] at ordered
    apply List.Pairwise.imp_of_mem _ ordered.2
    rintro ⟨first, early⟩ ⟨second, late⟩ firstTaken secondTaken inOrder
    rw [tmleft_found wellTimed ((taken _).mp firstTaken).1,
      tmleft_found wellTimed ((taken _).mp secondTaken).1]
    exact inOrder
  · intro key
    constructor
    · intro running
      exact ⟨(reduced key running).1, (reduced key running).2.1⟩
    · rintro ⟨running, late⟩
      have found := (running_iff_tmleft wellTimed).mp running
      have same : tmleft key timers - delta + delta = tmleft key timers := by omega
      apply (expiries_running 0 _ key).mpr
      refine ⟨tmleft key timers - delta, (stays key _).mpr ?_⟩
      rw [same]
      exact ⟨found, by omega⟩
  · intro key running
    exact (reduced key running).2.2

theorem WellTimed.law (wellTimed : WellTimed timers) (call : TimerCall) (proper : call.Proper) :
    call.Law timers := by
  cases call with
  | tmset ctr100 key time => exact wellTimed.tmset_law ctr100 key proper
  | tmclear ctr100 key => exact wellTimed.tmclear_law ctr100 key
  | pass delta => exact wellTimed.pass_law delta

/-- No sum in the list passes the largest time that was asked for, so that the `int` fields
hold them. -/
theorem expiries_bounded {limit : Int}
    (reached : Reach timerStep (fun _ call => call.Proper ∧
      ∀ ctr100 key time, call = .tmset ctr100 key time → time ≤ limit) [] timers)
    {key : TimerKey} {time : Int} (found : (key, time) ∈ expiries 0 timers) :
    0 ≤ time ∧ time ≤ limit := by
  have kept : WellTimed timers ∧ ∀ timer ∈ expiries 0 timers, timer.2 ≤ limit := by
    apply reached.invariant
    · exact ⟨⟨by simp, by simp⟩, by simp [expiries]⟩
    · rintro before call ⟨wellTimed, bounded⟩ ⟨proper, asked⟩
      refine ⟨wellTimed.step call proper, ?_⟩
      rintro ⟨key, time⟩ member
      cases call with
      | tmset ctr100 set time =>
          rcases (mem_tmset wellTimed.single ctr100 set time _).mp member with own | ⟨old, _⟩
          · have least := asked ctr100 set time rfl
            rw [own]
            exact least
          · exact bounded _ old
      | tmclear ctr100 cleared =>
          exact bounded _ ((mem_tmclear wellTimed.single ctr100 cleared _).mp member).1
      | pass delta =>
          have old := bounded _ ((wellTimed.mem_pass delta key time).mp member).1
          have elapsed : 0 ≤ delta := proper
          dsimp only at old ⊢
          omega
  exact ⟨(kept.1.rising 0).le found, kept.2 _ found⟩

end Calls

theorem delta_list_law_along_run {timers : List Tqent}
    (reached : Reach timerStep (fun _ call => call.Proper) [] timers) :
    WellTimed timers ∧ ∀ next : TimerCall, next.Proper → next.Law timers := by
  have wellTimed : WellTimed timers := by
    apply reached.invariant
    · exact ⟨by simp, by simp⟩
    · intro before call holds proper
      exact holds.step call proper
  exact ⟨wellTimed, wellTimed.law⟩

/-- Two timers, one of them set again after a pass. -/
def timerCalls : List TimerCall :=
  [.tmset 100 (.oport .retransmit 3) 50, .tmset 100 (.oport .persist 3) 50,
    .pass 20, .tmset 120 (.oport .retransmit 3) 10]

theorem delta_list_law_after_reset :
    (TimerCall.pass 10).Law (timerCalls.foldl timerStep []) := by
  have reached : Reach timerStep (fun _ call => call.Proper) [] (timerCalls.foldl timerStep []) := by
    apply reach_of_permitted timerCalls Reach.start
    simp [timerCalls, Permitted, TimerCall.Proper]
  have proper : (0 : Int) ≤ 10 := by decide
  exact (delta_list_law_along_run reached).2 (.pass 10) proper

end MvsXinu.Tcp
