import MvsXinu.Kernel.Board

/-!
# Readying and rescheduling

`resched` and what it calls keep the board, whatever channel programs have ended, and a
process runs after it. They change no list but those of ready and of sleeping processes.
-/

namespace MvsXinu.Kernel

open MvsXinu.Ranks

set_option autoImplicit false

def Xinu.On (k : Xinu) (lists : Int → List Int) : Prop := Board k.q k.proctab k.currpid lists

/-- The queue entry that the timer exit counts down is the first sleeper's. -/
def Xinu.Timed (k : Xinu) (lists : Int → List Int) : Prop :=
  k.slnempty = true → (lists clockq).head? = some k.sltop

def Xinu.Running (k : Xinu) : Prop := (k.proctab k.currpid).pstate = .curr

/-- What scheduling does not touch. -/
structure SameRest (k after : Xinu) : Prop where
  semaph : after.semaph = k.semaph
  nextproc : after.nextproc = k.nextproc
  nextsem : after.nextsem = k.nextsem
  pidsleep : after.pidsleep = k.pidsleep

theorem SameRest.refl (k : Xinu) : SameRest k k := ⟨rfl, rfl, rfl, rfl⟩

theorem SameRest.trans {first second third : Xinu} (before : SameRest first second)
    (behind : SameRest second third) : SameRest first third :=
  ⟨behind.semaph.trans before.semaph, behind.nextproc.trans before.nextproc,
    behind.nextsem.trans before.nextsem, behind.pidsleep.trans before.pidsleep⟩

theorem readyNo_rest (k : Xinu) (pid : Int) : SameRest k (readyNo k pid) := by
  unfold readyNo
  split
  · exact SameRest.refl k
  · exact ⟨rfl, rfl, rfl, rfl⟩

theorem readyFirst_rest (k : Xinu) (head : Int) : SameRest k (readyFirst k head) := by
  have taken : SameRest k { k with q := (getfirst k.q head).2 } := ⟨rfl, rfl, rfl, rfl⟩
  exact taken.trans (readyNo_rest _ _)

theorem iohook_rest (done : List Int) : ∀ k, SameRest k (iohook k done) := by
  induction done with
  | nil => exact SameRest.refl
  | cons iopid others ih =>
      intro k
      unfold iohook
      split
      · exact ih k
      · exact (readyNo_rest k iopid).trans (ih _)

theorem wakeupLoop_rest (fuel : Nat) : ∀ k, SameRest k (wakeupLoop fuel k) := by
  induction fuel with
  | zero => exact SameRest.refl
  | succ fuel ih =>
      intro k
      unfold wakeupLoop
      split
      · exact (readyFirst_rest k clockq).trans (ih _)
      · exact SameRest.refl k

theorem wakeup_rest (k : Xinu) : SameRest k (wakeup k) := by
  have loop := wakeupLoop_rest nqent k
  unfold wakeup
  dsimp only
  split
  · exact loop.trans ⟨rfl, rfl, rfl, rfl⟩
  · exact loop.trans ⟨rfl, rfl, rfl, rfl⟩

theorem resched_rest (k : Xinu) (scene : Scene) : SameRest k (resched k scene) := by
  have woken := (iohook_rest scene.done k).trans (wakeup_rest _)
  unfold resched
  dsimp only
  split
  · exact woken
  · apply woken.trans
    unfold preempted
    split
    · exact ⟨rfl, rfl, rfl, rfl⟩
    · exact ⟨rfl, rfl, rfl, rfl⟩

/-! ## The ready list -/

section Ready

variable {q middle : Qtab} {proctab : Int → Pentry} {currpid head pid : Int}
  {lists : Int → List Int} {front back : List Int} {entry : Pentry}

theorem home_ready (ready : entry.pstate = .ready) : home entry = some rdyhead := by
  simp [home, ready]

/-- A process on no list becomes ready. -/
theorem Board.readied (board : Board q proctab currpid lists) (entry : Pentry)
    (isProc : IsProc pid) (homeless : home (proctab pid) = none) (ready : entry.pstate = .ready) :
    Board (insert q pid rdyhead entry.pprio) (Function.update proctab pid entry) currpid
      (Function.update lists rdyhead
        (place (keyOf q) entry.pprio.toInt pid (lists rdyhead))) := by
  have threaded := board.threaded.insert rdyhead_head isProc
    (board.onNoList homeless) entry.pprio
  have found := split_lower (keyOf q) entry.pprio.toInt (lists rdyhead)
  apply board.change (board.join entry found threaded isProc homeless (home_ready ready)
    ?_ ?_ ?_) ?_ ?_
  · intro _
    rw [insert_qkey, if_pos rfl]
  · intro waits
    rw [ready] at waits
    cases waits
  · intro other away _
    rw [insert_qkey, if_neg away]
  · intro runs
    rw [ready] at runs
    cases runs
  · intro _
    exact Or.inl ready

theorem Board.ready (board : Board q proctab currpid lists) (entry : Pentry) (isProc : IsProc pid)
    (homeless : home (proctab pid) = none) (ready : entry.pstate = .ready) :
    ∃ after, Board (insert q pid rdyhead entry.pprio) (Function.update proctab pid entry)
        currpid after ∧
      ∀ other, other ≠ rdyhead → after other = lists other :=
  ⟨_, board.readied entry isProc homeless ready, fun _ away => Function.update_of_ne away _ _⟩

/-- A process that has been taken off a list becomes ready. -/
theorem Board.requeued (board : Board q proctab currpid lists) (entry : Pentry)
    (isHead : Head head)
    (found : lists head = front ++ pid :: back)
    (threaded : Threaded middle (Function.update lists head (front ++ back)))
    (keys : ∀ other, other ≠ pid → (proctab other).pstate = .ready →
      (middle other).qkey = (q other).qkey)
    (ready : entry.pstate = .ready) :
    Board (insert middle pid rdyhead entry.pprio) (Function.update proctab pid entry) currpid
      (Function.update (Function.update lists head (front ++ back)) rdyhead
        (place (keyOf middle) entry.pprio.toInt pid
          (Function.update lists head (front ++ back) rdyhead))) := by
  let apart : Pentry := { proctab pid with pstate := .free }
  have member : pid ∈ lists head := by
    rw [found]
    simp
  have isProc := ((board.member head pid isHead).mp member).1
  have left : Consistent middle (Function.update proctab pid apart)
      (Function.update lists head (front ++ back)) :=
    board.leave apart isHead found threaded rfl keys
  have homeless : home (Function.update proctab pid apart pid) = none := by
    rw [Function.update_self]
    rfl
  have threadedReady := threaded.insert rdyhead_head isProc
    (left.onNoList homeless) entry.pprio
  have foundReady := split_lower (keyOf middle) entry.pprio.toInt
    (Function.update lists head (front ++ back) rdyhead)
  have joined := left.join entry foundReady threadedReady isProc homeless
    (home_ready ready)
    (by
      intro _
      rw [insert_qkey, if_pos rfl])
    (by
      intro waits
      rw [ready] at waits
      cases waits)
    (by
      intro other away _
      rw [insert_qkey, if_neg away])
  rw [Function.update_idem] at joined
  apply board.change joined
  · intro runs
    rw [ready] at runs
    cases runs
  · intro _
    exact Or.inl ready

theorem Board.requeue (board : Board q proctab currpid lists) (entry : Pentry)
    (isHead : Head head)
    (found : lists head = front ++ pid :: back)
    (threaded : Threaded middle (Function.update lists head (front ++ back)))
    (keys : ∀ other, other ≠ pid → (proctab other).pstate = .ready →
      (middle other).qkey = (q other).qkey)
    (ready : entry.pstate = .ready) :
    ∃ after, Board (insert middle pid rdyhead entry.pprio) (Function.update proctab pid entry)
        currpid after ∧
      ∀ other, other ≠ rdyhead → after other = Function.update lists head (front ++ back) other :=
  ⟨_, board.requeued entry isHead found threaded keys ready,
    fun _ away => Function.update_of_ne away _ _⟩

/-- The null process is on no list but that of the ready processes. -/
theorem Board.null_home (board : Board q proctab currpid lists)
    (isHome : home (proctab nullproc) = some head) : head = rdyhead := by
  rcases board.null with ready | ⟨_, current⟩
  · rw [home_ready ready] at isHome
    exact (Option.some.inj isHome).symm
  · simp [home, current] at isHome

theorem Board.good_of_mem (board : Board q proctab currpid lists) (isHead : Head head)
    (away : head ≠ rdyhead) (member : pid ∈ lists head) : ¬ isbadpid pid := by
  obtain ⟨isProc, isHome⟩ := (board.member head pid isHead).mp member
  unfold isbadpid
  unfold IsProc at isProc
  rintro (low | high)
  · have zero : pid = nullproc := by
      unfold nullproc
      omega
    rw [zero] at isHome
    exact away (board.null_home isHome)
  · omega

end Ready

/-! ## The steps of `resched` -/

section Steps

variable {k : Xinu} {lists : Int → List Int}

theorem readyNo_on (on : k.On lists) {pid : Int}
    (homeless : ¬ isbadpid pid → home (k.proctab pid) = none) :
    ∃ after, (readyNo k pid).On after ∧ ∀ other, other ≠ rdyhead → after other = lists other := by
  unfold readyNo
  split
  · exact ⟨lists, on, fun _ _ => rfl⟩
  · rename_i good
    exact Board.ready on { k.proctab pid with pstate := .ready }
      (isProc_of_good good).1 (homeless good) rfl

theorem readyFirst_on (on : k.On lists) {head pid : Int} {rest : List Int} (isHead : Head head)
    (away : head ≠ rdyhead) (found : lists head = pid :: rest) :
    ∃ after, (readyFirst k head).On after ∧
      ∀ other, other ≠ rdyhead → after other = Function.update lists head rest other := by
  have good := Board.good_of_mem on isHead away
    (by rw [found]; exact List.mem_cons_self : pid ∈ lists head)
  have threaded : Threaded (dequeue k.q pid) (Function.update lists head ([] ++ rest)) :=
    on.threaded.dequeue isHead found
  unfold readyFirst
  rw [on.threaded.getfirst_cons isHead found]
  unfold readyNo
  rw [if_neg good]
  exact Board.requeue on { k.proctab pid with pstate := .ready } isHead found threaded
    (fun other _ _ => dequeue_qkey k.q pid other) rfl

theorem iohook_on (done : List Int) : ∀ (k : Xinu) (lists : Int → List Int), k.On lists →
    ∃ after, (iohook k done).On after ∧ ∀ other, other ≠ rdyhead → after other = lists other := by
  induction done with
  | nil =>
      intro k lists on
      exact ⟨lists, on, fun _ _ => rfl⟩
  | cons iopid others ih =>
      intro k lists on
      unfold iohook
      split
      · exact ih k lists on
      · rename_i resumes
        simp only [not_or, not_not] at resumes
        have homeless : home (k.proctab iopid) = none := by simp [home, resumes.2]
        obtain ⟨readied, onReadied, same⟩ := readyNo_on on (fun _ => homeless)
        obtain ⟨after, onAfter, sameAfter⟩ := ih _ readied onReadied
        exact ⟨after, onAfter, fun other away => (sameAfter other away).trans (same other away)⟩

theorem wakeupLoop_on (fuel : Nat) : ∀ (k : Xinu) (lists : Int → List Int), k.On lists →
    ∃ after, (wakeupLoop fuel k).On after ∧
      ∀ other, other ≠ rdyhead → other ≠ clockq → after other = lists other := by
  induction fuel with
  | zero =>
      intro k lists on
      exact ⟨lists, on, fun _ _ _ => rfl⟩
  | succ fuel ih =>
      intro k lists on
      unfold wakeupLoop
      split
      · rename_i wakes
        obtain ⟨pid, rest, found⟩ := List.exists_cons_of_ne_nil
          (fun none => wakes.1 ((on.threaded.isempty_iff clockq_head).mpr none))
        obtain ⟨readied, onReadied, same⟩ := readyFirst_on on clockq_head (by decide) found
        obtain ⟨after, onAfter, sameAfter⟩ := ih _ readied onReadied
        refine ⟨after, onAfter, ?_⟩
        intro other away awayClock
        rw [sameAfter other away awayClock, same other away, Function.update_of_ne awayClock]
      · exact ⟨lists, on, fun _ _ _ => rfl⟩

theorem wakeup_on (on : k.On lists) :
    ∃ after, (wakeup k).On after ∧ (wakeup k).Timed after ∧
      ∀ other, other ≠ rdyhead → other ≠ clockq → after other = lists other := by
  obtain ⟨after, onAfter, same⟩ := wakeupLoop_on nqent k lists on
  have nobody := onAfter.threaded.isempty_iff clockq_head
  have next := onAfter.threaded.head_next clockq_head
  unfold wakeup
  dsimp only
  split
  · refine ⟨after, onAfter, ?_, same⟩
    intro sleeping
    cases sleeping
  · rename_i some
    refine ⟨after, onAfter, ?_, same⟩
    intro _
    obtain ⟨pid, rest, found⟩ := List.exists_cons_of_ne_nil (fun none => some (nobody.mpr none))
    rw [found, List.headD_cons] at next
    rw [found, List.head?_cons]
    exact congrArg _ next.symm

/-- The loop of `wakeup` ends because no sleeper is due: its bound is not reached. -/
theorem wakeupLoop_done (fuel : Nat) : ∀ (k : Xinu) (lists : Int → List Int), k.On lists →
    (lists clockq).length < fuel →
    isempty (wakeupLoop fuel k).q clockq ∨ ¬ (firstkey (wakeupLoop fuel k).q clockq).sle 0 := by
  induction fuel with
  | zero =>
      intro k lists on enough
      omega
  | succ fuel ih =>
      intro k lists on enough
      unfold wakeupLoop
      split
      · rename_i wakes
        obtain ⟨pid, rest, found⟩ := List.exists_cons_of_ne_nil
          (fun none => wakes.1 ((on.threaded.isempty_iff clockq_head).mpr none))
        obtain ⟨readied, onReadied, same⟩ := readyFirst_on on clockq_head (by decide) found
        apply ih _ readied onReadied
        rw [same clockq (by decide), Function.update_self]
        rw [found, List.length_cons] at enough
        omega
      · rename_i ends
        by_cases none : isempty k.q clockq
        · exact Or.inl none
        · exact Or.inr (fun due => ends ⟨none, due⟩)

theorem preempted_on (on : k.On lists) :
    ∃ after, (preempted k).On after ∧ ¬ (preempted k).Running ∧
      ∀ other, other ≠ rdyhead → after other = lists other := by
  unfold preempted
  split
  · rename_i current
    have homeless : home (k.proctab k.currpid) = none := by simp [home, current]
    obtain ⟨after, onAfter, same⟩ := Board.ready on
      { k.proctab k.currpid with pstate := .ready } on.proc homeless rfl
    refine ⟨after, onAfter, ?_, same⟩
    simp [Xinu.Running, Xinu.setState, Xinu.setEntry]
  · rename_i idle
    exact ⟨lists, on, idle, fun _ _ => rfl⟩

/-- The null process is on the ready list, so there is a process to dispatch. -/
theorem dispatch_on (on : k.On lists) (idle : ¬ k.Running) :
    ∃ after, (dispatch k).On after ∧ (dispatch k).Running ∧
      ∀ other, other ≠ rdyhead → after other = lists other := by
  have nullReady : (k.proctab nullproc).pstate = .ready := by
    rcases on.null with ready | ⟨same, current⟩
    · exact ready
    · rw [← same] at current
      exact absurd current idle
  have nullIn : nullproc ∈ lists rdyhead :=
    (on.member rdyhead nullproc rdyhead_head).mpr ⟨⟨by decide, by decide⟩, home_ready nullReady⟩
  obtain ⟨others, pid, found⟩ := (lists rdyhead).eq_nil_or_concat.resolve_left
    (List.ne_nil_of_mem nullIn)
  rw [List.concat_eq_append] at found
  have isProc := ((on.member rdyhead pid rdyhead_head).mp (by rw [found]; simp)).1
  have last := on.threaded.getlast_concat rdyhead_head found
  have threaded : Threaded (dequeue k.q pid) (Function.update lists rdyhead (others ++ [])) :=
    on.threaded.dequeue rdyhead_head found
  have consistent := on.leave { k.proctab pid with pstate := .curr } rdyhead_head found
    threaded rfl (fun other _ _ => dequeue_qkey k.q pid other)
  have tail : rdytail = rdyhead + 1 := rfl
  unfold dispatch
  rw [tail, last]
  refine ⟨_, ⟨consistent, isProc, ?_, ?_⟩, ?_, ?_⟩
  · intro index isIndex current
    by_cases same : index = pid
    · exact same
    · have old : (k.proctab index).pstate = .curr := by
        simpa [Xinu.setState, Xinu.setEntry, Function.update_of_ne same] using current
      have isCurrent := on.only index isIndex old
      rw [isCurrent] at old
      exact absurd old idle
  · by_cases same : pid = nullproc
    · right
      refine ⟨same, ?_⟩
      simp [Xinu.setState, Xinu.setEntry, ← same]
    · left
      simpa [Xinu.setState, Xinu.setEntry, Function.update_of_ne (Ne.symm same)] using nullReady
  · simp [Xinu.Running, Xinu.setState, Xinu.setEntry]
  · intro other away
    rw [Function.update_of_ne away]

theorem resched_on (on : k.On lists) (scene : Scene) :
    ∃ after, (resched k scene).On after ∧ (resched k scene).Running ∧
      (resched k scene).Timed after ∧
      ∀ other, other ≠ rdyhead → other ≠ clockq → after other = lists other := by
  obtain ⟨hooked, onHooked, sameHooked⟩ := iohook_on scene.done k lists on
  obtain ⟨woken, onWoken, timed, sameWoken⟩ := wakeup_on onHooked
  have same : ∀ other, other ≠ rdyhead → other ≠ clockq → woken other = lists other := by
    intro other away awayClock
    rw [sameWoken other away awayClock, sameHooked other away]
  unfold resched
  dsimp only
  split
  · rename_i keeps
    exact ⟨woken, onWoken, keeps.2.1, timed, same⟩
  · obtain ⟨waiting, onWaiting, idle, sameWaiting⟩ := preempted_on onWoken
    obtain ⟨after, onAfter, running, sameAfter⟩ := dispatch_on onWaiting idle
    refine ⟨after, onAfter, running, ?_, ?_⟩
    · intro sleeping
      rw [sameAfter clockq (by decide), sameWaiting clockq (by decide)]
      unfold preempted at sleeping ⊢
      split at sleeping
      · rename_i current
        rw [if_pos current]
        exact timed sleeping
      · rename_i current
        rw [if_neg current]
        exact timed sleeping
    · intro other away awayClock
      rw [sameAfter other away, sameWaiting other away, same other away awayClock]

end Steps

end MvsXinu.Kernel
