import MvsXinu.Kernel.Threads

/-!
# Process states and lists

`home` is the head of the list that the state of a process puts it on. On a board the
lists hold exactly the processes whose home they are, at most the current process is in
`PRCURR`, and the null process is ready unless it runs.
-/

namespace MvsXinu.Kernel

set_option autoImplicit false

def home (entry : Pentry) : Option Int :=
  match entry.pstate with
  | .ready => some rdyhead
  | .wait => some (sqhead entry.psem)
  | .sleep => some clockq
  | .trecv => some clockq
  | _ => none

def IsProc (pid : Int) : Prop := 0 ≤ pid ∧ pid < nproc

structure Consistent (q : Qtab) (proctab : Int → Pentry) (lists : Int → List Int) : Prop where
  threaded : Threaded q lists
  member : ∀ head pid, Head head →
    (pid ∈ lists head ↔ IsProc pid ∧ home (proctab pid) = some head)
  keys : ∀ pid, IsProc pid → (proctab pid).pstate = .ready → (q pid).qkey = (proctab pid).pprio
  sems : ∀ pid, IsProc pid → (proctab pid).pstate = .wait → ¬ isbadsem (proctab pid).psem

structure Board (q : Qtab) (proctab : Int → Pentry) (currpid : Int) (lists : Int → List Int) :
    Prop extends Consistent q proctab lists where
  proc : IsProc currpid
  only : ∀ pid, IsProc pid → (proctab pid).pstate = .curr → pid = currpid
  null : (proctab nullproc).pstate = .ready ∨
    (currpid = nullproc ∧ (proctab nullproc).pstate = .curr)

theorem rdyhead_head : Head rdyhead := by decide

theorem clockq_head : Head clockq := by decide

theorem sqhead_head {sem : Int} (good : ¬ isbadsem sem) : Head (sqhead sem) := by
  unfold isbadsem nsem at good
  unfold Head rdyhead sqhead clockq
  omega

theorem sqhead_ne {sem : Int} (good : ¬ isbadsem sem) :
    sqhead sem ≠ rdyhead ∧ sqhead sem ≠ clockq := by
  unfold isbadsem nsem at good
  unfold sqhead rdyhead clockq
  omega

theorem sqhead_inj {first second : Int} (same : sqhead first = sqhead second) :
    first = second := by
  unfold sqhead at same
  omega

theorem isProc_of_good {pid : Int} (good : ¬ isbadpid pid) : IsProc pid ∧ pid ≠ nullproc := by
  unfold isbadpid at good
  unfold IsProc nullproc
  omega

section Moves

variable {q after : Qtab} {proctab : Int → Pentry} {lists : Int → List Int} {head pid : Int}
  {front back : List Int} {entry : Pentry}

theorem Consistent.onNoList (consistent : Consistent q proctab lists)
    (homeless : home (proctab pid) = none) : OnNoList lists pid := by
  intro head isHead member
  have found := ((consistent.member head pid isHead).mp member).2
  rw [homeless] at found
  exact absurd found (by simp)

theorem Consistent.home_head (consistent : Consistent q proctab lists) (isProc : IsProc pid)
    (isHome : home (proctab pid) = some head) : Head head := by
  unfold home at isHome
  split at isHome
  · exact Option.some.inj isHome ▸ rdyhead_head
  · rename_i waits
    exact Option.some.inj isHome ▸ sqhead_head (consistent.sems pid isProc waits)
  · exact Option.some.inj isHome ▸ clockq_head
  · exact Option.some.inj isHome ▸ clockq_head
  · exact absurd isHome (by simp)

/-- A process that its state puts on a list is somewhere on it. -/
theorem Consistent.find (consistent : Consistent q proctab lists) (isProc : IsProc pid)
    (isHome : home (proctab pid) = some head) :
    ∃ front back, lists head = front ++ pid :: back := by
  have isHead := consistent.home_head isProc isHome
  have member := (consistent.member head pid isHead).mpr ⟨isProc, isHome⟩
  exact List.append_of_mem member

theorem not_mem_rest (nodup : (front ++ pid :: back).Nodup) : pid ∉ front ++ back :=
  (List.nodup_cons.mp (List.nodup_middle.mp nodup)).1

theorem Consistent.leave (consistent : Consistent q proctab lists) (entry : Pentry)
    (isHead : Head head)
    (found : lists head = front ++ pid :: back)
    (threaded : Threaded after (Function.update lists head (front ++ back)))
    (homeless : home entry = none)
    (keys : ∀ other, other ≠ pid → (proctab other).pstate = .ready →
      (after other).qkey = (q other).qkey) :
    Consistent after (Function.update proctab pid entry)
      (Function.update lists head (front ++ back)) := by
  have nodup := consistent.threaded.nodup head isHead
  rw [found] at nodup
  have gone := not_mem_rest nodup
  have notReady : entry.pstate ≠ .ready := by
    intro ready
    simp [home, ready] at homeless
  have notWait : entry.pstate ≠ .wait := by
    intro waits
    simp [home, waits] at homeless
  constructor
  · exact threaded
  · intro other index isOther
    by_cases same : index = pid
    · rw [same, Function.update_self, homeless]
      constructor
      · intro member
        by_cases sameHead : other = head
        · rw [sameHead, Function.update_self] at member
          exact absurd member gone
        · rw [Function.update_of_ne sameHead] at member
          have here : pid ∈ lists head := by
            rw [found]
            simp
          exact absurd (consistent.threaded.apart other head isOther isHead pid member here)
            sameHead
      · intro impossible
        exact absurd impossible.2 (by simp)
    · rw [Function.update_of_ne same, ← consistent.member other index isOther]
      by_cases sameHead : other = head
      · rw [sameHead, Function.update_self, found]
        simp [same]
      · rw [Function.update_of_ne sameHead]
  · intro index isProc ready
    by_cases same : index = pid
    · rw [same, Function.update_self] at ready
      exact absurd ready notReady
    · rw [Function.update_of_ne same] at ready ⊢
      rw [keys index same ready]
      exact consistent.keys index isProc ready
  · intro index isProc waits
    by_cases same : index = pid
    · rw [same, Function.update_self] at waits
      exact absurd waits notWait
    · rw [Function.update_of_ne same] at waits ⊢
      exact consistent.sems index isProc waits

theorem Consistent.join (consistent : Consistent q proctab lists) (entry : Pentry)
    (found : lists head = front ++ back)
    (threaded : Threaded after (Function.update lists head (front ++ pid :: back)))
    (isProc : IsProc pid) (homeless : home (proctab pid) = none)
    (settles : home entry = some head)
    (key : entry.pstate = .ready → (after pid).qkey = entry.pprio)
    (sem : entry.pstate = .wait → ¬ isbadsem entry.psem)
    (keys : ∀ other, other ≠ pid → (proctab other).pstate = .ready →
      (after other).qkey = (q other).qkey) :
    Consistent after (Function.update proctab pid entry)
      (Function.update lists head (front ++ pid :: back)) := by
  have onNone := consistent.onNoList homeless
  constructor
  · exact threaded
  · intro other index isOther
    by_cases same : index = pid
    · rw [same, Function.update_self, settles]
      by_cases sameHead : other = head
      · rw [sameHead, Function.update_self]
        simp [isProc]
      · rw [Function.update_of_ne sameHead]
        simp [onNone other isOther, Ne.symm sameHead]
    · rw [Function.update_of_ne same, ← consistent.member other index isOther]
      by_cases sameHead : other = head
      · rw [sameHead, Function.update_self, found]
        simp [same]
      · rw [Function.update_of_ne sameHead]
  · intro index isIndex ready
    by_cases same : index = pid
    · rw [same, Function.update_self] at ready ⊢
      exact key ready
    · rw [Function.update_of_ne same] at ready ⊢
      rw [keys index same ready]
      exact consistent.keys index isIndex ready
  · intro index isIndex waits
    by_cases same : index = pid
    · rw [same, Function.update_self] at waits ⊢
      exact sem waits
    · rw [Function.update_of_ne same] at waits ⊢
      exact consistent.sems index isIndex waits

/-- A change of an entry that leaves the process where it is. -/
theorem Consistent.mark (consistent : Consistent q proctab lists)
    (stays : home entry = home (proctab pid))
    (prio : entry.pstate = .ready → (q pid).qkey = entry.pprio)
    (sem : entry.pstate = .wait → ¬ isbadsem entry.psem) :
    Consistent q (Function.update proctab pid entry) lists := by
  constructor
  · exact consistent.threaded
  · intro other index isOther
    by_cases same : index = pid
    · rw [same, Function.update_self, stays]
      exact consistent.member other pid isOther
    · rw [Function.update_of_ne same]
      exact consistent.member other index isOther
  · intro index isIndex ready
    by_cases same : index = pid
    · rw [same, Function.update_self] at ready ⊢
      exact prio ready
    · rw [Function.update_of_ne same] at ready ⊢
      exact consistent.keys index isIndex ready
  · intro index isIndex waits
    by_cases same : index = pid
    · rw [same, Function.update_self] at waits ⊢
      exact sem waits
    · rw [Function.update_of_ne same] at waits ⊢
      exact consistent.sems index isIndex waits

/-- What a change of one entry has to respect beside the lists. -/
theorem Board.change {currpid : Int} {moved : Int → List Int}
    (board : Board q proctab currpid lists)
    (consistent : Consistent after (Function.update proctab pid entry) moved)
    (runs : entry.pstate = .curr → (proctab pid).pstate = .curr)
    (notNull : pid = nullproc → entry.pstate = .ready ∨ entry.pstate = (proctab pid).pstate) :
    Board after (Function.update proctab pid entry) currpid moved := by
  refine { toConsistent := consistent, proc := board.proc, only := ?_, null := ?_ }
  · intro index isProc current
    by_cases same : index = pid
    · rw [same] at isProc current ⊢
      rw [Function.update_self] at current
      exact board.only pid isProc (runs current)
    · rw [Function.update_of_ne same] at current
      exact board.only index isProc current
  · by_cases same : pid = nullproc
    · rw [← same, Function.update_self]
      rcases notNull same with ready | kept
      · exact Or.inl ready
      · rw [kept, same]
        exact board.null
    · rw [Function.update_of_ne (Ne.symm same)]
      exact board.null

end Moves

end MvsXinu.Kernel
