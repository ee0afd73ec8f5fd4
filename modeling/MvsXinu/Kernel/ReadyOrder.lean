import MvsXinu.Kernel.ProcessTable

/-!
# Who runs next

The ready list rises in priority, and processes of one priority stand in the order in which
they entered it. Every process that enters takes a ticket; a reschedule dispatches the
highest priority, and within it the oldest ticket.
-/

namespace MvsXinu.Kernel

open MvsXinu.Ranks

set_option autoImplicit false

def prio (k : Xinu) (pid : Int) : Int := (k.proctab pid).pprio.toInt

def InLine (k : Xinu) (tickets : Tickets Int) : Prop :=
  Lined (prio k) tickets (queued k.q rdyhead)

section Entering

variable {k later : Xinu} {lists : Int → List Int} {tickets : Tickets Int}

theorem Xinu.On.queue (on : k.On lists) : queued k.q rdyhead = lists rdyhead :=
  on.threaded.queued_eq rdyhead_head

theorem Xinu.On.mem_ready (on : k.On lists) (pid : Int) :
    pid ∈ queued k.q rdyhead ↔ IsProc pid ∧ (k.proctab pid).pstate = .ready := by
  rw [on.queue, on.member rdyhead pid rdyhead_head]
  constructor
  · intro listed
    exact ⟨listed.1, (home_eq_rdyhead (on.sems pid listed.1)).mp listed.2⟩
  · intro ready
    exact ⟨ready.1, home_ready ready.2⟩

theorem Xinu.On.ready_key (on : k.On lists) {pid : Int} (member : pid ∈ lists rdyhead) :
    keyOf k.q pid = prio k pid := by
  rw [← on.queue, on.mem_ready] at member
  rw [keyOf, prio, on.keys pid member.1 member.2]

theorem InLine.congr (inLine : InLine k tickets) (q : later.q = k.q)
    (table : later.proctab = k.proctab) : InLine later tickets := by
  rw [InLine, q]
  apply inLine.thin (List.Sublist.refl _)
  intro pid _
  rw [prio, prio, table]

/-- Some leave the ready list, and those that stay keep their priorities. -/
theorem InLine.thin (inLine : InLine k tickets)
    (part : (queued later.q rdyhead).Sublist (queued k.q rdyhead))
    (same : ∀ pid ∈ queued later.q rdyhead, prio later pid = prio k pid) :
    InLine later tickets :=
  Lined.thin inLine part same

/-- One process enters, whatever has left. -/
theorem InLine.enter (inLine : InLine k tickets) {pid : Int} {key : Int → Int} {rest : List Int}
    (queue : queued later.q rdyhead = place key (prio later pid) pid rest)
    (part : rest.Sublist (queued k.q rdyhead)) (absent : pid ∉ rest)
    (keys : ∀ other ∈ rest, key other = prio later other)
    (same : ∀ other ∈ rest, prio later other = prio k other) :
    InLine later (tickets.take pid) := by
  have stays : Lined (prio later) tickets rest := Lined.thin inLine part same
  rw [InLine, queue, place_congr _ _ keys]
  exact stays.take absent

theorem prio_update {pid other : Int} {entry : Pentry} (away : other ≠ pid)
    (table : later.proctab = Function.update k.proctab pid entry) :
    prio later other = prio k other := by
  rw [prio, prio, table, Function.update_of_ne away]

/-- A process on no list enters. -/
theorem readied_inLine (on : k.On lists) (inLine : InLine k tickets) {pid : Int}
    (entry : Pentry) (isProc : IsProc pid) (homeless : home (k.proctab pid) = none)
    (ready : entry.pstate = .ready) (q : later.q = insert k.q pid rdyhead entry.pprio)
    (table : later.proctab = Function.update k.proctab pid entry) :
    InLine later (tickets.take pid) := by
  have board := Board.readied on entry isProc homeless ready
  have queue := board.threaded.queued_eq rdyhead_head
  rw [Function.update_self, ← q] at queue
  have own : prio later pid = entry.pprio.toInt := by
    rw [prio, table, Function.update_self]
  have absent : pid ∉ lists rdyhead := on.onNoList homeless rdyhead rdyhead_head
  have away : ∀ other ∈ lists rdyhead, other ≠ pid :=
    fun other member same => absent (same ▸ member)
  rw [← own] at queue
  apply inLine.enter queue
  · rw [on.queue]
  · exact absent
  · intro other member
    rw [prio_update (away other member) table, on.ready_key member]
  · intro other member
    exact prio_update (away other member) table

/-- A process that was on a list enters. -/
theorem requeued_inLine (on : k.On lists) (inLine : InLine k tickets) {head pid : Int}
    {front back : List Int} (entry : Pentry) {middle : Qtab} (isHead : Head head)
    (found : lists head = front ++ pid :: back)
    (threaded : Threaded middle (Function.update lists head (front ++ back)))
    (keys : ∀ other, other ≠ pid → (k.proctab other).pstate = .ready →
      (middle other).qkey = (k.q other).qkey)
    (ready : entry.pstate = .ready) (q : later.q = insert middle pid rdyhead entry.pprio)
    (table : later.proctab = Function.update k.proctab pid entry) :
    InLine later (tickets.take pid) := by
  have board := Board.requeued on entry isHead found threaded keys ready
  have queue := board.threaded.queued_eq rdyhead_head
  rw [Function.update_self, ← q] at queue
  have own : prio later pid = entry.pprio.toInt := by
    rw [prio, table, Function.update_self]
  rw [← own] at queue
  have nodup := on.threaded.nodup head isHead
  rw [found] at nodup
  have rest : (Function.update lists head (front ++ back) rdyhead).Sublist (lists rdyhead) ∧
      pid ∉ Function.update lists head (front ++ back) rdyhead := by
    by_cases same : rdyhead = head
    · rw [same, Function.update_self, found]
      exact ⟨List.Sublist.append (List.Sublist.refl _) (List.sublist_cons_self _ _),
        not_mem_rest nodup⟩
    · rw [Function.update_of_ne same]
      refine ⟨List.Sublist.refl _, fun member => same ?_⟩
      have here : pid ∈ lists head := by
        rw [found]
        simp
      exact on.threaded.apart rdyhead head rdyhead_head isHead pid member here
  have away : ∀ other ∈ Function.update lists head (front ++ back) rdyhead, other ≠ pid :=
    fun other member same => rest.2 (same ▸ member)
  apply inLine.enter queue
  · rw [on.queue]
    exact rest.1
  · exact rest.2
  · intro other member
    have isReady := rest.1.subset member
    rw [prio_update (away other member) table, ← on.ready_key isReady, keyOf, keyOf]
    rw [← on.queue, on.mem_ready] at isReady
    rw [keys other (away other member) isReady.2]
  · intro other member
    exact prio_update (away other member) table

theorem readyNo_inLine (on : k.On lists) (inLine : InLine k tickets) {pid : Int}
    (homeless : ¬ isbadpid pid → home (k.proctab pid) = none) :
    InLine (readyNo k pid) (tickets.takes (readyEntries pid)) := by
  rw [readyEntries]
  by_cases bad : isbadpid pid
  · rw [readyNo, if_pos bad, if_pos bad]
    exact inLine
  · rw [if_neg bad]
    apply readied_inLine on inLine { k.proctab pid with pstate := .ready }
      (isProc_of_good bad).1 (homeless bad) rfl
    · rw [readyNo, if_neg bad]
    · exact readyNo_proctab bad k

theorem readyFirst_inLine (on : k.On lists) (inLine : InLine k tickets) {head : Int}
    (isHead : Head head) (away : head ≠ rdyhead) :
    InLine (readyFirst k head) (tickets.takes (firstEntries k head)) := by
  cases found : lists head with
  | nil =>
      have refused : readyEntries empty = [] := rfl
      rw [readyFirst_empty on isHead found, firstEntries,
        on.threaded.getfirst_nil isHead found, refused]
      exact inLine
  | cons pid rest =>
      have good := Board.good_of_mem on isHead away
        (show pid ∈ lists head by rw [found]; exact List.mem_cons_self)
      have taken := on.threaded.getfirst_cons isHead found
      rw [firstEntries, taken, readyEntries, if_neg good]
      have threaded : Threaded (dequeue k.q pid) (Function.update lists head ([] ++ rest)) :=
        on.threaded.dequeue isHead found
      apply requeued_inLine on inLine { k.proctab pid with pstate := .ready } isHead
        found threaded (fun other _ _ => dequeue_qkey k.q pid other) rfl
      · rw [readyFirst, taken, readyNo, if_neg good]
      · rw [readyFirst, taken, readyNo_proctab good]

end Entering

/-! ## Rescheduling -/

section Rescheduling

variable {k : Xinu} {lists : Int → List Int} {tickets : Tickets Int}

theorem iohook_inLine (done : List Int) : ∀ (k : Xinu) (lists : Int → List Int)
    (tickets : Tickets Int), k.On lists → InLine k tickets →
      InLine (iohook k done) (tickets.takes (iohookEntries k done)) := by
  induction done with
  | nil =>
      intro k lists tickets on inLine
      exact inLine
  | cons iopid others ih =>
      intro k lists tickets on inLine
      rw [iohook, iohookEntries]
      split
      · exact ih k lists tickets on inLine
      · rename_i resumes
        simp only [not_or, not_not] at resumes
        have homeless : ¬ isbadpid iopid → home (k.proctab iopid) = none := by
          intro good
          simp [home, resumes.2]
        rcases readyNo_on on homeless with ⟨readied, onReadied, same⟩
        have entered := readyNo_inLine on inLine homeless
        rw [readyEntries, if_neg resumes.1] at entered
        exact ih _ readied _ onReadied entered

theorem wakeupLoop_inLine (fuel : Nat) : ∀ (k : Xinu) (lists : Int → List Int)
    (tickets : Tickets Int), k.On lists → InLine k tickets →
      InLine (wakeupLoop fuel k) (tickets.takes (wakeupLoopEntries fuel k)) := by
  induction fuel with
  | zero =>
      intro k lists tickets on inLine
      exact inLine
  | succ fuel ih =>
      intro k lists tickets on inLine
      rw [wakeupLoop, wakeupLoopEntries]
      split
      · rename_i wakes
        rcases List.exists_cons_of_ne_nil
          (fun none => wakes.1 ((on.threaded.isempty_iff clockq_head).mpr none))
          with ⟨pid, rest, found⟩
        rcases readyFirst_on on clockq_head (by decide) found with ⟨readied, onReadied, same⟩
        rw [Tickets.takes_append]
        exact ih _ readied _ onReadied
          (readyFirst_inLine on inLine clockq_head (by decide))
      · exact inLine

theorem wakeup_q (k : Xinu) : (wakeup k).q = (wakeupLoop nqent k).q := by
  simp only [wakeup]
  split
  · rfl
  · rfl

theorem wakeup_inLine (on : k.On lists) (inLine : InLine k tickets) :
    InLine (wakeup k) (tickets.takes (wakeupLoopEntries nqent k)) :=
  (wakeupLoop_inLine nqent k lists tickets on inLine).congr (wakeup_q k) (wakeup_proctab k)

theorem deciding_inLine (on : k.On lists) (inLine : InLine k tickets) (scene : Scene) :
    InLine (deciding k scene) (tickets.takes (wokenEntries k scene)) := by
  rcases iohook_on scene.done k lists on with ⟨hooked, onHooked, same⟩
  rw [wokenEntries, Tickets.takes_append]
  exact wakeup_inLine onHooked (iohook_inLine scene.done k lists tickets on inLine)

theorem deciding_on (on : k.On lists) (scene : Scene) : ∃ after, (deciding k scene).On after := by
  rcases iohook_on scene.done k lists on with ⟨hooked, onHooked, sameHooked⟩
  rcases wakeup_on onHooked with ⟨woken, onWoken, rest⟩
  exact ⟨woken, onWoken⟩

theorem preempted_inLine (on : k.On lists) (inLine : InLine k tickets) :
    InLine (preempted k) (tickets.takes (preemptedEntries k)) := by
  rw [preempted, preemptedEntries]
  split
  · rename_i current
    exact readied_inLine on inLine { k.proctab k.currpid with pstate := .ready }
      on.proc (by simp [home, current]) rfl rfl rfl
  · exact inLine

theorem prio_of_roused {later : Xinu} (roused : RousedAll k later) (pid : Int) :
    prio later pid = prio k pid := by
  rw [prio, prio, (roused pid).pprio]

/-- The top of the ready list runs, the others stay. -/
theorem dispatch_top (on : k.On lists) (idle : ¬ k.Running) :
    ∃ others top, queued k.q rdyhead = others ++ [top] ∧ (dispatch k).currpid = top ∧
      queued (dispatch k).q rdyhead = others := by
  rcases ready_last on idle with ⟨others, top, found, last⟩
  have threaded : Threaded (dequeue k.q top) (Function.update lists rdyhead (others ++ [])) :=
    on.threaded.dequeue rdyhead_head found
  have queue := threaded.queued_eq rdyhead_head
  rw [Function.update_self, List.append_nil] at queue
  refine ⟨others, top, on.queue.trans found, ?_, ?_⟩
  · rw [dispatch, last]
    rfl
  · rw [dispatch, last]
    exact queue

/-- A process that the dispatcher can choose. -/
def Contends (k : Xinu) (pid : Int) : Prop :=
  (IsProc pid ∧ (k.proctab pid).pstate = .ready) ∨
    (pid = k.currpid ∧ (k.proctab pid).pstate = .curr)

/-- A choice among the processes of `woken`: the highest priority, then the oldest ticket.
One that has to give way to its equals stands behind them. -/
structure Dispatched (woken after : Xinu) (tickets : Tickets Int) : Prop where
  contends : Contends woken after.currpid
  maximal : ∀ pid, Contends woken pid → prio woken pid ≤ prio woken after.currpid
  oldest : ∀ pid, IsProc pid → (after.proctab pid).pstate = .ready →
    prio woken pid = prio woken after.currpid →
      tickets.since after.currpid < tickets.since pid
  yields : (woken.proctab woken.currpid).pstate = .curr →
    ∀ pid, IsProc pid → (woken.proctab pid).pstate = .ready →
      prio woken pid = prio woken woken.currpid →
        after.currpid ≠ woken.currpid ∧ tickets.since pid < tickets.since woken.currpid
  null : after.currpid = nullproc →
    ∀ pid, IsProc pid → pid ≠ nullproc → (after.proctab pid).pstate ≠ .ready

/-- The null process is below all others that are in use. -/
structure NullLowest (table : Int → Pentry) : Prop where
  null : (table nullproc).pprio.toInt = 0
  others : ∀ pid, IsProc pid → pid ≠ nullproc → (table pid).pstate ≠ .free →
    1 ≤ (table pid).pprio.toInt

theorem NullLowest.roused {before after : Int → Pentry} (lowest : NullLowest before)
    (roused : ∀ pid, Roused (before pid) (after pid)) : NullLowest after := by
  constructor
  · rw [(roused nullproc).pprio]
    exact lowest.null
  · intro pid isProc notNull notFree
    rw [(roused pid).pprio]
    apply lowest.others pid isProc notNull
    intro isFree
    have deaf : (before pid).pstate.deaf = true := by
      rw [isFree]
      rfl
    exact notFree (((roused pid).deaf_state (Or.inl deaf)).trans isFree)

theorem NullLowest.update {table : Int → Pentry} (lowest : NullLowest table) {pid : Int}
    {entry : Pentry} (null : pid = nullproc → entry.pprio = (table pid).pprio)
    (others : pid ≠ nullproc → entry.pstate ≠ .free → 1 ≤ entry.pprio.toInt) :
    NullLowest (Function.update table pid entry) := by
  constructor
  · by_cases same : nullproc = pid
    · have kept := lowest.null
      rw [same] at kept ⊢
      rw [Function.update_self, null same.symm]
      exact kept
    · rw [Function.update_of_ne same]
      exact lowest.null
  · intro other isProc notNull notFree
    by_cases same : other = pid
    · rw [same] at notNull notFree ⊢
      rw [Function.update_self] at notFree ⊢
      exact others notNull notFree
    · rw [Function.update_of_ne same] at notFree ⊢
      exact lowest.others other isProc notNull notFree

/-- The current process keeps the processor: all others are below it. -/
theorem kept_dispatched (on : k.On lists) (inLine : InLine k tickets)
    (lowest : NullLowest k.proctab) {scene : Scene} (stays : keeps k scene) : Dispatched k k tickets := by
  rcases stays with ⟨quantum, current, above⟩
  have higher : ∀ pid, IsProc pid → (k.proctab pid).pstate = .ready →
      prio k pid < prio k k.currpid := by
    intro pid isProc ready
    have member := (on.mem_ready pid).mpr ⟨isProc, ready⟩
    rcases (queued k.q rdyhead).eq_nil_or_concat.resolve_left (List.ne_nil_of_mem member)
      with ⟨others, top, found⟩
    rw [List.concat_eq_append] at found
    have last := on.threaded.tail_prev rdyhead_head
    rw [← on.queue, found, List.getLastD_concat, prevs] at last
    have topReady : top ∈ lists rdyhead := by
      rw [← on.queue, found]
      simp
    have key : (lastkey k.q rdytail).toInt = prio k top := by
      rw [lastkey, show rdytail = rdyhead + 1 from rfl, last]
      exact on.ready_key topReady
    have less : prio k top < prio k k.currpid := by
      rw [BitVec.slt_eq_decide, decide_eq_true_eq, key] at above
      exact above
    rw [found] at member
    rcases List.mem_append.mp member with inOthers | isTop
    · have ranked := inLine.ranked
      rw [found] at ranked
      have below := Ranked.rank_le (ranked.last pid inOthers)
      omega
    · rw [List.mem_singleton.mp isTop]
      exact less
  constructor
  · exact Or.inr ⟨rfl, current⟩
  · intro pid contends
    rcases contends with ready | runs
    · exact le_of_lt (higher pid ready.1 ready.2)
    · rw [runs.1]
  · intro pid isProc ready same
    have less := higher pid isProc ready
    omega
  · intro _ pid isProc ready same
    have less := higher pid isProc ready
    omega
  · intro null pid isProc notNull ready
    have less := higher pid isProc ready
    have positive : 1 ≤ prio k pid := lowest.others pid isProc notNull (by rw [ready]; decide)
    have zero : prio k nullproc = 0 := lowest.null
    rw [null, zero] at less
    omega

/-- Who is on the ready list when the dispatcher takes the last one. -/
theorem mem_preempted (on : k.On lists) {after : Int → List Int}
    (onAfter : (preempted k).On after) (pid : Int) :
    pid ∈ queued (preempted k).q rdyhead ↔ Contends k pid := by
  rw [onAfter.mem_ready, Contends, preempted]
  split
  · rename_i current
    simp only [Xinu.setState, Xinu.setEntry]
    by_cases same : pid = k.currpid
    · rw [same, Function.update_self]
      simp [current, on.proc]
    · rw [Function.update_of_ne same]
      simp [same]
  · rename_i idle
    constructor
    · intro ready
      exact Or.inl ready
    · intro contends
      rcases contends with ready | runs
      · exact ready
      · rw [runs.1] at runs
        exact absurd runs.2 idle

theorem since_of_preempted (current : (k.proctab k.currpid).pstate = .curr) :
    tickets.takes (preemptedEntries k) = tickets.take k.currpid := by
  rw [preemptedEntries, if_pos current]
  rfl

/-- The current process goes back on the ready list and the top of it is dispatched. -/
theorem switched_dispatched (on : k.On lists) (inLine : InLine k tickets)
    (lowest : NullLowest k.proctab) :
    Dispatched k (dispatch (preempted k)) (tickets.takes (preemptedEntries k)) ∧
      InLine (dispatch (preempted k)) (tickets.takes (preemptedEntries k)) := by
  rcases preempted_on on with ⟨waiting, onWaiting, idle, sameWaiting⟩
  rcases dispatch_on onWaiting idle with ⟨after, onAfter, running, sameAfter⟩
  rcases dispatch_top onWaiting idle with ⟨others, top, queue, runs, rest⟩
  have roused := preempted_roused k
  have rousedDispatch := dispatch_roused onWaiting idle
  have entered := preempted_inLine on inLine
  have contends := mem_preempted on onWaiting
  have line := entered.ranked
  rw [queue] at line
  have below := line.last
  have isTop : Contends k top := by
    rw [← contends, queue]
    simp
  have rankTop : ∀ pid ∈ others, prio k pid ≤ prio k top := by
    intro pid member
    have rises := Ranked.rank_le (below pid member)
    rw [prio_of_roused roused, prio_of_roused roused] at rises
    exact rises
  have maximal : ∀ pid, Contends k pid → prio k pid ≤ prio k top := by
    intro pid isContender
    rw [← contends, queue] at isContender
    rcases List.mem_append.mp isContender with inOthers | same
    · exact rankTop pid inOthers
    · rw [List.mem_singleton.mp same]
  have inOthers : ∀ pid, IsProc pid →
      ((dispatch (preempted k)).proctab pid).pstate = .ready → pid ∈ others := by
    intro pid isProc ready
    rw [← rest]
    exact (onAfter.mem_ready pid).mpr ⟨isProc, ready⟩
  have oldest : ∀ pid ∈ others, prio k pid = prio k top →
      (tickets.takes (preemptedEntries k)).since top <
        (tickets.takes (preemptedEntries k)).since pid := by
    intro pid member same
    rcases below pid member with less | tie
    · rw [prio_of_roused roused, prio_of_roused roused] at less
      omega
    · exact tie.2
  constructor
  · constructor
    · rw [runs]
      exact isTop
    · intro pid isContender
      rw [runs]
      exact maximal pid isContender
    · intro pid isProc ready same
      rw [runs] at same ⊢
      exact oldest pid (inOthers pid isProc ready) same
    · intro current pid isProc ready same
      have own : (tickets.takes (preemptedEntries k)).since k.currpid = tickets.count := by
        rw [since_of_preempted current]
        exact Function.update_self _ _ _
      have away : pid ≠ k.currpid := by
        intro equal
        rw [equal, current] at ready
        cases ready
      have older : (tickets.takes (preemptedEntries k)).since pid < tickets.count := by
        rw [since_of_preempted current]
        have past := inLine.past pid ((on.mem_ready pid).mpr ⟨isProc, ready⟩)
        show Function.update tickets.since k.currpid tickets.count pid < tickets.count
        rw [Function.update_of_ne away]
        exact past
      refine ⟨?_, by omega⟩
      rw [runs]
      intro equal
      have member := (contends pid).mpr (Or.inl ⟨isProc, ready⟩)
      rw [queue] at member
      rcases List.mem_append.mp member with inRest | isLast
      · have behind := oldest pid inRest (by rw [same, equal])
        rw [equal] at behind
        omega
      · rw [List.mem_singleton.mp isLast, equal] at away
        exact away rfl
    · intro null pid isProc notNull ready
      rw [runs] at null
      have rises := rankTop pid (inOthers pid isProc ready)
      have notFree : (k.proctab pid).pstate ≠ .free := by
        have contender := (contends pid).mp
          (by rw [queue]; exact List.mem_append_left _ (inOthers pid isProc ready))
        rcases contender with isReady | isCurrent
        · rw [isReady.2]
          decide
        · rw [isCurrent.2]
          decide
      have positive : 1 ≤ prio k pid := lowest.others pid isProc notNull notFree
      have zero : prio k nullproc = 0 := lowest.null
      rw [null, zero] at rises
      omega
  · apply entered.thin
    · rw [rest, queue]
      exact List.sublist_append_left others [top]
    · intro pid _
      exact prio_of_roused rousedDispatch pid

/-- One reschedule. -/
theorem resched_dispatched (on : k.On lists) (inLine : InLine k tickets)
    (lowest : NullLowest k.proctab)
    (scene : Scene) :
    Dispatched (deciding k scene) (resched k scene) (tickets.takes (reschedEntries k scene)) ∧
      InLine (resched k scene) (tickets.takes (reschedEntries k scene)) := by
  rcases iohook_on scene.done k lists on with ⟨hooked, onHooked, sameHooked⟩
  rcases deciding_on on scene with ⟨woken, onWoken⟩
  have line := deciding_inLine on inLine scene
  have lowestWoken : NullLowest (deciding k scene).proctab :=
    lowest.roused ((iohook_roused scene.done k).trans (wakeup_roused onHooked))
  have spec : resched k scene =
      if keeps (deciding k scene) scene then deciding k scene
      else dispatch (preempted (deciding k scene)) := rfl
  rw [spec, reschedEntries, Tickets.takes_append]
  by_cases stays : keeps (deciding k scene) scene
  · rw [if_pos stays, if_pos stays]
    exact ⟨kept_dispatched onWoken line lowestWoken stays, line⟩
  · rw [if_neg stays, if_neg stays]
    exact switched_dispatched onWoken line lowestWoken

end Rescheduling

/-! ## The calls -/

section Calls

variable {k : Xinu} {lists : Int → List Int} {tickets : Tickets Int}

theorem dequeue_thins (on : k.On lists) {head pid : Int} {front back : List Int}
    (found : lists head = front ++ pid :: back) {after : Qtab}
    (threaded : Threaded after (Function.update lists head (front ++ back))) :
    (queued after rdyhead).Sublist (queued k.q rdyhead) := by
  rw [threaded.queued_eq rdyhead_head, on.queue]
  by_cases same : rdyhead = head
  · rw [same, Function.update_self, found]
    exact List.Sublist.append (List.Sublist.refl _) (List.sublist_cons_self _ _)
  · rw [Function.update_of_ne same]

/-- A list other than the ready list gains a process. -/
theorem elsewhere_keeps (on : k.On lists) {head : Int} {pids : List Int} (away : head ≠ rdyhead)
    {after : Qtab} (threaded : Threaded after (Function.update lists head pids)) :
    queued after rdyhead = queued k.q rdyhead := by
  rw [threaded.queued_eq rdyhead_head, on.queue, Function.update_of_ne (Ne.symm away)]

theorem InLine.mark (inLine : InLine k tickets) (on : k.On lists) {later : Xinu} {pid : Int}
    (entry : Pentry) (part : (queued later.q rdyhead).Sublist (queued k.q rdyhead))
    (table : later.proctab = Function.update k.proctab pid entry)
    (same : entry.pprio = (k.proctab pid).pprio ∨ (k.proctab pid).pstate ≠ .ready) :
    InLine later tickets := by
  apply inLine.thin part
  intro other member
  by_cases isPid : other = pid
  · rw [isPid] at member ⊢
    have ready := ((on.mem_ready pid).mp (part.subset member)).2
    rw [prio, prio, table, Function.update_self, same.resolve_right (fun not => not ready)]
  · exact prio_update isPid table

theorem signalOnce_inLine (settled : Settled k lists) (inLine : InLine k tickets) {sem : Int}
    (good : ¬ isbadsem sem) :
    InLine (signalOnce k sem) (tickets.takes (signalOnceEntries k sem)) := by
  have counted := settled.setSem sem
    { k.semaph sem with semcnt := (k.semaph sem).semcnt + 1 }
  have line : InLine (k.setCount sem ((k.semaph sem).semcnt + 1)) tickets :=
    inLine.congr rfl rfl
  simp only [signalOnce, signalOnceEntries]
  split
  · exact readyFirst_inLine counted.on line (sqhead_head good) (sqhead_ne good).1
  · exact line

theorem signalTimes_inLine {sem : Int} (good : ¬ isbadsem sem) (count : Nat) :
    ∀ (k : Xinu) (lists : Int → List Int) (tickets : Tickets Int), Settled k lists →
      InLine k tickets →
        InLine (signalTimes sem count k) (tickets.takes (signalTimesEntries sem count k)) := by
  induction count with
  | zero =>
      intro k lists tickets settled inLine
      exact inLine
  | succ count ih =>
      intro k lists tickets settled inLine
      rcases signalOnce_becomes settled good with ⟨after, settledAfter, rest⟩
      rw [signalTimes, signalTimesEntries, Tickets.takes_append]
      exact ih _ after _ settledAfter (signalOnce_inLine settled inLine good)

theorem readyAll_inLine {head : Int} (isHead : Head head) (away : head ≠ rdyhead) (fuel : Nat) :
    ∀ (k : Xinu) (lists : Int → List Int) (tickets : Tickets Int), k.On lists →
      InLine k tickets →
        InLine (readyAll head fuel k) (tickets.takes (readyAllEntries head fuel k)) := by
  induction fuel with
  | zero =>
      intro k lists tickets on inLine
      exact inLine
  | succ fuel ih =>
      intro k lists tickets on inLine
      rw [readyAll, readyAllEntries]
      split
      · exact inLine
      · rename_i taken
        cases found : lists head with
        | nil =>
            rw [on.threaded.getfirst_nil isHead found] at taken
            exact absurd rfl taken
        | cons pid rest =>
            rcases readyFirst_on on isHead away found with ⟨after, onAfter, same⟩
            rw [Tickets.takes_append]
            exact ih _ after _ onAfter (readyFirst_inLine on inLine isHead away)

/-- A sleeper that is sent a message enters. -/
theorem unslept_inLine (on : k.On lists) (inLine : InLine k tickets) {pid : Int}
    (good : ¬ isbadpid pid)
    (asleep : (k.proctab pid).pstate = .sleep ∨ (k.proctab pid).pstate = .trecv) :
    InLine (readyNo (unsleep k pid).2 pid) (tickets.take pid) := by
  rcases unsleep_spec on good asleep with ⟨front, back, unslept⟩
  have threaded := unslept.threaded
  rw [unslept.q] at threaded
  apply requeued_inLine on inLine { k.proctab pid with pstate := .ready } clockq_head
    unslept.found threaded (fun other _ ready => unsleepq_keys on unslept.found other ready) rfl
  · rw [readyNo, if_neg good, unslept.q, unslept.proctab]
  · rw [readyNo_proctab good, unslept.proctab]

theorem sent_inLine (on : k.On lists) (inLine : InLine k tickets) (pid : Int) (msg : BitVec 32)
    (phasmsg : BitVec 8) : InLine (sent k pid msg phasmsg) tickets :=
  inLine.mark on _ (List.Sublist.refl _) rfl (Or.inl rfl)

theorem received_inLine (settled : Settled k lists) (inLine : InLine k tickets) {pid : Int}
    (good : ¬ isbadpid pid) (msg : BitVec 32) (phasmsg : BitVec 8)
    (receives : (k.proctab pid).pstate = .recv) :
    InLine (readyNo (sent k pid msg phasmsg) pid) (tickets.take pid) := by
  have homeless : home ((sent k pid msg phasmsg).proctab pid) = none := by
    simp [home, sent_pstate, receives]
  have line := readyNo_inLine (sent_settled settled good msg phasmsg).on
    (sent_inLine settled.on inLine pid msg phasmsg) (fun _ => homeless)
  rw [readyEntries, if_neg good] at line
  exact line

theorem sleepOn_inLine (settled : Settled k lists) (inLine : InLine k tickets) (state : Pstate)
    (delay : BitVec 32) : InLine (sleepOn k state delay) tickets := by
  have running := settled.running
  unfold Xinu.Running at running
  have homeless : home (k.proctab k.currpid) = none := by simp [home, running]
  rcases settled.on.threaded.insertd clockq_head settled.on.proc
    (settled.on.onNoList homeless) delay with ⟨front, back, found, threaded, keys⟩
  have queue : queued (sleepOn k state delay).q rdyhead = queued k.q rdyhead :=
    elsewhere_keeps settled.on (by decide) threaded
  apply inLine.mark settled.on { k.proctab k.currpid with pstate := state }
  · rw [queue]
  · rfl
  · exact Or.inl rfl

theorem create_inLine (settled : Settled k lists) (inLine : InLine k tickets) (stack : Bool)
    (priority : BitVec 32) : InLine (create k stack priority).2 tickets := by
  have table := create_proctab settled stack priority
  rcases newpid_spec nproc.toNat k settled.nextproc with ⟨next, isNext, result, found⟩
  have searched : (newpid nproc.toNat k).2.q = k.q := by
    rw [result]
  simp only [create, edited] at table ⊢
  split
  · exact inLine
  · rename_i valid
    simp only [if_neg valid] at table
    split
    · rename_i none
      simp only [if_pos none] at table
      exact inLine.congr searched table
    · rename_i some
      simp only [if_neg some] at table
      apply inLine.mark settled.on _ _ table
      · right
        rw [(found.resolve_left some).2]
        decide
      · rw [show ((newpid nproc.toNat k).2.setEntry _ _).q = k.q from searched]

theorem killed_inLine (settled : Settled k lists) (inLine : InLine k tickets) (pid : Int)
    (other : ¬ (¬ isbadpid pid ∧ (k.proctab pid).pstate = .curr)) (scene : Scene) :
    InLine (killpid k scene pid).2 tickets := by
  have table := killpid_proctab pid other scene
  have part : (queued (killpid k scene pid).2.q rdyhead).Sublist (queued k.q rdyhead) := by
    simp only [killpid]
    split
    · exact List.Sublist.refl _
    · rename_i good
      simp only [not_or] at good
      have isProc := (isProc_of_good good.1).1
      have asleep : home (k.proctab pid) = some clockq →
          ((k.proctab pid).pstate = .sleep ∨ (k.proctab pid).pstate = .trecv) →
          (queued (unsleep k pid).2.q rdyhead).Sublist (queued k.q rdyhead) := by
        intro isHome sleeps
        rcases unsleep_spec settled.on good.1 sleeps with ⟨front, back, unslept⟩
        exact dequeue_thins settled.on unslept.found unslept.threaded
      split
      · exact List.Sublist.refl _
      · rename_i current
        exact absurd ⟨good.1, current⟩ other
      · rename_i waits
        have isHome : home (k.proctab pid) = some (sqhead (k.proctab pid).psem) := by
          simp [home, waits]
        rcases settled.on.find isProc isHome with ⟨front, back, found⟩
        exact dequeue_thins settled.on found (settled.on.threaded.dequeue
          (sqhead_head (settled.on.sems pid isProc waits)) found)
      · rename_i ready
        rcases settled.on.find isProc (home_ready ready) with ⟨front, back, found⟩
        exact dequeue_thins settled.on found (settled.on.threaded.dequeue rdyhead_head found)
      · rename_i sleeps
        exact asleep (home_asleep (Or.inl sleeps)) (Or.inl sleeps)
      · rename_i times
        exact asleep (home_asleep (Or.inr times)) (Or.inr times)
      · exact List.Sublist.refl _
  simp only [edited] at table
  split at table
  · apply inLine.thin part
    intro other _
    rw [prio, prio, table]
  · exact inLine.mark settled.on _ part table (Or.inl rfl)

theorem resume_inLine (settled : Settled k lists) (inLine : InLine k tickets) (pid : Int) :
    InLine (part k (.resume pid)).kernel (tickets.takes (part k (.resume pid)).entered) := by
  simp only [part]
  split
  · rename_i refused
    simp only [idlePart, step, resume, if_pos refused]
    exact inLine
  · rename_i suspended
    simp only [not_or, not_not] at suspended
    have homeless : home (k.proctab pid) = none := by simp [home, suspended.2]
    have line := readyNo_inLine settled.on inLine (fun _ => homeless)
    rw [readyEntries, if_neg suspended.1] at line
    exact line

theorem suspend_inLine (settled : Settled k lists) (inLine : InLine k tickets) (pid : Int) :
    InLine (part k (.suspend pid)).kernel (tickets.takes (part k (.suspend pid)).entered) := by
  simp only [part]
  split
  · exact inLine.mark settled.on _ (List.Sublist.refl _) rfl (Or.inl rfl)
  · rename_i other
    simp only [idlePart, step, suspend]
    split
    · exact inLine
    · rename_i good
      split
      · rename_i ready
        simp only [not_or] at good
        rcases settled.on.find (isProc_of_good good.1).1 (home_ready ready)
          with ⟨front, back, found⟩
        exact inLine.mark settled.on _ (dequeue_thins settled.on found
          (settled.on.threaded.dequeue rdyhead_head found)) rfl (Or.inl rfl)
      · split
        · rename_i current
          exact absurd ⟨good, current⟩ other
        · exact inLine

theorem chprio_inLine (settled : Settled k lists) (inLine : InLine k tickets) (pid : Int)
    (newprio : BitVec 32) : InLine (part k (.chprio pid newprio)).kernel
      (tickets.takes (part k (.chprio pid newprio)).entered) := by
  simp only [part]
  split
  · rename_i bad
    simp only [idlePart, step, chprio, bad, true_or, if_true]
    exact inLine
  · rename_i good
    have isProc := (isProc_of_good good).1
    split
    · rename_i ready
      rcases settled.on.find isProc (home_ready ready) with ⟨front, back, found⟩
      exact requeued_inLine settled.on inLine { k.proctab pid with pprio := newprio }
        rdyhead_head found (settled.on.threaded.dequeue rdyhead_head found)
        (fun other _ _ => dequeue_qkey k.q pid other) ready rfl rfl
    · rename_i notReady
      split
      · exact inLine.mark settled.on _ (List.Sublist.refl _) rfl (Or.inr notReady)
      · rename_i notCurr
        simp only [idlePart, step, chprio]
        split
        · exact inLine
        · exact inLine.mark settled.on _ (List.Sublist.refl _) rfl (Or.inr notReady)

theorem screate_inLine (settled : Settled k lists) (inLine : InLine k tickets) (count : BitVec 32) :
    InLine (part k (.screate count)).kernel (tickets.takes (part k (.screate count)).entered) := by
  have q : (screate k count).2.q = k.q := by
    rcases newsem_spec nsem.toNat k settled.nextsem with ⟨next, isNext, found⟩
    simp only [screate]
    rcases found with none | ⟨sem, good, isFree, taken⟩
    · rw [none]
      rfl
    · rw [taken]
      split
      · rfl
      · rfl
  exact inLine.congr q (screate_proctab settled count)

theorem wait_inLine (settled : Settled k lists) (inLine : InLine k tickets) (sem : Int) :
    InLine (part k (.wait sem)).kernel (tickets.takes (part k (.wait sem)).entered) := by
  simp only [part]
  split
  · rename_i blocks
    have good : ¬ isbadsem sem := fun bad => blocks.1 (Or.inl bad)
    have running := settled.running
    unfold Xinu.Running at running
    have homeless : home (k.proctab k.currpid) = none := by simp [home, running]
    have threaded := settled.on.threaded.enqueue (sqhead_head good) settled.on.proc
      (settled.on.onNoList homeless)
    have tail : sqhead sem + 1 = sqtail sem := by
      unfold sqhead sqtail
      omega
    rw [tail] at threaded
    have queue : queued (blocked k sem).q rdyhead = queued k.q rdyhead :=
      elsewhere_keeps settled.on (sqhead_ne good).1 threaded
    apply inLine.mark settled.on
      { k.proctab k.currpid with pstate := .wait, psem := sem }
    · rw [queue]
    · rfl
    · exact Or.inl rfl
  · rename_i stays
    simp only [idlePart, step, wait_eq, if_neg stays]
    split
    · exact inLine
    · exact inLine.congr rfl rfl

theorem xsignal_inLine (settled : Settled k lists) (inLine : InLine k tickets) (sem : Int) :
    InLine (part k (.xsignal sem)).kernel (tickets.takes (part k (.xsignal sem)).entered) := by
  simp only [part]
  split
  · rename_i signals
    exact signalOnce_inLine settled inLine (fun bad => signals.1 (Or.inl bad))
  · rename_i returns
    by_cases refused : unusable k sem
    · simp only [idlePart, step, xsignal, if_pos refused]
      exact inLine
    · have stays : ¬ ((k.semaph sem).semcnt.slt 0 ∧
          ¬ isbadpid (getfirst k.q (sqhead sem)).1) := fun both => returns ⟨refused, both⟩
      have nobody : signalOnceEntries k sem = [] := by
        rw [signalOnceEntries]
        split
        · rename_i negative
          have bad := not_not.mp (fun good => stays ⟨negative, good⟩)
          rw [firstEntries, readyEntries, if_pos bad]
        · rfl
      have line := signalOnce_inLine settled inLine (fun bad => refused (Or.inl bad))
      rw [nobody] at line
      simp only [idlePart, step, xsignal_eq k calm refused, if_neg stays]
      exact line

theorem xsend_inLine (settled : Settled k lists) (inLine : InLine k tickets) (pid : Int)
    (msg : BitVec 32) : InLine (part k (.xsend pid msg)).kernel
      (tickets.takes (part k (.xsend pid msg)).entered) := by
  simp only [part]
  split
  · rename_i refused
    have returns : isbadpid pid ∨ (k.proctab pid).pstate = .free ∨
        (k.proctab pid).phasmsg ≠ 0 := refused.elim Or.inl (fun some => Or.inr (Or.inr some))
    simp only [idlePart, step, xsend, if_pos returns]
    exact inLine
  · rename_i valid
    simp only [not_or] at valid
    split
    · rename_i receives
      exact received_inLine settled inLine valid.1 msg 1 receives
    · rename_i notRecv
      have settledSent := sent_settled settled valid.1 msg 1
      have lineSent := sent_inLine settled.on inLine pid msg 1
      split
      · rename_i times
        exact unslept_inLine settledSent.on lineSent valid.1
          (Or.inr ((sent_pstate pid msg 1).trans times))
      · rename_i notTrecv
        simp only [idlePart, step, xsend]
        split
        · exact inLine
        · exact lineSent

theorem sendf_inLine (settled : Settled k lists) (inLine : InLine k tickets) (pid : Int)
    (msg : BitVec 32) : InLine (part k (.sendf pid msg)).kernel
      (tickets.takes (part k (.sendf pid msg)).entered) := by
  simp only [part]
  split
  · rename_i receives
    exact received_inLine settled inLine receives.1 msg _ receives.2
  · rename_i other
    simp only [idlePart, step, sendf]
    split
    · exact inLine
    · rename_i valid
      simp only [not_or] at valid
      rw [if_neg (fun receives => other ⟨valid.1, receives⟩)]
      exact sent_inLine settled.on inLine pid msg _

/-- A call's part moves the line as its entries say. -/
theorem part_inLine (settled : Settled k lists) (inLine : InLine k tickets) {call : Call}
    (orderly : Orderly k (call, calm)) :
    InLine (part k call).kernel (tickets.takes (part k call).entered) := by
  have wakes := orderly.2
  cases call with
  | create stack priority => exact create_inLine settled inLine stack priority
  | resume pid => exact resume_inLine settled inLine pid
  | suspend pid => exact suspend_inLine settled inLine pid
  | chprio pid newprio => exact chprio_inLine settled inLine pid newprio
  | killpid pid =>
      simp only [part]
      split
      · exact inLine.mark settled.on _ (List.Sublist.refl _) rfl (Or.inl rfl)
      · rename_i other
        exact killed_inLine settled inLine pid other calm
  | screate count => exact screate_inLine settled inLine count
  | wait sem => exact wait_inLine settled inLine sem
  | xsignal sem => exact xsignal_inLine settled inLine sem
  | signaln sem count =>
      simp only [part]
      split
      · rename_i refused
        simp only [idlePart, step, signaln, if_pos refused]
        exact inLine
      · rename_i valid
        exact signalTimes_inLine (fun bad => valid (Or.inl (Or.inl bad))) count.toNat k lists
          tickets settled inLine
  | sreset sem count =>
      simp only [part]
      split
      · rename_i refused
        simp only [idlePart, step, sreset, if_pos refused]
        exact inLine
      · rename_i valid
        have good : ¬ isbadsem sem := fun bad => valid (Or.inl bad)
        exact (readyAll_inLine (sqhead_head good) (sqhead_ne good).1 nqent k lists tickets
          settled.on inLine).congr rfl rfl
  | sdelete sem =>
      simp only [part]
      split
      · rename_i idle
        simp only [idlePart, step, sdelete]
        split
        · exact inLine
        · rename_i usable
          rw [if_pos (idle.resolve_left usable)]
          exact inLine.congr rfl rfl
      · rename_i valid
        have good : ¬ isbadsem sem := fun bad => valid (Or.inl (Or.inl bad))
        exact readyAll_inLine (sqhead_head good) (sqhead_ne good).1 nqent _ lists tickets
          (settled.setSem sem _).on (inLine.congr rfl rfl)
  | sleep10 n =>
      simp only [part]
      split
      · rename_i refused
        simp only [idlePart, step, sleep10, if_pos refused]
        exact inLine
      · split
        · exact inLine
        · exact sleepOn_inLine settled inLine .sleep n
  | receive =>
      simp only [part]
      split
      · exact inLine.mark settled.on _ (List.Sublist.refl _) rfl (Or.inl rfl)
      · rename_i some
        simp only [idlePart, step, receive, if_neg some]
        exact inLine
  | recvtim maxwait =>
      simp only [part]
      split
      · rename_i returns
        simp only [idlePart, step, recvtim]
        split
        · exact inLine
        · rename_i valid
          rw [if_neg (returns.resolve_left valid)]
          exact inLine
      · exact sleepOn_inLine settled inLine .trecv maxwait
  | received => exact inLine.mark settled.on _ (List.Sublist.refl _) rfl (Or.inl rfl)
  | xsend pid msg => exact xsend_inLine settled inLine pid msg
  | sendf pid msg => exact sendf_inLine settled inLine pid msg
  | wakeup => exact wakeup_inLine settled.on inLine
  | resched => exact inLine
  | timerPop =>
      have after := (timerPop_on settled.on settled.timed).queue
      rw [← settled.on.queue] at after
      apply inLine.thin
      · rw [show (part k .timerPop).kernel = timerPop k from rfl, after]
      · intro pid _
        rw [show (part k .timerPop).kernel = timerPop k from rfl, prio, prio, timerPop_proctab]
  | ctciSleep device => exact inLine.congr rfl rfl
  | ctciAwake device => exact inLine.congr rfl rfl
  | ctciWrite device =>
      simp only [part, ctciWrite]
      split
      · exact inLine
      · apply readyNo_inLine settled.on inLine
        intro good
        have idle := wakes.resolve_left good
        cases state : (k.proctab (k.pidsleep device)).pstate <;>
          simp_all [home, Pstate.offList]

end Calls

end MvsXinu.Kernel
