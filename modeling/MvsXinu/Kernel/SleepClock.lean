import MvsXinu.Lib.DeltaList
import MvsXinu.Lib.Runs
import MvsXinu.Kernel.Consistency

/-!
# How long a process sleeps (`wakeup.c`, `insertd.c`, `unsleep.c`, `MVSTMPOP`)

The timer exit counts the first key down, and nothing wakes the sleepers until some process
reschedules, so the first key may have gone below zero when the list is next scanned or
changed. Beside the kernel stands the number of ticks so far and, for each sleeper, the tick
at which its time is over. Whatever else the kernel does leaves the sleep list as it is.
-/

namespace MvsXinu.Kernel

open MvsXinu.Links MvsXinu.DeltaList MvsXinu.Runs

set_option autoImplicit false

structure SleepClock where
  kernel : Xinu
  now : Int
  due : Int → Int

inductive ClockEvent where
  | tick
  /-- `sleep10` and `recvtim` up to their reschedule. -/
  | sleep (state : Pstate) (n : BitVec 32)
  /-- A sleeper gets a message, or is killed. -/
  | unsleep (pid : Int) (killed : Bool)
  | wakeup
  | elsewhere (work : Xinu → Xinu)

def Asleep (k : Xinu) (pid : Int) : Prop :=
  (k.proctab pid).pstate = .sleep ∨ (k.proctab pid).pstate = .trecv

instance (k : Xinu) (pid : Int) : Decidable (Asleep k pid) := inferInstanceAs (Decidable (_ ∨ _))

/-- What `xsend` and `killpid` do with a sleeper. -/
def takeSleeper (k : Xinu) (pid : Int) (killed : Bool) : Xinu :=
  if isbadpid pid ∨ ¬ Asleep k pid then k
  else if killed then (unsleep k pid).2.setState pid .free
  else readyNo (unsleep k pid).2 pid

def clockStep (s : SleepClock) : ClockEvent → SleepClock
  | .tick => { s with kernel := timerPop s.kernel, now := s.now + 1 }
  | .sleep state n =>
      { s with
        kernel := sleepOn s.kernel state n
        due := Function.update s.due s.kernel.currpid (s.now + n.toInt) }
  | .unsleep pid killed => { s with kernel := takeSleeper s.kernel pid killed }
  | .wakeup => { s with kernel := wakeup s.kernel }
  | .elsewhere work => { s with kernel := work s.kernel }

/-- The sleep list is left as it is, and the lists stay consistent with the states. -/
def Apart (k later : Xinu) : Prop :=
  ∀ lists, k.On lists → ∃ after, later.On after ∧ after clockq = lists clockq ∧
    (∀ pid ∈ lists clockq, (later.q pid).qkey = (k.q pid).qkey) ∧
    later.slnempty = k.slnempty ∧ later.sltop = k.sltop

/-- A process that runs goes to sleep, for the delays that `sleep10` and `recvtim` let pass. -/
def Callable (s : SleepClock) : ClockEvent → Prop
  | .sleep state n =>
      s.kernel.Running ∧ s.kernel.currpid ≠ nullproc ∧ (state = .sleep ∨ state = .trecv) ∧
        n.slt 0 = false
  | .elsewhere work => Apart s.kernel (work s.kernel)
  | .tick | .unsleep _ _ | .wakeup => True

/-- The keys stay `int`s, and a scan that finds the first key below zero finds no key above
zero: the rest of the first key would be lost for those behind it. -/
def Prompt (s : SleepClock) : ClockEvent → Prop
  | .tick => s.kernel.slnempty = true → (s.kernel.q s.kernel.sltop).qkey ≠ minint
  | .sleep _ n =>
      ¬ isempty s.kernel.q clockq →
        n.toInt - (firstkey s.kernel.q clockq).toInt ≤ maxint.toInt
  | .wakeup =>
      (firstkey s.kernel.q clockq).slt 0 →
        ∀ pid, 0 ≤ pid → pid < nproc → Asleep s.kernel pid → (s.kernel.q pid).qkey.sle 0
  | .unsleep _ _ | .elsewhere _ => True

/-! ## Keys as numbers -/

theorem maxint_toInt : maxint.toInt = 2147483647 := by decide

theorem minint_toInt : minint.toInt = -2147483648 := by decide

theorem toInt_sub_in_range {first second : BitVec 32}
    (low : -2147483648 ≤ first.toInt - second.toInt)
    (high : first.toInt - second.toInt ≤ 2147483647) :
    (first - second).toInt = first.toInt - second.toInt := by
  rw [BitVec.toInt_sub]
  apply Int.bmod_eq_of_le <;> omega

theorem toInt_add_in_range {first second : BitVec 32}
    (low : -2147483648 ≤ first.toInt + second.toInt)
    (high : first.toInt + second.toInt ≤ 2147483647) :
    (first + second).toInt = first.toInt + second.toInt := by
  rw [BitVec.toInt_add]
  apply Int.bmod_eq_of_le <;> omega

theorem toInt_range (word : BitVec 32) :
    -2147483648 ≤ word.toInt ∧ word.toInt ≤ 2147483647 := by
  have low := word.le_toInt
  have high := word.toInt_lt
  omega

/-- The scan of `insertd` stops before the first sleeper that is not due earlier, with what is
left of the delay there. -/
theorem insertdScan_due {q : Qtab} {due : Int → Int} {tail target : Int}
    (full : (q tail).qkey = maxint) (rest : List Int) :
    ∀ fuel prev base (key : BitVec 32), Strung (nexts q) (prevs q) (rest ++ [tail]) →
      rest.length < fuel → Deltas (keyOf q) due base rest →
      key.toInt = target - base → 0 ≤ key.toInt →
      (∀ pid ∈ rest, target - due pid ≤ 2147483647) →
      ∃ front back left, rest = front ++ back ∧
        insertdScan q fuel prev (rest.headD tail) key =
          (front.getLastD prev, back.headD tail, left) ∧
        left.toInt = target - endTime due base front ∧ 0 ≤ left.toInt ∧
        ∀ next ∈ back.head?, left.toInt ≤ keyOf q next := by
  induction rest with
  | nil =>
      intro fuel prev base key strung enough deltas isKey nonneg near
      cases fuel with
      | zero => omega
      | succ fuel =>
          refine ⟨[], [], key, rfl, ?_, isKey, nonneg, ?_⟩
          · simp [insertdScan, full, not_maxint_slt]
          · intro next isNext
            cases isNext
  | cons pid others ih =>
      intro fuel prev base key strung enough deltas isKey nonneg near
      obtain ⟨pidDue, behind⟩ := deltas
      unfold keyOf at pidDue
      cases fuel with
      | zero => omega
      | succ fuel =>
          by_cases goesOn : (q pid).qkey.slt key = true
          · have next : (q pid).qnext = others.headD tail := Strung.next_head strung
            have shorter : others.length < fuel := by
              simp only [List.length_cons] at enough
              omega
            have below : (q pid).qkey.toInt < key.toInt := by
              simpa [BitVec.slt_eq_decide] using goesOn
            have bound := near pid List.mem_cons_self
            have rests : (key - (q pid).qkey).toInt = key.toInt - (q pid).qkey.toInt := by
              apply toInt_sub_in_range <;> omega
            obtain ⟨front, back, left, split, stops, isLeft, leftNonneg, first⟩ :=
              ih fuel pid (due pid) (key - (q pid).qkey) (Strung.rest strung) shorter behind
                (by omega) (by omega) (fun other member => near other (List.mem_cons_of_mem _ member))
            refine ⟨pid :: front, back, left, by rw [split, List.cons_append], ?_, isLeft,
              leftNonneg, first⟩
            rw [List.getLastD_cons, ← stops, ← next]
            simp [insertdScan, goesOn]
          · refine ⟨[], pid :: others, key, rfl, ?_, isKey, nonneg, ?_⟩
            · simp [insertdScan, goesOn]
            · intro next isNext
              have same : pid = next := Option.some.inj isNext
              have above : key.toInt ≤ (q pid).qkey.toInt := by
                simpa [BitVec.slt_eq_decide] using goesOn
              rw [← same]
              exact above

/-! ## What the operations do to the keys -/

theorem insertd_own_key {q : Qtab} {pid head low high : Int} {key left : BitVec 32}
    (stops : insertdScan q nqent head (q head).qnext key = (low, high, left))
    (away : high ≠ pid) : (insertd q pid head key pid).qkey = left := by
  unfold insertd
  rw [stops]
  dsimp only
  split <;> simp [Ne.symm away]

theorem insertd_next_key {q : Qtab} {pid head low high : Int} {key left : BitVec 32}
    (stops : insertdScan q nqent head (q head).qnext key = (low, high, left))
    (away : high ≠ pid) (isProc : high < nproc) :
    (insertd q pid head key high).qkey = (q high).qkey - left := by
  unfold insertd
  rw [stops]
  dsimp only
  rw [if_pos isProc]
  simp [away]

theorem unsleepq_next_key {q : Qtab} {pid : Int} (isProc : nexts q pid < nproc) :
    (unsleepq q pid (nexts q pid)).qkey = (q (nexts q pid)).qkey + (q pid).qkey := by
  unfold nexts at isProc ⊢
  unfold unsleepq
  rw [if_pos isProc, dequeue_qkey]
  simp

theorem readyNo_qkey {k : Xinu} {pid other : Int} (away : other ≠ pid) :
    ((readyNo k pid).q other).qkey = (k.q other).qkey := by
  unfold readyNo
  split
  · rfl
  · dsimp only
    rw [insert_qkey, if_neg away]

theorem readyNo_clock (k : Xinu) (pid : Int) :
    (readyNo k pid).slnempty = k.slnempty ∧ (readyNo k pid).sltop = k.sltop := by
  unfold readyNo
  split
  · exact ⟨rfl, rfl⟩
  · exact ⟨rfl, rfl⟩

theorem mem_clockq {k : Xinu} {lists : Int → List Int} (on : k.On lists) {pid : Int} :
    pid ∈ lists clockq ↔ IsProc pid ∧ Asleep k pid := by
  rw [on.member clockq pid clockq_head]
  constructor
  · rintro ⟨isProc, isHome⟩
    refine ⟨isProc, ?_⟩
    unfold Asleep
    have good := on.sems pid isProc
    rw [home_eq_clockq good] at isHome
    exact isHome
  · rintro ⟨isProc, asleep⟩
    exact ⟨isProc, home_asleep asleep⟩

/-- The sleepers whose keys are used up, and no others, become ready. -/
structure Scanned (k later : Xinu) (lists after : Int → List Int) : Prop where
  on : later.On after
  left : after clockq = (lists clockq).dropWhile (fun pid => keyOf k.q pid ≤ 0)
  keys : ∀ pid ∈ after clockq, (later.q pid).qkey = (k.q pid).qkey
  woken : ∀ pid ∈ (lists clockq).takeWhile (fun pid => keyOf k.q pid ≤ 0),
    (later.proctab pid).pstate = .ready
  others : ∀ pid, pid ∉ (lists clockq).takeWhile (fun pid => keyOf k.q pid ≤ 0) →
    later.proctab pid = k.proctab pid

theorem readyFirst_qkey {k : Xinu} {lists : Int → List Int} (on : k.On lists) {pid other : Int}
    {rest : List Int} (found : lists clockq = pid :: rest) (away : other ≠ pid) :
    ((readyFirst k clockq).q other).qkey = (k.q other).qkey := by
  unfold readyFirst
  rw [on.threaded.getfirst_cons clockq_head found, readyNo_qkey away]
  exact dequeue_qkey k.q pid other

theorem readyFirst_proctab {k : Xinu} {lists : Int → List Int} (on : k.On lists) {pid : Int}
    {rest : List Int} (found : lists clockq = pid :: rest) :
    (readyFirst k clockq).proctab =
      Function.update k.proctab pid { k.proctab pid with pstate := .ready } := by
  have good := Board.good_of_mem on clockq_head (by decide)
    (by rw [found]; exact List.mem_cons_self : pid ∈ lists clockq)
  unfold readyFirst
  rw [on.threaded.getfirst_cons clockq_head found]
  unfold readyNo
  rw [if_neg good]
  rfl

theorem sle_zero_iff (word : BitVec 32) : word.sle 0 = true ↔ word.toInt ≤ 0 := by
  simp [BitVec.sle_eq_decide]

theorem firstkey_cons {k : Xinu} {lists : Int → List Int} (on : k.On lists) {pid : Int}
    {rest : List Int} (found : lists clockq = pid :: rest) :
    firstkey k.q clockq = (k.q pid).qkey := by
  have next := on.threaded.head_next clockq_head
  rw [found, List.headD_cons] at next
  unfold nexts at next
  unfold firstkey
  rw [next]

theorem Scanned.cons {k later : Xinu} {lists readied after : Int → List Int} {pid : Int}
    {rest : List Int} (scanned : Scanned (readyFirst k clockq) later readied after)
    (on : k.On lists) (shape : lists clockq = pid :: rest) (used : keyOf k.q pid ≤ 0)
    (rests : readied clockq = rest) : Scanned k later lists after := by
  have nodup := on.threaded.nodup clockq clockq_head
  rw [shape, List.nodup_cons] at nodup
  have sameKey : ∀ other ∈ rest, ((readyFirst k clockq).q other).qkey = (k.q other).qkey := by
    intro other member
    apply readyFirst_qkey on shape
    rintro rfl
    exact nodup.1 member
  have sameInt : ∀ other ∈ rest, keyOf (readyFirst k clockq).q other = keyOf k.q other := by
    intro other member
    exact congrArg BitVec.toInt (sameKey other member)
  obtain ⟨sameTake, sameDrop⟩ := used_up_congr sameInt
  have table := readyFirst_proctab on shape
  obtain ⟨onAfter, left, keys, woken, others⟩ := scanned
  rw [rests, sameDrop] at left
  rw [rests, sameTake] at woken others
  have taken : (lists clockq).takeWhile (fun pid => keyOf k.q pid ≤ 0) =
      pid :: rest.takeWhile (fun pid => keyOf k.q pid ≤ 0) := by
    rw [shape]
    exact List.takeWhile_cons_of_pos (by simpa using used)
  refine ⟨onAfter, ?_, ?_, ?_, ?_⟩
  · rw [left, shape, List.dropWhile_cons_of_pos (by simpa using used)]
  · intro other member
    rw [keys other member]
    rw [left] at member
    exact sameKey other ((List.dropWhile_sublist _).subset member)
  · rw [taken, List.forall_mem_cons]
    refine ⟨?_, woken⟩
    have notAgain : pid ∉ rest.takeWhile (fun pid => keyOf k.q pid ≤ 0) :=
      fun member => nodup.1 ((List.takeWhile_sublist _).subset member)
    rw [others pid notAgain, table, Function.update_self]
  · intro other notTaken
    rw [taken, List.mem_cons, not_or] at notTaken
    rw [others other notTaken.2, table, Function.update_of_ne notTaken.1]

theorem wakeupLoop_scanned (fuel : Nat) : ∀ (k : Xinu) (lists : Int → List Int), k.On lists →
    (lists clockq).length < fuel → ∃ after, Scanned k (wakeupLoop fuel k) lists after := by
  induction fuel with
  | zero =>
      intro k lists on enough
      omega
  | succ fuel ih =>
      intro k lists on enough
      have nodup := on.threaded.nodup clockq clockq_head
      unfold wakeupLoop
      cases shape : lists clockq with
      | nil =>
          have nobody := (on.threaded.isempty_iff clockq_head).mpr shape
          rw [if_neg (fun wakes => wakes.1 nobody)]
          refine ⟨lists, on, ?_, fun _ _ => rfl, ?_, fun _ _ => rfl⟩
          · rw [shape]
            rfl
          · rw [shape]
            intro pid member
            cases member
      | cons pid rest =>
          have somebody : ¬ isempty k.q clockq := by
            intro nobody
            rw [(on.threaded.isempty_iff clockq_head).mp nobody] at shape
            cases shape
          rw [firstkey_cons on shape]
          by_cases used : keyOf k.q pid ≤ 0
          · rw [if_pos ⟨somebody, (sle_zero_iff _).mpr used⟩]
            obtain ⟨readied, onReadied, same⟩ :=
              readyFirst_on on clockq_head (by decide) shape
            have rests : readied clockq = rest := by
              rw [same clockq (by decide), Function.update_self]
            have shorter : (readied clockq).length < fuel := by
              rw [rests]
              rw [shape, List.length_cons] at enough
              omega
            obtain ⟨after, scanned⟩ := ih _ readied onReadied shorter
            exact ⟨after, scanned.cons on shape used rests⟩
          · rw [if_neg (fun wakes => used ((sle_zero_iff _).mp wakes.2))]
            have none : (lists clockq).takeWhile (fun pid => keyOf k.q pid ≤ 0) = [] := by
              rw [shape]
              exact List.takeWhile_cons_of_neg (by simpa using used)
            refine ⟨lists, on, ?_, fun _ _ => rfl, ?_, fun _ _ => rfl⟩
            · rw [shape, List.dropWhile_cons_of_neg (by simpa using used)]
            · rw [none]
              intro pid member
              cases member

theorem wakeup_scanned {k : Xinu} {lists : Int → List Int} (on : k.On lists) :
    ∃ after, Scanned k (wakeup k) lists after ∧ (wakeup k).Timed after ∧
      (after clockq ≠ [] → (wakeup k).slnempty = true) := by
  have short := on.threaded.length_le clockq_head
  obtain ⟨after, scanned⟩ := wakeupLoop_scanned nqent k lists on (by unfold nqent; omega)
  have nobody := scanned.on.threaded.isempty_iff clockq_head
  have next := scanned.on.threaded.head_next clockq_head
  unfold wakeup
  dsimp only
  split
  · rename_i none
    refine ⟨after, ⟨scanned.on, scanned.left, scanned.keys, scanned.woken, scanned.others⟩, ?_, ?_⟩
    · intro sleeping
      cases sleeping
    · intro some
      exact absurd (nobody.mp none) some
  · rename_i some
    refine ⟨after, ⟨scanned.on, scanned.left, scanned.keys, scanned.woken, scanned.others⟩, ?_,
      fun _ => rfl⟩
    intro _
    obtain ⟨pid, rest, found⟩ := List.exists_cons_of_ne_nil (fun none => some (nobody.mpr none))
    rw [found, List.headD_cons] at next
    rw [found, List.head?_cons]
    exact congrArg _ next.symm

/-! ## The times of the sleepers -/

/-- The keys tell when each sleeper is due. Any two of them are due within the range of an
`int` of each other, so no key that `insertd` and `unsleep` form is out of range. -/
structure OnTime (s : SleepClock) (lists : Int → List Int) : Prop where
  on : s.kernel.On lists
  timed : s.kernel.Timed lists
  ticking : lists clockq ≠ [] → s.kernel.slnempty = true
  deltas : Deltas (keyOf s.kernel.q) s.due s.now (lists clockq)
  rising : ∀ pid ∈ (lists clockq).tail, 0 ≤ keyOf s.kernel.q pid
  span : ∀ pid ∈ lists clockq, ∀ other ∈ lists clockq, s.due pid - s.due other ≤ 2147483647
  ahead : ∀ pid ∈ lists clockq, s.due pid - s.now ≤ 2147483647

section Steps

variable {s : SleepClock} {lists : Int → List Int}

theorem OnTime.first_le (onTime : OnTime s lists) {first : Int} {rest : List Int}
    (found : lists clockq = first :: rest) : ∀ pid ∈ lists clockq, s.due first ≤ s.due pid := by
  have deltas := onTime.deltas
  have rising := onTime.rising
  rw [found] at deltas rising ⊢
  rw [List.forall_mem_cons]
  exact ⟨le_refl _, deltas.2.base_le rising⟩

theorem tick_on_time (onTime : OnTime s lists) (prompt : Prompt s .tick) :
    OnTime (clockStep s .tick) lists := by
  have on := timerPop_on onTime.on onTime.timed
  have later : ∀ pid ∈ lists clockq, s.due pid - (s.now + 1) ≤ 2147483647 := by
    intro pid member
    have bound := onTime.ahead pid member
    omega
  by_cases sleeping : s.kernel.slnempty = true
  · have first := onTime.timed sleeping
    have nodup := onTime.on.threaded.nodup clockq clockq_head
    obtain ⟨rest, found⟩ := List.head?_eq_some_iff.mp first
    have kernel : timerPop s.kernel =
        { s.kernel with
          q := setKey s.kernel.q s.kernel.sltop ((s.kernel.q s.kernel.sltop).qkey - 1) } := by
      unfold timerPop
      rw [if_pos sleeping]
    have range := toInt_range (s.kernel.q s.kernel.sltop).qkey
    have notLeast : (s.kernel.q s.kernel.sltop).qkey.toInt ≠ -2147483648 := by
      intro least
      rw [← minint_toInt] at least
      exact prompt sleeping (BitVec.eq_of_toInt_eq least)
    have one : (1 : BitVec 32).toInt = 1 := by decide
    have counted : ((s.kernel.q s.kernel.sltop).qkey - 1).toInt =
        (s.kernel.q s.kernel.sltop).qkey.toInt - 1 := by
      rw [toInt_sub_in_range (by omega) (by omega), one]
    have others : ∀ pid ∈ (lists clockq).tail,
        keyOf (timerPop s.kernel).q pid = keyOf s.kernel.q pid := by
      rw [found] at nodup ⊢
      intro pid member
      have away : pid ≠ s.kernel.sltop := by
        rintro rfl
        exact (List.nodup_cons.mp nodup).1 member
      rw [kernel]
      simp [keyOf, away]
    refine ⟨on, ?_, ?_, ?_, ?_, onTime.span, later⟩
    · simpa [clockStep, kernel, Xinu.Timed] using onTime.timed
    · simpa [clockStep, kernel] using onTime.ticking
    · apply onTime.deltas.advance _ others
      intro pid isFirst
      rw [first] at isFirst
      have same : s.kernel.sltop = pid := Option.some.inj isFirst
      rw [← same, kernel]
      simpa [keyOf] using counted
    · intro pid member
      rw [clockStep, others pid member]
      exact onTime.rising pid member
  · have nobody : lists clockq = [] := by
      by_contra some
      exact sleeping (onTime.ticking some)
    have kernel : timerPop s.kernel = s.kernel := by
      unfold timerPop
      rw [if_neg sleeping]
    refine ⟨on, ?_, ?_, ?_, ?_, onTime.span, later⟩
    · simpa [clockStep, kernel] using onTime.timed
    · simpa [clockStep, kernel] using onTime.ticking
    · rw [nobody]
      trivial
    · rw [nobody]
      intro pid member
      cases member

/-- The delay is near enough to all the sleepers for the scan of `insertd`. -/
theorem near_of_prompt (onTime : OnTime s lists) {state : Pstate} {n : BitVec 32}
    (prompt : Prompt s (.sleep state n)) :
    ∀ pid ∈ lists clockq, s.now + n.toInt - s.due pid ≤ 2147483647 := by
  intro pid member
  obtain ⟨first, rest, found⟩ := List.exists_cons_of_ne_nil (List.ne_nil_of_mem member)
  have somebody : ¬ isempty s.kernel.q clockq := by
    intro nobody
    rw [(onTime.on.threaded.isempty_iff clockq_head).mp nobody] at found
    cases found
  have bound := prompt somebody
  have least := onTime.first_le found pid member
  have firstDue := onTime.deltas
  rw [found] at firstDue
  have counts := firstDue.1
  rw [firstkey_cons onTime.on found, maxint_toInt] at bound
  unfold keyOf at counts
  omega

/-- The sleepers on the other side of the place where the list is cut are not the next one. -/
theorem not_next_of_nodup {front back : List Int} (nodup : (front ++ back).Nodup) {pid : Int}
    (member : pid ∈ front ∨ pid ∈ back.tail) : pid ∉ back.head? := by
  intro isNext
  cases back with
  | nil => cases isNext
  | cons next rest =>
      have same : next = pid := Option.some.inj isNext
      rw [← same] at member
      have apart := not_mem_rest nodup
      rcases member with inFront | inRest
      · exact apart (List.mem_append_left _ inFront)
      · exact apart (List.mem_append_right _ inRest)

theorem mem_tail_insert {front back : List Int} {pid other : Int}
    (member : other ∈ (front ++ pid :: back).tail) :
    other = pid ∨ other ∈ back.head? ∨ other ∈ (front ++ back).tail := by
  cases front with
  | nil =>
      cases back with
      | nil => cases member
      | cons next rest =>
          rcases List.mem_cons.mp member with rfl | inRest
          · exact Or.inr (Or.inl rfl)
          · exact Or.inr (Or.inr inRest)
  | cons first rest =>
      simp only [List.cons_append, List.tail_cons, List.mem_append, List.mem_cons] at member ⊢
      rcases member with inRest | same | inBack
      · exact Or.inr (Or.inr (Or.inl inRest))
      · exact Or.inl same
      · exact Or.inr (Or.inr (Or.inr inBack))

/-- The process is on the sleep list under its time, and the others keep theirs. -/
structure Placed (q after : Qtab) (lists : Int → List Int) (due : Int → Int) (now pid : Int)
    (front back : List Int) : Prop where
  found : lists clockq = front ++ back
  threaded : Threaded after (Function.update lists clockq (front ++ pid :: back))
  keys : ∀ other, other ≠ pid → other ∉ lists clockq → (after other).qkey = (q other).qkey
  deltas : Deltas (keyOf after) due now (front ++ pid :: back)
  rising : ∀ other ∈ (front ++ pid :: back).tail, 0 ≤ keyOf after other

theorem insertd_placed {q : Qtab} {pid now : Int} {key : BitVec 32} {due later : Int → Int}
    (threaded : Threaded q lists) (isProc : IsProc pid) (onNone : OnNoList lists pid)
    (deltas : Deltas (keyOf q) due now (lists clockq))
    (rising : ∀ other ∈ (lists clockq).tail, 0 ≤ keyOf q other) (nonneg : 0 ≤ key.toInt)
    (near : ∀ other ∈ lists clockq, now + key.toInt - due other ≤ 2147483647)
    (own : later pid = now + key.toInt) (same : ∀ other ∈ lists clockq, later other = due other) :
    ∃ front back, Placed q (insertd q pid clockq key) lists later now pid front back := by
  have nodup := threaded.nodup clockq clockq_head
  have short := threaded.length_le clockq_head
  have absent := onNone clockq clockq_head
  obtain ⟨front, back, left, found, stops, isLeft, leftNonneg, first⟩ := insertdScan_due
    (threaded.tails clockq clockq_head) (lists clockq) nqent clockq now key
    (Strung.rest (threaded.strung clockq clockq_head)) (by unfold nqent; omega)
    deltas (by omega : key.toInt = now + key.toInt - now) nonneg near
  rw [← threaded.head_next clockq_head] at stops
  obtain ⟨linked, keys⟩ := threaded.insertd_at clockq_head isProc onNone found stops
  obtain ⟨_, awayHigh⟩ := ends_away clockq_head found isProc.2 onNone
  have ownKey : keyOf (insertd q pid clockq key) pid = left.toInt := by
    unfold keyOf
    rw [insertd_own_key stops awayHigh]
  have nextKey : ∀ next ∈ back.head?,
      keyOf (insertd q pid clockq key) next = keyOf q next - left.toInt := by
    intro next isNext
    have inList : next ∈ lists clockq := by
      rw [found]
      exact List.mem_append_right _ (List.mem_of_head? isNext)
    have isProc := threaded.procs clockq clockq_head next inList
    have high : back.headD (clockq + 1) = next := by
      rw [List.headD_eq_head?_getD, Option.mem_def.mp isNext]
      rfl
    rw [high] at stops awayHigh
    have bound := first next isNext
    have range := toInt_range (q next).qkey
    unfold keyOf at bound ⊢
    rw [insertd_next_key stops awayHigh isProc.2]
    apply toInt_sub_in_range <;> omega
  have otherKey : ∀ other ∈ lists clockq, other ∉ back.head? →
      keyOf (insertd q pid clockq key) other = keyOf q other := by
    intro other member notNext
    have away : other ≠ pid := by
      rintro rfl
      exact absent member
    exact congrArg BitVec.toInt (keys other away notNext)
  refine ⟨front, back, found, linked, ?_, ?_, ?_⟩
  · intro other away notIn
    apply keys other away
    intro isNext
    rw [found] at notIn
    exact notIn (List.mem_append_right _ (List.mem_of_head? isNext))
  · have before := deltas.congr (fun _ _ => rfl) same
    rw [found] at before
    apply before.insert
    · rw [endTime_congr (fun other member => same other (by
        rw [found]
        exact List.mem_append_left _ member)), own]
      exact ownKey.trans isLeft
    · intro next isNext
      exact (nextKey next isNext).trans (by rw [← ownKey])
    · intro other member
      refine otherKey other ?_ (not_next_of_nodup (found ▸ nodup) (Or.inl member))
      rw [found]
      exact List.mem_append_left _ member
    · intro other member
      refine otherKey other ?_ (not_next_of_nodup (found ▸ nodup) (Or.inr member))
      rw [found]
      exact List.mem_append_right _ (List.mem_of_mem_tail member)
  · intro other member
    by_cases isNext : other ∈ back.head?
    · have bound := first other isNext
      have value := nextKey other isNext
      omega
    · rcases mem_tail_insert member with rfl | next | inTail
      · omega
      · exact absurd next isNext
      · rw [← found] at inTail
        rw [otherKey other (List.mem_of_mem_tail inTail) isNext]
        exact rising other inTail

theorem sleep_on_time (onTime : OnTime s lists) {state : Pstate} {n : BitVec 32}
    (callable : Callable s (.sleep state n)) (prompt : Prompt s (.sleep state n)) :
    ∃ after, OnTime (clockStep s (.sleep state n)) after := by
  obtain ⟨running, notNull, asleep, positive⟩ := callable
  have near := near_of_prompt onTime prompt
  have nonneg : 0 ≤ n.toInt := by
    simpa [BitVec.slt_eq_decide] using positive
  have homeless : home (s.kernel.proctab s.kernel.currpid) = none := by
    unfold Xinu.Running at running
    simp [home, running]
  have onNone := onTime.on.onNoList homeless
  have sameDue : ∀ pid ∈ lists clockq,
      Function.update s.due s.kernel.currpid (s.now + n.toInt) pid = s.due pid := by
    intro pid member
    apply Function.update_of_ne
    rintro rfl
    exact onNone clockq clockq_head member
  obtain ⟨front, back, placed⟩ := insertd_placed onTime.on.threaded onTime.on.proc onNone
    onTime.deltas onTime.rising nonneg near (Function.update_self _ _ _) sameDue
  have found := placed.found
  have members : ∀ pid, pid ∈ front ++ s.kernel.currpid :: back ↔
      pid = s.kernel.currpid ∨ pid ∈ lists clockq := by
    intro pid
    rw [found]
    simp only [List.mem_append, List.mem_cons]
    tauto
  refine ⟨Function.update lists clockq (front ++ s.kernel.currpid :: back), ?_, ?_, ?_, ?_, ?_,
    ?_, ?_⟩
  · exact sleepOn_moves onTime.on running asleep notNull found placed.threaded placed.keys
  · intro _
    have next := placed.threaded.head_next clockq_head
    rw [Function.update_self] at next ⊢
    unfold nexts at next
    rw [clockStep, sleepOn]
    dsimp only
    rw [next]
    cases front with
    | nil => rfl
    | cons first rest => rfl
  · intro _
    rfl
  · rw [Function.update_self]
    exact placed.deltas
  · rw [Function.update_self]
    exact placed.rising
  · rw [Function.update_self]
    intro pid member other memberOther
    rw [members] at member memberOther
    rw [clockStep]
    dsimp only
    rcases member with rfl | inList
    · rcases memberOther with rfl | otherIn
      · omega
      · rw [Function.update_self, sameDue other otherIn]
        exact near other otherIn
    · rcases memberOther with rfl | otherIn
      · have bound := onTime.ahead pid inList
        rw [Function.update_self, sameDue pid inList]
        omega
      · rw [sameDue pid inList, sameDue other otherIn]
        exact onTime.span pid inList other otherIn
  · rw [Function.update_self]
    intro pid member
    rw [members] at member
    rw [clockStep]
    dsimp only
    rcases member with rfl | inList
    · have range := toInt_range n
      rw [Function.update_self]
      omega
    · rw [sameDue pid inList]
      exact onTime.ahead pid inList

/-- What the next sleeper is given stays in the range of an `int`. -/
theorem OnTime.sum_in_range (onTime : OnTime s lists) {pid next : Int} {front rest : List Int}
    (found : lists clockq = front ++ pid :: next :: rest) :
    keyOf s.kernel.q next + keyOf s.kernel.q pid ≤ 2147483647 := by
  have deltas := onTime.deltas
  rw [found, deltas_append] at deltas
  obtain ⟨_, pidDue, nextDue, _⟩ := deltas
  have nextIn : next ∈ lists clockq := by
    rw [found]
    simp
  cases front with
  | nil =>
      have bound := onTime.ahead next nextIn
      have start : endTime s.due s.now [] = s.now := rfl
      omega
  | cons first others =>
      have ending : ∃ last ∈ first :: others,
          endTime s.due s.now (first :: others) = s.due last :=
        endTime_mem (List.cons_ne_nil first others)
      obtain ⟨last, member, isEnd⟩ := ending
      have bound := onTime.span next nextIn last (by
        rw [found]
        exact List.mem_append_left _ member)
      omega

/-- Without one sleeper the others keep their times, as long as the key that is given on stays an
`int`. -/
theorem unsleepq_deltas {q : Qtab} {pid now : Int} {front back : List Int} {due : Int → Int}
    (threaded : Threaded q lists) (found : lists clockq = front ++ pid :: back)
    (deltas : Deltas (keyOf q) due now (lists clockq))
    (rising : ∀ other ∈ (lists clockq).tail, 0 ≤ keyOf q other)
    (range : ∀ next ∈ back.head?, keyOf q next + keyOf q pid ≤ 2147483647) :
    Deltas (keyOf (unsleepq q pid)) due now (front ++ back) ∧
      ∀ other ∈ (front ++ back).tail, 0 ≤ keyOf (unsleepq q pid) other := by
  have nodup := threaded.nodup clockq clockq_head
  have around := (threaded.around clockq_head found).2
  have procs := threaded.procs clockq clockq_head
  rw [found] at nodup procs deltas rising
  have joined : (front ++ back).Nodup :=
    List.Nodup.sublist (List.Sublist.append_left (List.sublist_cons_self pid back) front) nodup
  have otherKey : ∀ other, other ∉ back.head? → other ∈ front ++ back →
      keyOf (unsleepq q pid) other = keyOf q other := by
    intro other notNext member
    have isProc := procs other (by
      rcases List.mem_append.mp member with inFront | inBack
      · exact List.mem_append_left _ inFront
      · exact List.mem_append_right _ (List.mem_cons_of_mem _ inBack))
    unfold keyOf
    rw [unsleepq_qkey]
    left
    rw [around]
    cases back with
    | nil =>
        rintro rfl
        exact absurd isProc.2 (by decide)
    | cons next rest =>
        rintro rfl
        exact notNext rfl
  have nextKey : ∀ next ∈ back.head?,
      keyOf (unsleepq q pid) next = keyOf q next + keyOf q pid ∧
        (front ≠ [] → 0 ≤ keyOf q next + keyOf q pid) := by
    intro next isNext
    have high := range next isNext
    obtain ⟨rest, shape⟩ := List.head?_eq_some_iff.mp isNext
    rw [shape] at around procs rising
    have isNextOf : nexts q pid = next := around
    have isProc := procs next (by simp)
    have nonneg : 0 ≤ keyOf q next := by
      apply rising
      cases front <;> simp
    have low := toInt_range (q pid).qkey
    constructor
    · unfold keyOf at *
      rw [← isNextOf, unsleepq_next_key (by rw [isNextOf]; exact isProc.2), isNextOf]
      exact toInt_add_in_range (by omega) high
    · intro some
      have pidNonneg : 0 ≤ keyOf q pid := by
        apply rising
        cases front with
        | nil => exact absurd rfl some
        | cons first others => simp
      omega
  constructor
  · apply deltas.remove
    · intro next isNext
      exact (nextKey next isNext).1
    · intro other member
      exact otherKey other (not_next_of_nodup joined (Or.inl member))
        (List.mem_append_left _ member)
    · intro other member
      exact otherKey other (not_next_of_nodup joined (Or.inr member))
        (List.mem_append_right _ (List.mem_of_mem_tail member))
  · intro other member
    by_cases isNext : other ∈ back.head?
    · rw [(nextKey other isNext).1]
      apply (nextKey other isNext).2
      -- The next sleeper is not the first one here, so there is one before it.
      rintro rfl
      exact not_next_of_nodup joined (Or.inr member) isNext
    · rw [otherKey other isNext (List.mem_of_mem_tail member)]
      apply rising
      cases front with
      | nil => exact List.mem_of_mem_tail member
      | cons first others =>
          simp only [List.cons_append, List.tail_cons, List.mem_append, List.mem_cons] at member ⊢
          tauto

theorem unsleepq_on_time (onTime : OnTime s lists) {later : Xinu} {pid : Int}
    {front back : List Int} (unslept : Unslept s.kernel later lists pid front back) :
    Deltas (keyOf later.q) s.due s.now (front ++ back) ∧
      ∀ other ∈ (front ++ back).tail, 0 ≤ keyOf later.q other := by
  rw [unslept.q]
  apply unsleepq_deltas onTime.on.threaded unslept.found onTime.deltas onTime.rising
  intro next isNext
  obtain ⟨rest, shape⟩ := List.head?_eq_some_iff.mp isNext
  exact onTime.sum_in_range (shape ▸ unslept.found)

theorem OnTime.of_sub {later : SleepClock} {after : Int → List Int} (onTime : OnTime s lists)
    (sameDue : later.due = s.due) (sameNow : later.now = s.now)
    (fewer : ∀ pid ∈ after clockq, pid ∈ lists clockq)
    (on : later.kernel.On after) (timed : later.kernel.Timed after)
    (ticking : after clockq ≠ [] → later.kernel.slnempty = true)
    (deltas : Deltas (keyOf later.kernel.q) s.due s.now (after clockq))
    (rising : ∀ pid ∈ (after clockq).tail, 0 ≤ keyOf later.kernel.q pid) :
    OnTime later after := by
  refine ⟨on, timed, ticking, ?_, rising, ?_, ?_⟩
  · rw [sameDue, sameNow]
    exact deltas
  · intro pid member other memberOther
    rw [sameDue]
    exact onTime.span pid (fewer pid member) other (fewer other memberOther)
  · intro pid member
    rw [sameDue, sameNow]
    exact onTime.ahead pid (fewer pid member)

theorem unsleep_slnempty {k : Xinu} {pid : Int} (good : ¬ isbadpid pid) (asleep : Asleep k pid)
    {front back : List Int} (unslept : Unslept k (unsleep k pid).2 lists pid front back)
    (some : front ++ back ≠ []) : (unsleep k pid).2.slnempty = k.slnempty := by
  have nobody := unslept.threaded.isempty_iff clockq_head
  rw [unslept.q, Function.update_self] at nobody
  have next : (unsleepq k.q pid clockq).qnext < nproc := by
    by_contra none
    exact some (nobody.mp (not_lt.mp none))
  have guard : ¬ (isbadpid pid ∨
      ((k.proctab pid).pstate ≠ .sleep ∧ (k.proctab pid).pstate ≠ .trecv)) := by
    rintro (bad | ⟨notSleep, notTrecv⟩)
    · exact good bad
    · rcases asleep with sleeps | times
      · exact notSleep sleeps
      · exact notTrecv times
  unfold unsleep
  rw [if_neg guard]
  dsimp only
  rw [if_pos next]

theorem unsleep_on_time (onTime : OnTime s lists) (pid : Int) (killed : Bool) :
    ∃ after, OnTime (clockStep s (.unsleep pid killed)) after := by
  unfold clockStep takeSleeper
  dsimp only
  split
  · exact ⟨lists, onTime⟩
  · rename_i removes
    simp only [not_or, not_not] at removes
    obtain ⟨good, asleep⟩ := removes
    obtain ⟨front, back, unslept⟩ := unsleep_spec onTime.on good asleep
    obtain ⟨deltas, rising⟩ := unsleepq_on_time onTime unslept
    have fewer : ∀ other ∈ front ++ back, other ∈ lists clockq := by
      intro other member
      rw [unslept.found]
      rcases List.mem_append.mp member with inFront | inBack
      · exact List.mem_append_left _ inFront
      · exact List.mem_append_right _ (List.mem_cons_of_mem _ inBack)
    have ticking : front ++ back ≠ [] → (unsleep s.kernel pid).2.slnempty = true := by
      intro some
      rw [unsleep_slnempty good asleep unslept some]
      apply onTime.ticking
      rw [unslept.found]
      simp
    have timed := unslept.timed
    unfold Xinu.Timed at timed
    rw [Function.update_self] at timed
    cases killed with
    | true =>
        refine ⟨Function.update lists clockq (front ++ back),
          onTime.of_sub rfl rfl ?_ (unslept.free onTime.on good) unslept.timed ?_ ?_ ?_⟩
        · rw [Function.update_self]
          exact fewer
        · rw [Function.update_self]
          exact ticking
        · rw [Function.update_self]
          exact deltas
        · rw [Function.update_self]
          exact rising
    | false =>
        obtain ⟨after, on, same⟩ := unslept.ready onTime.on good
        have list : after clockq = front ++ back := by
          rw [same clockq (by decide), Function.update_self]
        have away : ∀ other ∈ front ++ back, other ≠ pid := by
          have nodup := onTime.on.threaded.nodup clockq clockq_head
          rw [unslept.found] at nodup
          rintro other member rfl
          exact not_mem_rest nodup member
        have keys : ∀ other ∈ front ++ back,
            keyOf (readyNo (unsleep s.kernel pid).2 pid).q other =
              keyOf (unsleep s.kernel pid).2.q other := by
          intro other member
          exact congrArg BitVec.toInt (readyNo_qkey (away other member))
        obtain ⟨sameEmpty, sameTop⟩ := readyNo_clock (unsleep s.kernel pid).2 pid
        refine ⟨after, onTime.of_sub rfl rfl ?_ on ?_ ?_ ?_ ?_⟩
        · rw [list]
          exact fewer
        · unfold Xinu.Timed
          rw [list]
          simpa [sameEmpty, sameTop] using timed
        · rw [list]
          simpa [sameEmpty] using ticking
        · rw [list]
          exact deltas.congr keys (fun _ _ => rfl)
        · rw [list]
          intro other member
          have same := keys other (List.mem_of_mem_tail member)
          have nonneg := rising other member
          change 0 ≤ keyOf (readyNo (unsleep s.kernel pid).2 pid).q other
          omega

theorem apart_on_time (onTime : OnTime s lists) {work : Xinu → Xinu}
    (apart : Apart s.kernel (work s.kernel)) :
    ∃ after, OnTime (clockStep s (.elsewhere work)) after := by
  obtain ⟨after, on, list, keys, sameEmpty, sameTop⟩ := apart lists onTime.on
  have sameKey : ∀ pid ∈ lists clockq, keyOf (work s.kernel).q pid = keyOf s.kernel.q pid := by
    intro pid member
    exact congrArg BitVec.toInt (keys pid member)
  refine ⟨after, onTime.of_sub rfl rfl ?_ on ?_ ?_ ?_ ?_⟩
  · rw [list]
    exact fun _ member => member
  · unfold Xinu.Timed
    rw [list]
    simpa [clockStep, sameEmpty, sameTop, Xinu.Timed] using onTime.timed
  · rw [list]
    simpa [clockStep, sameEmpty] using onTime.ticking
  · rw [list]
    exact onTime.deltas.congr sameKey (fun _ _ => rfl)
  · rw [list]
    intro pid member
    have same := sameKey pid (List.mem_of_mem_tail member)
    have nonneg := onTime.rising pid member
    change 0 ≤ keyOf (work s.kernel).q pid
    omega

/-- The scan takes exactly the sleepers that are due, and the keys of the others still tell
when they are. -/
theorem scan_due (onTime : OnTime s lists) (prompt : Prompt s .wakeup) :
    (∀ pid ∈ (lists clockq).takeWhile (fun pid => keyOf s.kernel.q pid ≤ 0), s.due pid ≤ s.now) ∧
      (∀ pid ∈ (lists clockq).dropWhile (fun pid => keyOf s.kernel.q pid ≤ 0),
        s.now < s.due pid) ∧
      Deltas (keyOf s.kernel.q) s.due s.now
        ((lists clockq).dropWhile (fun pid => keyOf s.kernel.q pid ≤ 0)) := by
  by_cases below : (firstkey s.kernel.q clockq).slt 0 = true
  · have falling : ∀ pid ∈ lists clockq, keyOf s.kernel.q pid ≤ 0 := by
      intro pid member
      obtain ⟨isProc, asleep⟩ := (mem_clockq onTime.on).mp member
      exact (sle_zero_iff _).mp (prompt below pid isProc.1 isProc.2 asleep)
    obtain ⟨taken, nothing⟩ := onTime.deltas.take_all falling
    rw [nothing]
    refine ⟨taken, ?_, trivial⟩
    intro pid member
    cases member
  · have rising : ∀ pid ∈ lists clockq, 0 ≤ keyOf s.kernel.q pid := by
      have tail := onTime.rising
      cases shape : lists clockq with
      | nil =>
          intro pid member
          cases member
      | cons first rest =>
          rw [shape] at tail
          rw [firstkey_cons onTime.on shape] at below
          rw [List.forall_mem_cons]
          refine ⟨?_, tail⟩
          unfold keyOf
          simpa [BitVec.slt_eq_decide] using below
    exact onTime.deltas.take_due rising

theorem mem_tail_of_mem_tail {pids rest : List Int} (suffix : rest <:+ pids) {pid : Int}
    (member : pid ∈ rest.tail) : pid ∈ pids.tail := by
  obtain ⟨front, rfl⟩ := suffix
  cases front with
  | nil => exact member
  | cons first others => exact List.mem_append_right _ (List.mem_of_mem_tail member)

theorem wakeup_on_time (onTime : OnTime s lists) (prompt : Prompt s .wakeup) :
    ∃ after, OnTime (clockStep s .wakeup) after := by
  obtain ⟨_, _, deltas⟩ := scan_due onTime prompt
  obtain ⟨after, scanned, timed, ticking⟩ := wakeup_scanned onTime.on
  have keys : ∀ pid ∈ after clockq, keyOf (wakeup s.kernel).q pid = keyOf s.kernel.q pid := by
    intro pid member
    exact congrArg BitVec.toInt (scanned.keys pid member)
  rw [← scanned.left] at deltas
  refine ⟨after, onTime.of_sub rfl rfl ?_ scanned.on timed ticking
    (deltas.congr keys (fun _ _ => rfl)) ?_⟩
  · intro pid member
    rw [scanned.left] at member
    exact (List.dropWhile_sublist _).subset member
  · intro pid member
    have same := keys pid (List.mem_of_mem_tail member)
    rw [scanned.left] at member
    have nonneg := onTime.rising pid (mem_tail_of_mem_tail (List.dropWhile_suffix _) member)
    change 0 ≤ keyOf (wakeup s.kernel).q pid
    omega

theorem step_on_time (onTime : OnTime s lists) (event : ClockEvent) (callable : Callable s event)
    (prompt : Prompt s event) : ∃ after, OnTime (clockStep s event) after := by
  cases event with
  | tick => exact ⟨lists, tick_on_time onTime prompt⟩
  | sleep state n => exact sleep_on_time onTime callable prompt
  | unsleep pid killed => exact unsleep_on_time onTime pid killed
  | wakeup => exact wakeup_on_time onTime prompt
  | elsewhere work => exact apart_on_time onTime callable

theorem takeSleeper_proctab {k : Xinu} {pid other : Int} {killed : Bool} (away : pid ≠ other) :
    (takeSleeper k other killed).proctab pid = k.proctab pid := by
  unfold takeSleeper
  split
  · rfl
  · split
    · simp [Xinu.setState, Xinu.setEntry, Function.update_of_ne away, unsleep_proctab]
    · unfold readyNo
      split
      · rw [unsleep_proctab]
      · simp [Xinu.setState, Xinu.setEntry, Function.update_of_ne away, unsleep_proctab]

/-- Nothing but `wakeup` and `unsleep` ends a sleep. -/
theorem stays_asleep (onTime : OnTime s lists) (event : ClockEvent) (callable : Callable s event)
    {pid : Int} (isProc : IsProc pid) (asleep : Asleep s.kernel pid)
    (notScanned : event ≠ .wakeup) (notTaken : ∀ killed, event ≠ .unsleep pid killed) :
    Asleep (clockStep s event).kernel pid ∧ (clockStep s event).due pid = s.due pid := by
  cases event with
  | tick =>
      refine ⟨?_, rfl⟩
      unfold Asleep at asleep ⊢
      simpa [clockStep, timerPop_proctab] using asleep
  | sleep state n =>
      have running := callable.1
      unfold Xinu.Running at running
      have away : pid ≠ s.kernel.currpid := by
        rintro rfl
        rcases asleep with sleeps | times
        · rw [running] at sleeps
          cases sleeps
        · rw [running] at times
          cases times
      unfold Asleep at asleep ⊢
      simpa [clockStep, sleepOn, Xinu.setState, Xinu.setEntry, Function.update_of_ne away]
        using asleep
  | unsleep other killed =>
      have away : pid ≠ other := by
        rintro rfl
        exact notTaken killed rfl
      refine ⟨?_, rfl⟩
      unfold Asleep at asleep ⊢
      rw [clockStep]
      dsimp only
      rw [takeSleeper_proctab away]
      exact asleep
  | wakeup => exact absurd rfl notScanned
  | elsewhere work =>
      obtain ⟨after, on, list, _⟩ := callable lists onTime.on
      have member := (mem_clockq onTime.on).mpr ⟨isProc, asleep⟩
      rw [← list] at member
      exact ⟨((mem_clockq on).mp member).2, rfl⟩

end Steps

/-! ## A reschedule as steps of the clock -/

theorem Apart.refl (k : Xinu) : Apart k k := by
  intro lists on
  exact ⟨lists, on, rfl, fun _ _ => rfl, rfl, rfl⟩

theorem Apart.trans {first second third : Xinu} (before : Apart first second)
    (behind : Apart second third) : Apart first third := by
  intro lists on
  obtain ⟨middle, onMiddle, list, keys, sameEmpty, sameTop⟩ := before lists on
  obtain ⟨after, onAfter, listAfter, keysAfter, emptyAfter, topAfter⟩ := behind middle onMiddle
  refine ⟨after, onAfter, listAfter.trans list, ?_, emptyAfter.trans sameEmpty,
    topAfter.trans sameTop⟩
  intro pid member
  rw [keysAfter pid (by rw [list]; exact member), keys pid member]

theorem not_mem_of_homeless {k : Xinu} {lists : Int → List Int} (on : k.On lists) {pid : Int}
    (homeless : home (k.proctab pid) = none) : ∀ other ∈ lists clockq, other ≠ pid := by
  rintro other member rfl
  exact on.onNoList homeless clockq clockq_head member

theorem readyNo_apart {k : Xinu} {pid : Int} (homeless : home (k.proctab pid) = none) :
    Apart k (readyNo k pid) := by
  intro lists on
  obtain ⟨after, onAfter, same⟩ := readyNo_on on (fun _ => homeless)
  obtain ⟨sameEmpty, sameTop⟩ := readyNo_clock k pid
  refine ⟨after, onAfter, same clockq (by decide), ?_, sameEmpty, sameTop⟩
  intro other member
  exact readyNo_qkey (not_mem_of_homeless on homeless other member)

theorem iohook_apart (done : List Int) : ∀ k : Xinu, Apart k (iohook k done) := by
  induction done with
  | nil => exact Apart.refl
  | cons iopid others ih =>
      intro k
      unfold iohook
      split
      · exact ih k
      · rename_i resumes
        simp only [not_or, not_not] at resumes
        have homeless : home (k.proctab iopid) = none := by simp [home, resumes.2]
        exact (readyNo_apart homeless).trans (ih _)

theorem preempted_apart (k : Xinu) : Apart k (preempted k) := by
  intro lists on
  obtain ⟨after, onAfter, _, same⟩ := preempted_on on
  refine ⟨after, onAfter, same clockq (by decide), ?_, ?_, ?_⟩
  · intro pid member
    unfold preempted
    split
    · rename_i current
      have homeless : home (k.proctab k.currpid) = none := by simp [home, current]
      dsimp only
      rw [insert_qkey, if_neg (not_mem_of_homeless on homeless pid member)]
    · rfl
  · unfold preempted
    split <;> rfl
  · unfold preempted
    split <;> rfl

theorem dispatch_apart {k : Xinu} (idle : ¬ k.Running) : Apart k (dispatch k) := by
  intro lists on
  obtain ⟨after, onAfter, _, same⟩ := dispatch_on on idle
  refine ⟨after, onAfter, same clockq (by decide), ?_, rfl, rfl⟩
  intro pid _
  unfold dispatch Xinu.setState Xinu.setEntry getlast
  dsimp only
  split
  · exact dequeue_qkey k.q _ pid
  · rfl

/-- What `resched` does after the scan. -/
def redispatch (scene : Scene) (k : Xinu) : Xinu :=
  if scene.quantum ∧ (k.proctab k.currpid).pstate = .curr ∧
      (lastkey k.q rdytail).slt (k.proctab k.currpid).pprio then k
  else dispatch (preempted k)

theorem redispatch_apart (scene : Scene) (k : Xinu) : Apart k (redispatch scene k) := by
  unfold redispatch
  split
  · exact Apart.refl k
  · intro lists on
    obtain ⟨_, _, idle, _⟩ := preempted_on on
    exact (preempted_apart k).trans (dispatch_apart idle) lists on

/-- A reschedule is a scan between two pieces of work that leave the sleep list alone. -/
theorem resched_steps (s : SleepClock) (scene : Scene) :
    [ClockEvent.elsewhere (iohook · scene.done), .wakeup, .elsewhere (redispatch scene)].foldl
        clockStep s = { s with kernel := resched s.kernel scene } ∧
      Apart s.kernel (iohook s.kernel scene.done) ∧
      Apart (wakeup (iohook s.kernel scene.done))
        (redispatch scene (wakeup (iohook s.kernel scene.done))) :=
  ⟨rfl, iohook_apart scene.done s.kernel, redispatch_apart scene _⟩

/-- A kernel in which nobody sleeps. -/
def woken (kernel : Xinu) : SleepClock := { kernel := kernel, now := 0, due := fun _ => 0 }

theorem woken_on_time {k : Xinu} {lists : Int → List Int} (settled : Settled k lists)
    (nobody : lists clockq = []) : OnTime (woken k) lists := by
  refine ⟨settled.on, settled.timed, ?_, ?_, ?_, ?_, ?_⟩
  · intro some
    exact absurd nobody some
  · rw [nobody]
    trivial
  · rw [nobody]
    intro pid member
    cases member
  · rw [nobody]
    intro pid member
    cases member
  · rw [nobody]
    intro pid member
    cases member

theorem on_time_along_run {start : Xinu} {lists : Int → List Int} (settled : Settled start lists)
    (nobody : lists clockq = []) {s : SleepClock}
    (reached : Reach clockStep (fun before event => Callable before event ∧ Prompt before event)
      (woken start) s) : ∃ lists, OnTime s lists := by
  apply reached.invariant
  · exact ⟨lists, woken_on_time settled nobody⟩
  · rintro before event ⟨lists, onTime⟩ ⟨callable, prompt⟩
    exact step_on_time onTime event callable prompt

def twoStarted : List (Call × Scene) :=
  [(.create true 20, calm), (.create true 20, calm), (.resume 49, calm)]

/-- Two processes, of which the first runs. -/
def twoProcesses : Xinu := twoStarted.foldl turn booted

/-- The first process sleeps for one tick, the second for three; the next scan comes after
four. -/
def lateScan : List ClockEvent :=
  [.sleep .sleep 1, .elsewhere (redispatch calm), .elsewhere (readyNo · 48),
    .elsewhere (redispatch calm), .sleep .sleep 3, .elsewhere (redispatch calm),
    .tick, .tick, .tick, .tick]

instance (s : SleepClock) (state : Pstate) (n : BitVec 32) : Decidable (Callable s (.sleep state n)) :=
  inferInstanceAs (Decidable (_ = _ ∧ _ ≠ _ ∧ (_ ∨ _) ∧ _))

theorem lateScan_callable : Permitted clockStep Callable (woken twoProcesses) lateScan := by
  refine ⟨?_, redispatch_apart calm _, readyNo_apart ?_, redispatch_apart calm _, ?_,
    redispatch_apart calm _, trivial, trivial, trivial, trivial, trivial⟩
  · unfold twoProcesses
    rw [booted_eq]
    decide +kernel
  · unfold twoProcesses
    rw [booted_eq]
    decide +kernel
  · unfold twoProcesses
    rw [booted_eq]
    decide +kernel

theorem twoProcesses_settled : ∃ lists, Settled twoProcesses lists ∧ lists clockq = [] := by
  have permitted : Permitted turn Orderly booted twoStarted := by
    rw [booted_eq]
    simp only [twoStarted, Permitted]
    decide +kernel
  obtain ⟨lists, settled⟩ := settled_along_run (reach_of_permitted twoStarted Reach.start permitted)
  refine ⟨lists, settled, (settled.on.threaded.isempty_iff clockq_head).mp ?_⟩
  change isempty twoProcesses.q clockq
  unfold twoProcesses
  rw [booted_eq]
  decide +kernel

/-- The first process alone sleeps, for one tick. -/
def oneAsleep : SleepClock := clockStep (woken twoProcesses) (.sleep .sleep 1)

def oneTicked : SleepClock := clockStep oneAsleep .tick

theorem oneTicked_reached :
    Reach clockStep (fun before event => Callable before event ∧ Prompt before event)
      (woken twoProcesses) oneTicked := by
  have callable : Callable (woken twoProcesses) (.sleep .sleep 1) ∧
      isempty twoProcesses.q clockq := by
    unfold twoProcesses
    rw [booted_eq]
    decide +kernel
  have notLeast : (oneAsleep.kernel.q oneAsleep.kernel.sltop).qkey ≠ minint := by
    unfold oneAsleep twoProcesses
    rw [booted_eq]
    decide +kernel
  refine Reach.step _ (Reach.step _ Reach.start ⟨callable.1, ?_⟩) ⟨trivial, fun _ => notLeast⟩
  intro some
  exact absurd callable.2 some

end MvsXinu.Kernel
