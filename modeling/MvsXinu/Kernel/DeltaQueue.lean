import MvsXinu.Kernel.SleepClock

/-!
# Sums of the keys on the sleep list (`insertd.c`, `unsleep.c`)

In a list in which none but the first key is below zero, `insertd` puts a process where the keys
up to its own add up to the key that it was given, and `unsleep` takes one out; the sums of the
others stay. Keys are `int`s, and both form one by a subtraction or an addition that may leave
their range: that of a first key below zero from a large one, and that of two keys in sequence.
-/

namespace MvsXinu.Kernel

open MvsXinu.Links MvsXinu.DeltaList MvsXinu.Runs

set_option autoImplicit false

/-- The sleep list is in order, and the clock knows its head. -/
structure ClockQueue (k : Xinu) (lists : Int → List Int) : Prop where
  on : k.On lists
  timed : k.Timed lists
  ticking : lists clockq ≠ [] → k.slnempty = true
  rising : ∀ pid ∈ (lists clockq).tail, 0 ≤ keyOf k.q pid

theorem OnTime.clockQueue {s : SleepClock} {lists : Int → List Int} (onTime : OnTime s lists) :
    ClockQueue s.kernel lists :=
  ⟨onTime.on, onTime.timed, onTime.ticking, onTime.rising⟩

/-- Put in under its key, with the sums of the others as before. -/
structure Inserted (q after : Qtab) (lists : Int → List Int) (pid key : Int)
    (front back : List Int) : Prop where
  found : lists clockq = front ++ back
  threaded : Threaded after (Function.update lists clockq (front ++ pid :: back))
  own : prefixSum (keyOf after) (front ++ pid :: back) pid = key
  others : ∀ other ∈ lists clockq, prefixSum (keyOf after) (front ++ pid :: back) other =
    prefixSum (keyOf q) (lists clockq) other
  sorted : (front ++ pid :: back).Pairwise fun first second =>
    prefixSum (keyOf after) (front ++ pid :: back) first ≤
      prefixSum (keyOf after) (front ++ pid :: back) second
  rising : ∀ other ∈ (front ++ pid :: back).tail, 0 ≤ keyOf after other

/-- Taken out, with the sums of the others as before. -/
structure Removed (k later : Xinu) (lists : Int → List Int) (pid : Int) (front back : List Int) :
    Prop where
  found : lists clockq = front ++ pid :: back
  threaded : Threaded later.q (Function.update lists clockq (front ++ back))
  others : ∀ other ∈ front ++ back, prefixSum (keyOf later.q) (front ++ back) other =
    prefixSum (keyOf k.q) (lists clockq) other
  timed : later.Timed (Function.update lists clockq (front ++ back))
  ticking : front ++ back ≠ [] → later.slnempty = true

section Operations

variable {k : Xinu} {lists : Int → List Int}

/-! ## Putting a process in -/

theorem ClockQueue.deltas (queue : ClockQueue k lists) :
    Deltas (keyOf k.q) (prefixSum (keyOf k.q) (lists clockq)) 0 (lists clockq) := by
  have deltas := deltas_prefixSum (keyOf k.q) (queue.on.threaded.nodup clockq clockq_head) 0
  simpa only [Int.zero_add] using deltas

/-- The first sum is the least one. -/
theorem ClockQueue.first_le (queue : ClockQueue k lists) {first : Int}
    (isFirst : first ∈ (lists clockq).head?) :
    ∀ pid ∈ lists clockq, keyOf k.q first ≤ prefixSum (keyOf k.q) (lists clockq) pid := by
  obtain ⟨rest, found⟩ := List.head?_eq_some_iff.mp isFirst
  have sorted := queue.deltas.sorted queue.rising
  have firstSum := queue.deltas
  rw [found] at sorted firstSum ⊢
  have least : prefixSum (keyOf k.q) (first :: rest) first = keyOf k.q first :=
    prefixSum_first first rest
  rw [List.forall_mem_cons]
  refine ⟨by omega, fun pid member => ?_⟩
  have above := (List.pairwise_cons.mp sorted).1 pid member
  omega

theorem insertd_inserted (queue : ClockQueue k lists) {pid : Int} {key : BitVec 32}
    (isProc : IsProc pid) (onNone : OnNoList lists pid) (nonneg : 0 ≤ key.toInt)
    (near : ∀ first ∈ (lists clockq).head?, key.toInt - keyOf k.q first ≤ 2147483647) :
    ∃ front back, Inserted k.q (insertd k.q pid clockq key) lists pid key.toInt front back := by
  have absent := onNone clockq clockq_head
  have same : ∀ other ∈ lists clockq,
      Function.update (prefixSum (keyOf k.q) (lists clockq)) pid key.toInt other =
        prefixSum (keyOf k.q) (lists clockq) other := by
    intro other member
    apply Function.update_of_ne
    rintro rfl
    exact absent member
  have within : ∀ other ∈ lists clockq,
      0 + key.toInt - prefixSum (keyOf k.q) (lists clockq) other ≤ 2147483647 := by
    intro other member
    obtain ⟨first, rest, found⟩ := List.exists_cons_of_ne_nil (List.ne_nil_of_mem member)
    have isFirst : first ∈ (lists clockq).head? := by
      rw [found]
      rfl
    have bound := near first isFirst
    have least := queue.first_le isFirst other member
    omega
  obtain ⟨front, back, placed⟩ := insertd_placed queue.on.threaded isProc onNone queue.deltas
    queue.rising nonneg within (by rw [Function.update_self, Int.zero_add]) same
  have nodup := placed.threaded.nodup clockq clockq_head
  rw [Function.update_self] at nodup
  have sums := placed.deltas.eq_prefixSum nodup
  have members : ∀ other ∈ lists clockq, other ∈ front ++ pid :: back := by
    intro other member
    rw [placed.found] at member
    simp only [List.mem_append, List.mem_cons] at member ⊢
    tauto
  refine ⟨front, back, placed.found, placed.threaded, ?_, ?_, ?_, placed.rising⟩
  · have own := sums pid (by simp)
    rw [Function.update_self] at own
    omega
  · intro other member
    have sum := sums other (members other member)
    rw [same other member] at sum
    omega
  · have sorted := placed.deltas.sorted placed.rising
    refine sorted.imp_of_mem ?_
    intro first second firstIn secondIn before
    rw [sums first firstIn, sums second secondIn] at before
    omega

/-- Where a process was put in right its key is not below zero. -/
theorem Inserted.key_nonneg {q after : Qtab} {pid key : Int} {front back : List Int}
    (inserted : Inserted q after lists pid key front back) (nonneg : 0 ≤ key) :
    0 ≤ keyOf after pid := by
  cases front with
  | nil =>
      have own := inserted.own
      rw [List.nil_append, prefixSum_first] at own
      omega
  | cons first rest =>
      apply inserted.rising
      simp

/-- A key from which the first key cannot be taken ends below zero behind the first process. -/
theorem insertd_overflow (queue : ClockQueue k lists) {pid first : Int} {key : BitVec 32}
    (isProc : IsProc pid) (onNone : OnNoList lists pid) (isFirst : first ∈ (lists clockq).head?)
    (far : 2147483647 < key.toInt - keyOf k.q first) :
    keyOf (insertd k.q pid clockq key) pid < 0 := by
  have threaded := queue.on.threaded
  obtain ⟨rest, found⟩ := List.head?_eq_some_iff.mp isFirst
  have next := threaded.head_next clockq_head
  have strung := threaded.strung clockq clockq_head
  have rising := queue.rising
  rw [found] at next strung rising
  have second : (k.q first).qnext = rest.headD (clockq + 1) :=
    Strung.next_head (Strung.rest strung)
  have range := toInt_range key
  have firstRange := toInt_range (k.q first).qkey
  unfold keyOf at far rising
  have wrapped : (key - (k.q first).qkey).toInt =
      key.toInt - (k.q first).qkey.toInt - 4294967296 := by
    rw [BitVec.toInt_sub, Int.bmod_def]
    omega
  have before : (k.q first).qkey.slt key = true := by
    rw [BitVec.slt_eq_decide, decide_eq_true_eq]
    omega
  have behind : (k.q (rest.headD (clockq + 1))).qkey.slt (key - (k.q first).qkey) = false := by
    rw [BitVec.slt_eq_decide, decide_eq_false_iff_not]
    cases rest with
    | nil =>
        have full := threaded.tails clockq clockq_head
        rw [List.headD_nil, full, maxint_toInt]
        omega
    | cons other others =>
        have nonneg := rising other List.mem_cons_self
        rw [List.headD_cons]
        omega
  have scan : ∀ fuel, insertdScan k.q (fuel + 2) clockq first key =
      (first, rest.headD (clockq + 1), key - (k.q first).qkey) := by
    intro fuel
    rw [insertdScan, if_pos before, second, insertdScan, behind, if_neg Bool.false_ne_true]
  have stops : insertdScan k.q nqent clockq (k.q clockq).qnext key =
      (first, rest.headD (clockq + 1), key - (k.q first).qkey) := by
    unfold nexts at next
    rw [next, List.headD_cons]
    exact scan 452
  have split : lists clockq = [first] ++ rest := found
  obtain ⟨_, awayHigh⟩ := ends_away clockq_head split isProc.2 onNone
  unfold keyOf
  rw [insertd_own_key stops awayHigh, wrapped]
  omega

/-! ## Taking a process out -/

theorem unsleep_removed (queue : ClockQueue k lists) {pid : Int} (member : pid ∈ lists clockq)
    (fits : nexts k.q pid < nproc → keyOf k.q pid + keyOf k.q (nexts k.q pid) ≤ 2147483647) :
    ∃ front back, Removed k (unsleep k pid).2 lists pid front back := by
  have threaded := queue.on.threaded
  have good := Board.good_of_mem queue.on clockq_head (by decide) member
  have asleep := ((mem_clockq queue.on).mp member).2
  obtain ⟨front, back, unslept⟩ := unsleep_spec queue.on good asleep
  have range : ∀ next ∈ back.head?, keyOf k.q next + keyOf k.q pid ≤ 2147483647 := by
    intro next isNext
    obtain ⟨rest, shape⟩ := List.head?_eq_some_iff.mp isNext
    have found := unslept.found
    rw [shape] at found
    have isNextOf : nexts k.q pid = next := (threaded.around clockq_head found).2
    have isProc := threaded.procs clockq clockq_head next (by
      rw [found]
      simp)
    rw [isNextOf] at fits
    have bound := fits isProc.2
    omega
  obtain ⟨deltas, _⟩ := unsleepq_deltas threaded unslept.found queue.deltas queue.rising range
  have nodup := unslept.threaded.nodup clockq clockq_head
  rw [Function.update_self] at nodup
  have sums := deltas.eq_prefixSum nodup
  refine ⟨front, back, unslept.found, unslept.threaded, ?_, unslept.timed, ?_⟩
  · intro other inRest
    have sum := sums other inRest
    rw [unslept.q]
    omega
  · intro some
    rw [unsleep_slnempty good asleep unslept some]
    exact queue.ticking (List.ne_nil_of_mem member)

/-- Where the sums of the others stayed, the next key has taken the whole of the one before. -/
theorem Removed.sum_fits (queue : ClockQueue k lists) {later : Xinu} {pid : Int}
    {front back : List Int} (after : later.q = unsleepq k.q pid)
    (removed : Removed k later lists pid front back) (isNext : nexts k.q pid < nproc) :
    keyOf k.q pid + keyOf k.q (nexts k.q pid) ≤ 2147483647 := by
  have threaded := queue.on.threaded
  have found := removed.found
  have nodup := threaded.nodup clockq clockq_head
  obtain ⟨_, next⟩ := threaded.around clockq_head found
  cases back with
  | nil =>
      rw [next] at isNext
      exact absurd isNext (by decide)
  | cons other rest =>
      rw [List.headD_cons] at next
      have regroup : lists clockq = (front ++ [pid]) ++ other :: rest := by
        rw [found]
        simp
      rw [regroup] at nodup
      have absent : other ∉ front ++ [pid] := by
        have apart := (List.nodup_append.mp nodup).2.2
        exact fun inFront => apart other inFront other List.mem_cons_self rfl
      have absentFront : other ∉ front := fun inFront =>
        absent (List.mem_append_left _ inFront)
      have sum := removed.others other (by simp)
      rw [regroup, prefixSum_mid absent, prefixSum_mid absentFront, List.map_append,
        List.sum_append] at sum
      have same : front.map (keyOf later.q) = front.map (keyOf k.q) := by
        apply List.map_congr_left
        intro first inFront
        have away : first ≠ nexts k.q pid := by
          rw [next]
          rintro rfl
          exact absentFront inFront
        unfold keyOf
        rw [after, unsleepq_qkey (Or.inl away)]
      have range := toInt_range (later.q other).qkey
      rw [same, List.map_singleton, List.sum_singleton] at sum
      rw [next]
      unfold keyOf at sum ⊢
      omega

/-! ## Both operations -/

/-- On any list in order: a process is put in right exactly if the first key can be taken from
its key, and a member is taken out right exactly if its key can be added to the next one. -/
theorem delta_queue_iff (queue : ClockQueue k lists) :
    (∀ (pid : Int) (key : BitVec 32), IsProc pid → OnNoList lists pid → 0 ≤ key.toInt →
      ((∃ front back,
          Inserted k.q (insertd k.q pid clockq key) lists pid key.toInt front back) ↔
        ∀ first ∈ (lists clockq).head?, key.toInt - keyOf k.q first ≤ 2147483647)) ∧
      ∀ pid ∈ lists clockq,
        ((∃ front back, Removed k (unsleep k pid).2 lists pid front back) ↔
          (nexts k.q pid < nproc →
            keyOf k.q pid + keyOf k.q (nexts k.q pid) ≤ 2147483647)) := by
  refine ⟨fun pid key isProc onNone nonneg => ⟨?_, ?_⟩, fun pid member => ⟨?_, ?_⟩⟩
  · rintro ⟨front, back, inserted⟩ first isFirst
    by_contra far
    have below := insertd_overflow queue isProc onNone isFirst (not_le.mp far)
    exact absurd (inserted.key_nonneg nonneg) (not_le.mpr below)
  · exact insertd_inserted queue isProc onNone nonneg
  · rintro ⟨front, back, removed⟩
    have good := Board.good_of_mem queue.on clockq_head (by decide) member
    have asleep := ((mem_clockq queue.on).mp member).2
    obtain ⟨_, _, unslept⟩ := unsleep_spec queue.on good asleep
    exact removed.sum_fits queue unslept.q
  · exact unsleep_removed queue member

end Operations

/-! ## Runs -/

theorem oneTicked_on_time : ∃ lists, OnTime oneTicked lists := by
  obtain ⟨lists, settled, nobody⟩ := twoProcesses_settled
  exact on_time_along_run settled nobody oneTicked_reached

/-- The first process is due now; the second one can be put in for five ticks, and the first one
taken out. -/
theorem delta_queue_ticked :
    ∃ lists, ClockQueue oneTicked.kernel lists ∧
      (∃ front back, Inserted oneTicked.kernel.q (insertd oneTicked.kernel.q 48 clockq 5) lists 48 5
        front back) ∧
      ∃ front back, Removed oneTicked.kernel (unsleep oneTicked.kernel 49).2 lists 49 front
        back := by
  obtain ⟨lists, onTime⟩ := oneTicked_on_time
  have facts : home (oneTicked.kernel.proctab 48) = none ∧ Asleep oneTicked.kernel 49 ∧
      firstkey oneTicked.kernel.q clockq = 0 ∧ ¬ nexts oneTicked.kernel.q 49 < nproc := by
    unfold oneTicked oneAsleep twoProcesses
    rw [booted_eq]
    decide +kernel
  obtain ⟨homeless, asleep, due, last⟩ := facts
  have member : (49 : Int) ∈ lists clockq :=
    (mem_clockq onTime.on).mpr ⟨⟨by decide, by decide⟩, asleep⟩
  obtain ⟨inserts, removes⟩ := delta_queue_iff onTime.clockQueue
  refine ⟨lists, onTime.clockQueue, ?_, ?_⟩
  · apply (inserts 48 5 ⟨by decide, by decide⟩ (onTime.on.onNoList homeless) (by decide)).mpr
    intro first isFirst
    obtain ⟨rest, found⟩ := List.head?_eq_some_iff.mp isFirst
    rw [firstkey_cons onTime.on found] at due
    unfold keyOf
    rw [due]
    decide
  · exact (removes 49 member).mpr fun isProc => absurd isProc last

/-- The first process is one tick late. -/
def oneLate : SleepClock := clockStep oneTicked .tick

/-- Behind it a process that is to wait as long as it can is put in with a key below zero. -/
theorem longest_wait_misplaced :
    ¬ ∀ (k : Xinu) (lists : Int → List Int), ClockQueue k lists →
      (∀ (pid : Int) (key : BitVec 32), IsProc pid → OnNoList lists pid → 0 ≤ key.toInt →
        ∃ front back,
          Inserted k.q (insertd k.q pid clockq key) lists pid key.toInt front back) ∧
      ∀ pid ∈ lists clockq, ∃ front back, Removed k (unsleep k pid).2 lists pid front back := by
  intro always
  obtain ⟨lists, onTime⟩ := oneTicked_on_time
  have notLeast : (oneTicked.kernel.q oneTicked.kernel.sltop).qkey ≠ minint := by
    unfold oneTicked oneAsleep twoProcesses
    rw [booted_eq]
    decide +kernel
  have late : OnTime oneLate lists := tick_on_time onTime fun _ => notLeast
  have facts : home (oneLate.kernel.proctab 48) = none ∧
      keyOf (insertd oneLate.kernel.q 48 clockq maxint) 48 < 0 := by
    unfold oneLate oneTicked oneAsleep twoProcesses
    rw [booted_eq]
    decide +kernel
  obtain ⟨homeless, below⟩ := facts
  obtain ⟨front, back, inserted⟩ := (always _ lists late.clockQueue).1 48 maxint
    ⟨by decide, by decide⟩ (late.on.onNoList homeless) (by decide)
  exact absurd (inserted.key_nonneg (by decide)) (not_le.mpr below)

end MvsXinu.Kernel
