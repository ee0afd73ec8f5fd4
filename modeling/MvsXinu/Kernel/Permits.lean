import MvsXinu.Kernel.SemaphoreOrder

/-!
# A semaphore that counts something

`Permits sems sem granted left` says that the semaphore lets `left` more processes through,
counting the `granted` ones, which a signal has released and which have not run since.
-/

namespace MvsXinu.Kernel

set_option autoImplicit false

/-- The calls on this semaphore fail. -/
def refused (sems : Sems) (sem : Int) : Prop :=
  isbadsem sem ∨ (sems.semaph sem).sstate = .free

instance (sems : Sems) (sem : Int) : Decidable (refused sems sem) :=
  inferInstanceAs (Decidable (_ ∨ _))

def scount (sems : Sems) (sem : Int) : Int :=
  if refused sems sem then syserr else (sems.semaph sem).semcnt.toInt

/-- A call of `wait` would block. -/
def wouldBlock (sems : Sems) (sem : Int) : Prop := ((sems.semaph sem).semcnt - 1).slt 0 = true

instance (sems : Sems) (sem : Int) : Decidable (wouldBlock sems sem) :=
  inferInstanceAs (Decidable (_ = _))

/-- `signal`, with the process that it releases. -/
def signalled (sems : Sems) (sem : Int) : Sems × List Int :=
  if refused sems sem then (sems, [])
  else (sems.signal sem, if (sems.semaph sem).semcnt.slt 0 then (sems.waiting sem).take 1 else [])

structure Permits (sems : Sems) (sem : Int) (granted : List Int) (left : Int) : Prop where
  good : ¬ isbadsem sem
  used : (sems.semaph sem).sstate = .used
  fits : Balanced (sems.semaph sem) (sems.waiting sem)
  nodup : (sems.waiting sem).Nodup
  procs : ∀ pid ∈ sems.waiting sem, IsProc pid
  length : left = max (sems.semaph sem).semcnt.toInt 0 + granted.length

/-- Only this semaphore has changed. -/
def OnlyAt (sem : Int) (sems later : Sems) : Prop :=
  ∀ other, other ≠ sem →
    later.semaph other = sems.semaph other ∧ later.waiting other = sems.waiting other

section Permits

variable {sems later : Sems} {sem left : Int} {granted : List Int}

theorem Permits.usable (permits : Permits sems sem granted left) : ¬ refused sems sem := by
  rintro (bad | isFree)
  · exact permits.good bad
  · rw [permits.used] at isFree
    cases isFree

theorem Permits.scount_eq (permits : Permits sems sem granted left) :
    scount sems sem = (sems.semaph sem).semcnt.toInt :=
  if_neg permits.usable

theorem Permits.waiting_short (permits : Permits sems sem granted left) :
    (sems.waiting sem).length ≤ 50 := by
  have within : (sems.waiting sem).toFinset ⊆ Finset.Ico (0 : Int) 50 := by
    intro pid member
    have isProc := permits.procs pid (List.mem_toFinset.mp member)
    unfold IsProc nproc at isProc
    exact Finset.mem_Ico.mpr isProc
  have card := Finset.card_le_card within
  rw [List.toFinset_card_of_nodup permits.nodup, Int.card_Ico] at card
  simpa using card

theorem Permits.nonneg (permits : Permits sems sem granted left) : granted.length ≤ left := by
  have := permits.length
  omega

theorem Permits.congr (permits : Permits sems sem granted left)
    (semaph : later.semaph sem = sems.semaph sem)
    (waiting : later.waiting sem = sems.waiting sem) : Permits later sem granted left := by
  refine ⟨permits.good, ?_, ?_, ?_, ?_, ?_⟩
  · rw [semaph]
    exact permits.used
  · rw [semaph, waiting]
    exact permits.fits
  · rw [waiting]
    exact permits.nodup
  · rw [waiting]
    exact permits.procs
  · rw [semaph]
    exact permits.length

theorem Permits.passed (permits : Permits sems sem granted left) (pid : Int)
    (passes : ¬ wouldBlock sems sem) :
    0 < left ∧ Permits (sems.wait sem pid) sem granted (left - 1) := by
  obtain ⟨fits, pred, positive⟩ := permits.fits.passed permits.used permits.waiting_short passes
  have length := permits.length
  have spec : sems.wait sem pid = _ := if_neg passes
  have semaph : (sems.wait sem pid).semaph sem =
      { sems.semaph sem with semcnt := (sems.semaph sem).semcnt - 1 } := by
    rw [spec]
    simp [Sems.setCount]
  have waiting : (sems.wait sem pid).waiting = sems.waiting := by
    rw [spec]
    rfl
  refine ⟨by omega, permits.good, ?_, ?_, ?_, ?_, ?_⟩
  · rw [semaph]
    exact permits.used
  · rw [semaph, waiting]
    exact fits
  · rw [waiting]
    exact permits.nodup
  · rw [waiting]
    exact permits.procs
  · rw [semaph, pred]
    omega

theorem wait_waiting (pid : Int) (blocks : wouldBlock sems sem) :
    (sems.wait sem pid).waiting sem = sems.waiting sem ++ [pid] := by
  have spec : sems.wait sem pid = _ := if_pos blocks
  rw [spec]
  simp [Sems.setWaiting]

theorem Permits.blocked (permits : Permits sems sem granted left) {pid : Int}
    (isProc : IsProc pid) (absent : pid ∉ sems.waiting sem) (blocks : wouldBlock sems sem) :
    Permits (sems.wait sem pid) sem granted left := by
  have fits := permits.fits.blocked permits.used permits.waiting_short blocks pid
  have length := permits.length
  have spec : sems.wait sem pid = _ := if_pos blocks
  have semaph : (sems.wait sem pid).semaph sem =
      { sems.semaph sem with semcnt := (sems.semaph sem).semcnt - 1 } := by
    rw [spec]
    simp [Sems.setCount, Sems.setWaiting]
  have waiting := wait_waiting pid blocks
  refine ⟨permits.good, ?_, ?_, ?_, ?_, ?_⟩
  · rw [semaph]
    exact permits.used
  · rw [semaph, waiting]
    exact fits
  · rw [waiting]
    apply List.nodup_append.mpr
    refine ⟨permits.nodup, List.nodup_singleton _, ?_⟩
    intro waiter member last isLast same
    rw [List.mem_singleton.mp isLast] at same
    exact absent (same ▸ member)
  · intro waiter member
    rw [waiting] at member
    rcases List.mem_append.mp member with old | new
    · exact permits.procs waiter old
    · rw [List.mem_singleton.mp new]
      exact isProc
  · have before := permits.fits
    have above : -2147483648 < (sems.semaph sem).semcnt.toInt := by
      have short := permits.waiting_short
      unfold Balanced at before
      simp only [permits.used] at before
      omega
    have below := (slt_zero_iff _).mp blocks
    rw [toInt_pred above] at below
    rw [semaph, toInt_pred above]
    omega

theorem wait_onlyAt (sems : Sems) (sem pid : Int) : OnlyAt sem sems (sems.wait sem pid) := by
  intro other away
  unfold Sems.wait
  dsimp only
  split <;> simp [Sems.setCount, Sems.setWaiting, Function.update_of_ne away]

theorem Permits.resumed (permits : Permits sems sem granted left) {pid : Int}
    (released : pid ∈ granted) : 0 < left ∧ Permits sems sem (granted.erase pid) (left - 1) := by
  have length := permits.length
  have some := List.length_pos_of_mem released
  refine ⟨by omega, permits.good, permits.used, permits.fits, permits.nodup, permits.procs, ?_⟩
  rw [List.length_erase_of_mem released]
  omega

theorem Permits.signalled (permits : Permits sems sem granted left) (small : left < 2147483647) :
    Permits (Kernel.signalled sems sem).1 sem (granted ++ (Kernel.signalled sems sem).2)
      (left + 1) := by
  have length := permits.length
  have semaph := signal_entry sems sem
  unfold Kernel.signalled
  rw [if_neg permits.usable]
  dsimp only
  by_cases negative : (sems.semaph sem).semcnt.slt 0 = true
  · have fits := permits.fits.released permits.used negative
    have spec : sems.signal sem = _ := if_pos negative
    have waiting : (sems.signal sem).waiting sem = (sems.waiting sem).tail := by
      rw [spec]
      simp [Sems.setWaiting]
    have below := (slt_zero_iff _).mp negative
    have some : 1 ≤ (sems.waiting sem).length := by
      have before := permits.fits
      unfold Balanced at before
      simp only [permits.used] at before
      omega
    have notMax : (sems.semaph sem).semcnt ≠ maxint := by
      intro same
      rw [same] at below
      exact absurd below (by decide)
    rw [if_pos negative]
    refine ⟨permits.good, ?_, ?_, ?_, ?_, ?_⟩
    · rw [semaph]
      exact permits.used
    · rw [semaph, waiting]
      exact fits
    · rw [waiting]
      exact permits.nodup.sublist (List.tail_sublist _)
    · intro waiter member
      rw [waiting] at member
      exact permits.procs waiter (List.mem_of_mem_tail member)
    · rw [semaph, List.length_append, List.length_take]
      dsimp only
      rw [toInt_succ notMax]
      omega
  · have spec : sems.signal sem = _ := if_neg negative
    have waiting : (sems.signal sem).waiting = sems.waiting := by
      rw [spec]
      rfl
    have above : ¬ (sems.semaph sem).semcnt.toInt < 0 :=
      fun below => negative ((slt_zero_iff _).mpr below)
    have notMax : (sems.semaph sem).semcnt ≠ maxint := by
      intro same
      have value : maxint.toInt = 2147483647 := by decide
      rw [same, value] at length
      omega
    have fits := permits.fits.raised permits.used negative notMax
    rw [if_neg negative, List.append_nil]
    refine ⟨permits.good, ?_, ?_, ?_, ?_, ?_⟩
    · rw [semaph]
      exact permits.used
    · rw [semaph, waiting]
      exact fits
    · rw [waiting]
      exact permits.nodup
    · rw [waiting]
      exact permits.procs
    · rw [semaph]
      dsimp only
      rw [toInt_succ notMax]
      omega

theorem signalled_onlyAt (sems : Sems) (sem : Int) : OnlyAt sem sems (signalled sems sem).1 := by
  intro other away
  unfold signalled
  split
  · exact ⟨rfl, rfl⟩
  · dsimp only [Sems.signal]
    split <;> simp [Sems.setCount, Sems.setWaiting, Function.update_of_ne away]

/-- A signal takes the released process off the queue and leaves the others on it. -/
theorem signalled_waiting (sems : Sems) (sem : Int) :
    sems.waiting sem = (signalled sems sem).2 ++ (signalled sems sem).1.waiting sem := by
  unfold signalled
  split
  · rfl
  · dsimp only [Sems.signal]
    split
    · simp only [Sems.setWaiting, Function.update_self]
      cases sems.waiting sem <;> rfl
    · rfl

theorem wait_refused (sems : Sems) (sem pid other : Int) :
    refused (sems.wait sem pid) other ↔ refused sems other := by
  unfold refused
  by_cases same : other = sem
  · subst same
    unfold Sems.wait
    dsimp only
    split <;> simp [Sems.setCount, Sems.setWaiting]
  · rw [(wait_onlyAt sems sem pid other same).1]

theorem signalled_refused (sems : Sems) (sem other : Int) :
    refused (signalled sems sem).1 other ↔ refused sems other := by
  by_cases same : other = sem
  · subst same
    unfold signalled
    split
    · exact Iff.rfl
    · unfold refused
      rw [signal_entry]
  · unfold refused
    rw [(signalled_onlyAt sems sem other same).1]

theorem create_permits {count : BitVec 32} (good : ¬ isbadsem sem) (nobody : sems.waiting sem = [])
    (notNegative : 0 ≤ count.toInt) :
    Permits (sems.create sem count) sem [] count.toInt := by
  refine ⟨good, ?_, ?_, ?_, ?_, ?_⟩
  · simp [Sems.create]
  · simp only [Sems.create, Function.update_self, nobody, Balanced, List.length_nil]
    omega
  · simp [Sems.create, nobody]
  · simp [Sems.create, nobody]
  · simp only [Sems.create, Function.update_self, List.length_nil]
    omega

theorem create_onlyAt (sems : Sems) (sem : Int) (count : BitVec 32) :
    OnlyAt sem sems (sems.create sem count) := by
  intro other away
  simp [Sems.create, Function.update_of_ne away]

end Permits

/-! ## The processes inside a call -/

/-- The semaphore lets `left` more processes through. Those `inside` a call of `wait` are on the
queue or have been released. -/
structure Admits (sems : Sems) (sem : Int) (inside : Int → Prop) (left : Int) : Prop where
  permits : ∃ granted, Permits sems sem granted left ∧ granted.Nodup ∧
    ∀ pid, pid ∈ granted ↔ inside pid ∧ pid ∉ sems.waiting sem
  waiting : ∀ pid ∈ sems.waiting sem, inside pid

section Admits

variable {sems later : Sems} {sem left : Int} {inside after : Int → Prop}

theorem Admits.usable (admits : Admits sems sem inside left) : ¬ refused sems sem := by
  obtain ⟨granted, permits, _⟩ := admits.permits
  exact permits.usable

theorem Admits.nonneg (admits : Admits sems sem inside left) : 0 ≤ left := by
  obtain ⟨granted, permits, _⟩ := admits.permits
  have := permits.nonneg
  omega

theorem Admits.congr (admits : Admits sems sem inside left)
    (semaph : later.semaph sem = sems.semaph sem)
    (waiting : later.waiting sem = sems.waiting sem)
    (same : ∀ pid, after pid ↔ inside pid) : Admits later sem after left := by
  obtain ⟨granted, permits, nodup, exactly⟩ := admits.permits
  constructor
  · refine ⟨granted, permits.congr semaph waiting, nodup, ?_⟩
    intro pid
    rw [exactly, same, waiting]
  · intro pid member
    rw [waiting] at member
    exact (same pid).mpr (admits.waiting pid member)

theorem Admits.passed (admits : Admits sems sem inside left) (pid : Int)
    (passes : ¬ wouldBlock sems sem) :
    0 < left ∧ Admits (sems.wait sem pid) sem inside (left - 1) := by
  obtain ⟨granted, permits, nodup, exactly⟩ := admits.permits
  obtain ⟨some, less⟩ := permits.passed pid passes
  have spec : sems.wait sem pid = _ := if_neg passes
  have waiting : (sems.wait sem pid).waiting = sems.waiting := by
    rw [spec]
    rfl
  refine ⟨some, ⟨granted, less, nodup, ?_⟩, ?_⟩
  · rw [waiting]
    exact exactly
  · rw [waiting]
    exact admits.waiting

theorem Admits.blocked (admits : Admits sems sem inside left) {pid : Int} (isProc : IsProc pid)
    (outside : ¬ inside pid) (blocks : wouldBlock sems sem)
    (same : ∀ other, after other ↔ inside other ∨ other = pid) :
    Admits (sems.wait sem pid) sem after left := by
  obtain ⟨granted, permits, nodup, exactly⟩ := admits.permits
  have absent : pid ∉ sems.waiting sem := fun member => outside (admits.waiting pid member)
  have waiting := wait_waiting pid blocks
  refine ⟨⟨granted, permits.blocked isProc absent blocks, nodup, ?_⟩, ?_⟩
  · intro other
    rw [exactly, same, waiting, List.mem_append, List.mem_singleton]
    by_cases itself : other = pid
    · subst itself
      simp [outside]
    · simp [itself]
  · intro other member
    rw [waiting, List.mem_append, List.mem_singleton] at member
    apply (same other).mpr
    rcases member with old | new
    · exact Or.inl (admits.waiting other old)
    · exact Or.inr new

theorem Admits.resumed (admits : Admits sems sem inside left) {pid : Int} (isInside : inside pid)
    (released : pid ∉ sems.waiting sem) (same : ∀ other, after other ↔ inside other ∧ other ≠ pid) :
    0 < left ∧ Admits sems sem after (left - 1) := by
  obtain ⟨granted, permits, nodup, exactly⟩ := admits.permits
  obtain ⟨some, less⟩ := permits.resumed ((exactly pid).mpr ⟨isInside, released⟩)
  refine ⟨some, ⟨granted.erase pid, less, nodup.erase pid, ?_⟩, ?_⟩
  · intro other
    rw [nodup.mem_erase_iff, exactly, same]
    tauto
  · intro other member
    refine (same other).mpr ⟨admits.waiting other member, ?_⟩
    intro itself
    exact released (itself ▸ member)

/-- A signal moves the first of the queue to the released ones. -/
theorem Admits.signalled (admits : Admits sems sem inside left) (small : left < 2147483647) :
    Admits (Kernel.signalled sems sem).1 sem inside (left + 1) := by
  obtain ⟨granted, permits, nodup, exactly⟩ := admits.permits
  have split := signalled_waiting sems sem
  have distinct := permits.nodup
  rw [split] at distinct
  obtain ⟨firstNodup, _, apart⟩ := List.nodup_append.mp distinct
  refine ⟨⟨_, permits.signalled small, ?_, ?_⟩, ?_⟩
  · refine List.nodup_append.mpr ⟨nodup, firstNodup, ?_⟩
    intro pid old other new same
    subst same
    have waits : pid ∈ sems.waiting sem := by
      rw [split]
      exact List.mem_append_left _ new
    exact ((exactly pid).mp old).2 waits
  · intro pid
    rw [List.mem_append, exactly, split, List.mem_append]
    constructor
    · rintro (⟨isInside, absent⟩ | new)
      · exact ⟨isInside, fun member => absent (Or.inr member)⟩
      · refine ⟨admits.waiting pid ?_, fun member => apart pid new pid member rfl⟩
        rw [split]
        exact List.mem_append_left _ new
    · rintro ⟨isInside, absent⟩
      by_cases new : pid ∈ (Kernel.signalled sems sem).2
      · exact Or.inr new
      · exact Or.inl ⟨isInside, fun member => member.elim new absent⟩
  · intro pid member
    apply admits.waiting
    rw [split]
    exact List.mem_append_right _ member

theorem nobody_admitted (nobody : sems.waiting sem = []) (permits : Permits sems sem [] left)
    (none : ∀ pid, ¬ inside pid) : Admits sems sem inside left := by
  constructor
  · refine ⟨[], permits, List.nodup_nil, ?_⟩
    intro pid
    simp [none pid]
  · intro pid member
    rw [nobody] at member
    exact absurd member List.not_mem_nil

theorem create_admits {count : BitVec 32} (good : ¬ isbadsem sem) (nobody : sems.waiting sem = [])
    (notNegative : 0 ≤ count.toInt) (none : ∀ pid, ¬ inside pid) :
    Admits (sems.create sem count) sem inside count.toInt :=
  nobody_admitted nobody (create_permits good nobody notNegative) none

theorem reset_admits {count : BitVec 32} (usable : ¬ refused sems sem)
    (notNegative : 0 ≤ count.toInt) (none : ∀ pid, ¬ inside pid) :
    Admits (sems.reset sem count) sem inside count.toInt := by
  have nobody : (sems.reset sem count).waiting sem = [] := by simp [Sems.reset, Sems.setWaiting]
  have used : (sems.semaph sem).sstate = .used := by
    cases state : (sems.semaph sem).sstate with
    | used => rfl
    | free => exact absurd (Or.inr state) usable
  refine nobody_admitted nobody ⟨fun bad => usable (Or.inl bad), ?_, ?_, ?_, ?_, ?_⟩ none
  · simpa [Sems.reset, Sems.setCount, Sems.setWaiting] using used
  · simp only [Sems.reset, Sems.setCount, Sems.setWaiting, Function.update_self, Balanced, used,
      List.length_nil]
    omega
  · rw [nobody]
    exact List.nodup_nil
  · rw [nobody]
    simp
  · simp only [Sems.reset, Sems.setCount, Sems.setWaiting, Function.update_self, List.length_nil]
    omega

theorem reset_onlyAt (sems : Sems) (sem : Int) (count : BitVec 32) :
    OnlyAt sem sems (sems.reset sem count) := by
  intro other away
  simp [Sems.reset, Sems.setCount, Sems.setWaiting, Function.update_of_ne away]

theorem delete_onlyAt (sems : Sems) (sem : Int) : OnlyAt sem sems (sems.delete sem) := by
  intro other away
  simp [Sems.delete, Function.update_of_ne away]

end Admits

end MvsXinu.Kernel
