import MvsXinu.Memory.BufferPool

/-!
# Free buffers, handed out buffers and the count

For each pool the free list is as long as the count of its semaphore and the processes that
have been granted a buffer say, free and handed out buffers are those that `mkpool` carved,
and a buffer that is handed out bears the number of its pool.
-/

namespace MvsXinu.Pool

open MvsXinu.Kernel MvsXinu.Chains MvsXinu.Runs

set_option autoImplicit false

def PoolLaw (s : Pools) (poolid : Int) : Prop :=
  let pool := s.bptab poolid
  ∃ free, Chain 0 s.word pool.bpnext free ∧
    (free.length : Int) = max (scount s.sems pool.bpsem) 0 + (s.granted poolid).length ∧
    (s.granted poolid ≠ [] ∨ 0 < scount s.sems pool.bpsem → pool.bpnext ≠ 0) ∧
    (free ++ s.out poolid).Nodup ∧ (free ++ s.out poolid).Perm (buffers pool) ∧
    ∀ place ∈ s.out poolid,
      Chain 0 (freebuf s (place + 4)).word ((freebuf s (place + 4)).bptab poolid).bpnext
        (place :: free) ∧
      ∀ other, other ≠ poolid → (freebuf s (place + 4)).bptab other = s.bptab other

/-! ## Carving -/

def places (stride : Int) : Nat → Int → List Int
  | 0, _ => []
  | more + 1, place => place :: places stride more (place + stride)

theorem places_eq (stride : Int) (count : Nat) : ∀ place,
    places stride count place =
      (List.range count).map fun index : Nat => place + (index : Int) * stride := by
  induction count with
  | zero =>
      intro place
      rfl
  | succ count ih =>
      intro place
      rw [places, ih, List.range_succ_eq_map, List.map_cons, List.map_map]
      congr 1
      · simp
      · apply List.map_congr_left
        intro index _
        simp only [Function.comp_apply]
        push_cast
        rw [Int.add_mul]
        omega

theorem places_bounds {stride : Int} (positive : 0 < stride) (count : Nat) :
    ∀ place address, address ∈ places stride count place →
      place ≤ address ∧ address < place + count * stride := by
  induction count with
  | zero =>
      intro place address member
      exact absurd member List.not_mem_nil
  | succ count ih =>
      intro place address member
      have more : ((count + 1 : Nat) : Int) * stride = count * stride + stride := by
        push_cast
        rw [Int.add_mul, Int.one_mul]
      have some : 0 ≤ (count : Int) * stride := Int.mul_nonneg (by omega) (by omega)
      rw [more]
      rcases List.mem_cons.mp member with first | later
      · omega
      · have := ih (place + stride) address later
        omega

theorem places_nodup {stride : Int} (positive : 0 < stride) (count : Nat) :
    ∀ place, (places stride count place).Nodup := by
  induction count with
  | zero =>
      intro place
      exact List.nodup_nil
  | succ count ih =>
      intro place
      apply List.nodup_cons.mpr
      refine ⟨?_, ih (place + stride)⟩
      intro member
      have := places_bounds positive count (place + stride) place member
      omega

theorem carve_elsewhere {stride address : Int} (more : Nat) :
    ∀ place word, address ∉ places stride (more + 1) place →
      carve stride more place word address = word address := by
  induction more with
  | zero =>
      intro place word away
      simp only [places, List.mem_singleton] at away
      exact Function.update_of_ne away _ _
  | succ more ih =>
      intro place word away
      simp only [places, List.mem_cons, not_or] at away
      unfold carve
      rw [ih (place + stride) _ (by simp only [places, List.mem_cons, not_or]; exact away.2),
        Function.update_of_ne away.1]

theorem carve_chain {stride : Int} (positive : 0 < stride) (more : Nat) :
    ∀ place word, 0 < place →
      Chain 0 (carve stride more place word) place (places stride (more + 1) place) := by
  induction more with
  | zero =>
      intro place word above
      refine ⟨rfl, by omega, ?_⟩
      simp [carve, places, Chain]
  | succ more ih =>
      intro place word above
      refine ⟨rfl, by omega, ?_⟩
      have away : place ∉ places stride (more + 1) (place + stride) := by
        intro member
        have := places_bounds positive _ _ _ member
        omega
      have leads : carve stride (more + 1) place word place = place + stride := by
        unfold carve
        rw [carve_elsewhere more _ _ away, Function.update_self]
      rw [leads]
      exact ih (place + stride) _ (by omega)

theorem buffers_places (pool : Bpool) :
    buffers pool = places (pool.bpsize + 4) pool.bptotal.toNat pool.bpbase :=
  (places_eq _ _ _).symm

/-! ## The invariant -/

/-- The storage of a pool: its free list, what is handed out, and the marks in front of it. -/
structure Stocked (s : Pools) (poolid : Int) (free : List Int) : Prop where
  chain : Chain 0 s.word (s.bptab poolid).bpnext free
  perm : (free ++ s.out poolid).Perm (buffers (s.bptab poolid))
  tags : ∀ place ∈ s.out poolid, s.word place = poolid
  base : 0 < (s.bptab poolid).bpbase
  size : 0 < (s.bptab poolid).bpsize + 4
  total : (s.bptab poolid).bptotal ≤ bpmaxn

/-- The semaphore of a pool says that `left` buffers are free. -/
structure Counted (s : Pools) (poolid : Int) (left : Int) : Prop where
  good : ¬ isbadsem (s.bptab poolid).bpsem
  used : (s.sems.semaph (s.bptab poolid).bpsem).sstate = .used
  fits : Kernel.Balanced (s.sems.semaph (s.bptab poolid).bpsem) (s.sems.waiting (s.bptab poolid).bpsem)
  procs : (s.sems.waiting (s.bptab poolid).bpsem).Nodup ∧
    ∀ pid ∈ s.sems.waiting (s.bptab poolid).bpsem, IsProc pid
  length : left =
    max (s.sems.semaph (s.bptab poolid).bpsem).semcnt.toInt 0 + (s.granted poolid).length

structure Sound (s : Pools) (free : Int → List Int) : Prop where
  count : 0 ≤ s.nbpools
  fresh : ∀ poolid, s.nbpools ≤ poolid → s.out poolid = [] ∧ s.granted poolid = []
  stocked : ∀ poolid, IsPool s poolid → Stocked s poolid (free poolid)
  counted : ∀ poolid, IsPool s poolid → Counted s poolid (free poolid).length
  sems : ∀ first second, IsPool s first → IsPool s second →
    (s.bptab first).bpsem = (s.bptab second).bpsem → first = second
  apart : ∀ first second address, IsPool s first → IsPool s second →
    address ∈ buffers (s.bptab first) → address ∈ buffers (s.bptab second) → first = second

section Stock

variable {s later : Pools} {poolid : Int} {free : List Int}

theorem Stocked.buffers_nodup (stocked : Stocked s poolid free) :
    (buffers (s.bptab poolid)).Nodup := by
  rw [buffers_places]
  exact places_nodup stocked.size _ _

theorem Stocked.nodup (stocked : Stocked s poolid free) : (free ++ s.out poolid).Nodup :=
  stocked.perm.nodup_iff.mpr stocked.buffers_nodup

theorem Stocked.ne_null (stocked : Stocked s poolid free) {place : Int}
    (member : place ∈ free ++ s.out poolid) : place ≠ 0 := by
  have inPool := stocked.perm.mem_iff.mp member
  rw [buffers_places] at inPool
  have := places_bounds stocked.size _ _ _ inPool
  have := stocked.base
  omega

theorem Stocked.short (stocked : Stocked s poolid free) : free.length ≤ 128 := by
  have length := stocked.perm.length_eq
  have total := stocked.total
  simp only [buffers, List.length_append, List.length_map, List.length_range] at length
  unfold bpmaxn at total
  omega

/-- The storage of a pool depends on its table entry, on what is handed out and on the words
in front of its buffers. -/
theorem Stocked.frame (stocked : Stocked s poolid free)
    (bptab : later.bptab poolid = s.bptab poolid) (out : later.out poolid = s.out poolid)
    (word : ∀ place ∈ buffers (s.bptab poolid), later.word place = s.word place) :
    Stocked later poolid free := by
  constructor
  · rw [bptab]
    apply stocked.chain.congr
    intro place member
    exact word place (stocked.perm.mem_iff.mp (List.mem_append_left _ member))
  · rw [bptab, out]
    exact stocked.perm
  · intro place member
    rw [out] at member
    rw [word place (stocked.perm.mem_iff.mp (List.mem_append_right _ member))]
    exact stocked.tags place member
  · rw [bptab]
    exact stocked.base
  · rw [bptab]
    exact stocked.size
  · rw [bptab]
    exact stocked.total

theorem take_stocked {first : Int} {rest : List Int}
    (stocked : Stocked s poolid (first :: rest)) : Stocked (take s poolid).2 poolid rest := by
  obtain ⟨isFirst, notNull, chain⟩ := stocked.chain
  have nodup := stocked.nodup
  have awayRest : first ∉ rest := by
    intro member
    exact (List.nodup_cons.mp nodup).1 (List.mem_append_left _ member)
  have entry : ((take s poolid).2.bptab poolid).bpnext = s.word first := by
    simp [take, isFirst]
  have pool : buffers ((take s poolid).2.bptab poolid) = buffers (s.bptab poolid) := by
    simp [take, buffers]
  have out : (take s poolid).2.out poolid = first :: s.out poolid := by
    simp [take, isFirst]
  have word : (take s poolid).2.word = Function.update s.word first poolid := by
    simp [take, isFirst]
  constructor
  · rw [entry, word]
    apply chain.congr
    intro place member
    rw [Function.update_of_ne]
    intro same
    exact awayRest (same ▸ member)
  · rw [pool, out]
    exact List.perm_middle.trans stocked.perm
  · intro place member
    rw [out] at member
    rw [word]
    by_cases same : place = first
    · rw [same, Function.update_self]
    · rw [Function.update_of_ne same]
      exact stocked.tags place ((List.mem_cons.mp member).resolve_left same)
  · simpa [take] using stocked.base
  · simpa [take] using stocked.size
  · simpa [take] using stocked.total

/-- The state in which `freebuf` signals: the buffer is the first of the free list. -/
def pushed (s : Pools) (poolid place : Int) : Pools :=
  { s with
    word := Function.update s.word place (s.bptab poolid).bpnext
    bptab := Function.update s.bptab poolid { s.bptab poolid with bpnext := place }
    out := fun pool => (s.out pool).erase place }

theorem pushed_stocked {place : Int} (stocked : Stocked s poolid free)
    (handed : place ∈ s.out poolid) : Stocked (pushed s poolid place) poolid (place :: free) := by
  have nodup := stocked.nodup
  have absent : place ∉ free := by
    intro member
    exact (List.nodup_append.mp nodup).2.2 place member place handed rfl
  have pool : buffers ((pushed s poolid place).bptab poolid) = buffers (s.bptab poolid) := by
    simp [pushed, buffers]
  constructor
  · have entry : ((pushed s poolid place).bptab poolid).bpnext = place := by simp [pushed]
    rw [entry]
    apply stocked.chain.push (stocked.ne_null (List.mem_append_right _ handed)) absent
    · simp [pushed]
    · intro other away
      simp [pushed, Function.update_of_ne away]
  · rw [pool]
    have back : (s.out poolid).Perm (place :: (s.out poolid).erase place) :=
      List.perm_cons_erase handed
    exact (List.perm_middle.symm.trans (List.Perm.append_left free back.symm)).trans stocked.perm
  · intro other member
    have handedOther : other ∈ s.out poolid := List.mem_of_mem_erase member
    have away : other ≠ place := by
      intro same
      rw [same] at member
      exact (List.Nodup.not_mem_erase (List.nodup_append.mp nodup).2.1) member
    simp only [pushed]
    rw [Function.update_of_ne away]
    exact stocked.tags other handedOther
  · simpa [pushed] using stocked.base
  · simpa [pushed] using stocked.size
  · simpa [pushed] using stocked.total

end Stock

section Count

variable {s later : Pools} {poolid left : Int}

theorem Counted.usable (counted : Counted s poolid left) :
    ¬ refused s.sems (s.bptab poolid).bpsem := by
  rintro (bad | isFree)
  · exact counted.good bad
  · rw [counted.used] at isFree
    cases isFree

theorem Counted.scount_eq (counted : Counted s poolid left) :
    scount s.sems (s.bptab poolid).bpsem =
      (s.sems.semaph (s.bptab poolid).bpsem).semcnt.toInt :=
  if_neg counted.usable

theorem Counted.waiting_short (counted : Counted s poolid left) :
    (s.sems.waiting (s.bptab poolid).bpsem).length ≤ 50 := by
  have within : (s.sems.waiting (s.bptab poolid).bpsem).toFinset ⊆ Finset.Ico (0 : Int) 50 := by
    intro pid member
    have isProc := counted.procs.2 pid (List.mem_toFinset.mp member)
    unfold IsProc nproc at isProc
    exact Finset.mem_Ico.mpr isProc
  have card := Finset.card_le_card within
  rw [List.toFinset_card_of_nodup counted.procs.1, Int.card_Ico] at card
  simpa using card

theorem Counted.frame (counted : Counted s poolid left)
    (bpsem : (later.bptab poolid).bpsem = (s.bptab poolid).bpsem)
    (semaph : later.sems.semaph (s.bptab poolid).bpsem = s.sems.semaph (s.bptab poolid).bpsem)
    (waiting : later.sems.waiting (s.bptab poolid).bpsem =
      s.sems.waiting (s.bptab poolid).bpsem)
    (granted : later.granted poolid = s.granted poolid) : Counted later poolid left := by
  constructor
  · rw [bpsem]
    exact counted.good
  · rw [bpsem, semaph]
    exact counted.used
  · rw [bpsem, semaph, waiting]
    exact counted.fits
  · rw [bpsem, waiting]
    exact counted.procs
  · rw [bpsem, semaph, granted]
    exact counted.length

theorem Counted.passed (counted : Counted s poolid left) (pid : Int)
    (passes : ¬ ((s.sems.semaph (s.bptab poolid).bpsem).semcnt - 1).slt 0 = true) :
    0 < left ∧
      Counted { s with sems := s.sems.wait (s.bptab poolid).bpsem pid } poolid (left - 1) := by
  obtain ⟨fits, pred, positive⟩ :=
    counted.fits.passed counted.used counted.waiting_short passes
  have length := counted.length
  have spec : s.sems.wait (s.bptab poolid).bpsem pid = _ := if_neg passes
  have semaph : (s.sems.wait (s.bptab poolid).bpsem pid).semaph (s.bptab poolid).bpsem =
      { s.sems.semaph (s.bptab poolid).bpsem with
        semcnt := (s.sems.semaph (s.bptab poolid).bpsem).semcnt - 1 } := by
    rw [spec]
    simp [Sems.setCount]
  have waiting : (s.sems.wait (s.bptab poolid).bpsem pid).waiting = s.sems.waiting := by
    rw [spec]
    rfl
  refine ⟨by omega, counted.good, ?_, ?_, ?_, ?_⟩
  · dsimp only
    rw [semaph]
    exact counted.used
  · dsimp only
    rw [semaph, waiting]
    exact fits
  · dsimp only
    rw [waiting]
    exact counted.procs
  · dsimp only
    rw [semaph, pred]
    omega

theorem Counted.blocked (counted : Counted s poolid left) {pid : Int} (isProc : IsProc pid)
    (absent : pid ∉ s.sems.waiting (s.bptab poolid).bpsem)
    (blocks : ((s.sems.semaph (s.bptab poolid).bpsem).semcnt - 1).slt 0 = true) :
    Counted { s with sems := s.sems.wait (s.bptab poolid).bpsem pid } poolid left := by
  have fits := counted.fits.blocked counted.used counted.waiting_short blocks pid
  have length := counted.length
  have spec : s.sems.wait (s.bptab poolid).bpsem pid = _ := if_pos blocks
  have semaph : (s.sems.wait (s.bptab poolid).bpsem pid).semaph (s.bptab poolid).bpsem =
      { s.sems.semaph (s.bptab poolid).bpsem with
        semcnt := (s.sems.semaph (s.bptab poolid).bpsem).semcnt - 1 } := by
    rw [spec]
    simp [Sems.setCount, Sems.setWaiting]
  have waiting : (s.sems.wait (s.bptab poolid).bpsem pid).waiting (s.bptab poolid).bpsem =
      s.sems.waiting (s.bptab poolid).bpsem ++ [pid] := by
    rw [spec]
    simp [Sems.setWaiting]
  refine ⟨counted.good, ?_, ?_, ⟨?_, ?_⟩, ?_⟩
  · dsimp only
    rw [semaph]
    exact counted.used
  · dsimp only
    rw [semaph, waiting]
    exact fits
  · dsimp only
    rw [waiting]
    apply List.nodup_append.mpr
    refine ⟨counted.procs.1, List.nodup_singleton _, ?_⟩
    intro waiter member last isLast same
    rw [List.mem_singleton.mp isLast] at same
    exact absent (same ▸ member)
  · intro waiter member
    dsimp only at member
    rw [waiting] at member
    rcases List.mem_append.mp member with old | new
    · exact counted.procs.2 waiter old
    · rw [List.mem_singleton.mp new]
      exact isProc
  · dsimp only
    have before := counted.fits
    have above : -2147483648 < (s.sems.semaph (s.bptab poolid).bpsem).semcnt.toInt := by
      have short := counted.waiting_short
      unfold Kernel.Balanced at before
      simp only [counted.used] at before
      omega
    rw [slt_zero_iff, toInt_pred above] at blocks
    rw [semaph, toInt_pred above]
    omega

theorem Counted.resumed (counted : Counted s poolid left) {pid : Int}
    (waits : pid ∈ s.granted poolid) :
    0 < left ∧
      Counted
        { s with granted := Function.update s.granted poolid ((s.granted poolid).erase pid) }
        poolid (left - 1) := by
  have length := counted.length
  have some := List.length_pos_of_mem waits
  refine ⟨by omega, counted.good, counted.used, counted.fits, counted.procs, ?_⟩
  simp only [Function.update_self]
  rw [List.length_erase_of_mem waits]
  omega

theorem signalPool_counted (counted : Counted s poolid left) (small : left < 1000) :
    Counted (signalPool s poolid) poolid (left + 1) := by
  have length := counted.length
  have usable := counted.usable
  unfold signalPool
  dsimp only
  rw [if_neg usable]
  split
  · rename_i negative
    have fits := counted.fits.released counted.used negative
    have spec : s.sems.signal (s.bptab poolid).bpsem = _ := if_pos negative
    have semaph := signal_entry s.sems (s.bptab poolid).bpsem
    have waiting : (s.sems.signal (s.bptab poolid).bpsem).waiting (s.bptab poolid).bpsem =
        (s.sems.waiting (s.bptab poolid).bpsem).tail := by
      rw [spec]
      simp [Sems.setWaiting]
    have below := (slt_zero_iff _).mp negative
    have some : 1 ≤ (s.sems.waiting (s.bptab poolid).bpsem).length := by
      have before := counted.fits
      unfold Kernel.Balanced at before
      simp only [counted.used] at before
      omega
    have notMax : (s.sems.semaph (s.bptab poolid).bpsem).semcnt ≠ maxint := by
      intro same
      rw [same] at below
      exact absurd below (by decide)
    refine ⟨counted.good, ?_, ?_, ⟨?_, ?_⟩, ?_⟩
    · dsimp only
      rw [semaph]
      exact counted.used
    · dsimp only
      rw [semaph, waiting]
      exact fits
    · dsimp only
      rw [waiting]
      exact counted.procs.1.sublist (List.tail_sublist _)
    · intro waiter member
      dsimp only at member
      rw [waiting] at member
      exact counted.procs.2 waiter (List.mem_of_mem_tail member)
    · dsimp only
      rw [semaph, Function.update_self, List.length_append, List.length_take]
      dsimp only
      rw [toInt_succ notMax]
      omega
  · rename_i notNegative
    have spec : s.sems.signal (s.bptab poolid).bpsem = _ := if_neg notNegative
    have semaph := signal_entry s.sems (s.bptab poolid).bpsem
    have waiting : (s.sems.signal (s.bptab poolid).bpsem).waiting = s.sems.waiting := by
      rw [spec]
      rfl
    have above : ¬ (s.sems.semaph (s.bptab poolid).bpsem).semcnt.toInt < 0 :=
      fun below => notNegative ((slt_zero_iff _).mpr below)
    have notMax : (s.sems.semaph (s.bptab poolid).bpsem).semcnt ≠ maxint := by
      intro same
      have value : maxint.toInt = 2147483647 := by decide
      rw [same, value] at length
      omega
    have fits := counted.fits.raised counted.used notNegative notMax
    refine ⟨counted.good, ?_, ?_, ?_, ?_⟩
    · dsimp only
      rw [semaph]
      exact counted.used
    · dsimp only
      rw [semaph, waiting]
      exact fits
    · dsimp only
      rw [waiting]
      exact counted.procs
    · dsimp only
      rw [semaph]
      dsimp only
      rw [toInt_succ notMax]
      omega

end Count

/-! ## Steps that concern one pool -/

/-- What a step for one pool leaves alone. -/
structure Local (s later : Pools) (poolid : Int) : Prop where
  nbpools : later.nbpools = s.nbpools
  buffers : Pool.buffers (later.bptab poolid) = Pool.buffers (s.bptab poolid)
  bpsem : (later.bptab poolid).bpsem = (s.bptab poolid).bpsem
  bptab : ∀ other, other ≠ poolid → later.bptab other = s.bptab other
  out : ∀ other, 0 ≤ other → other ≠ poolid → later.out other = s.out other
  granted : ∀ other, other ≠ poolid → later.granted other = s.granted other
  semaph : ∀ sem, sem ≠ (s.bptab poolid).bpsem → later.sems.semaph sem = s.sems.semaph sem
  waiting : ∀ sem, sem ≠ (s.bptab poolid).bpsem → later.sems.waiting sem = s.sems.waiting sem
  word : ∀ place, place ∉ Pool.buffers (s.bptab poolid) → later.word place = s.word place

theorem Local.trans {s middle later : Pools} {poolid : Int} (before : Local s middle poolid)
    (behind : Local middle later poolid) : Local s later poolid := by
  constructor
  · rw [behind.nbpools, before.nbpools]
  · rw [behind.buffers, before.buffers]
  · rw [behind.bpsem, before.bpsem]
  · intro other away
    rw [behind.bptab other away, before.bptab other away]
  · intro other low away
    rw [behind.out other low away, before.out other low away]
  · intro other away
    rw [behind.granted other away, before.granted other away]
  · intro sem away
    rw [behind.semaph sem (before.bpsem ▸ away), before.semaph sem away]
  · intro sem away
    rw [behind.waiting sem (before.bpsem ▸ away), before.waiting sem away]
  · intro place away
    rw [behind.word place (before.buffers ▸ away), before.word place away]

section Steps

variable {s later : Pools} {poolid : Int} {free : Int → List Int}

theorem Sound.step (sound : Sound s free) (isPool : IsPool s poolid)
    (here : Local s later poolid) {now : List Int} (stocked : Stocked later poolid now)
    (counted : Counted later poolid now.length) :
    Sound later (Function.update free poolid now) := by
  have old : ∀ other, IsPool later other → IsPool s other := by
    intro other isOther
    unfold IsPool at isOther ⊢
    rwa [here.nbpools] at isOther
  have same : ∀ other, Pool.buffers (later.bptab other) = Pool.buffers (s.bptab other) ∧
      (later.bptab other).bpsem = (s.bptab other).bpsem := by
    intro other
    by_cases isThis : other = poolid
    · rw [isThis]
      exact ⟨here.buffers, here.bpsem⟩
    · rw [here.bptab other isThis]
      exact ⟨rfl, rfl⟩
  constructor
  · rw [here.nbpools]
    exact sound.count
  · intro other beyond
    rw [here.nbpools] at beyond
    have away : other ≠ poolid := by
      have := isPool.2
      omega
    have low : 0 ≤ other := by
      have := sound.count
      omega
    rw [here.out other low away, here.granted other away]
    exact sound.fresh other beyond
  · intro other isOther
    by_cases isThis : other = poolid
    · rw [isThis, Function.update_self]
      exact stocked
    · rw [Function.update_of_ne isThis]
      apply (sound.stocked other (old other isOther)).frame (here.bptab other isThis)
        (here.out other isOther.1 isThis)
      intro place member
      apply here.word
      intro inside
      exact isThis (sound.apart other poolid place (old other isOther) isPool member inside)
  · intro other isOther
    by_cases isThis : other = poolid
    · rw [isThis, Function.update_self]
      exact counted
    · rw [Function.update_of_ne isThis]
      have away : (s.bptab other).bpsem ≠ (s.bptab poolid).bpsem :=
        fun equal => isThis (sound.sems other poolid (old other isOther) isPool equal)
      exact (sound.counted other (old other isOther)).frame (same other).2
        (here.semaph _ away) (here.waiting _ away) (here.granted other isThis)
  · intro first second isFirst isSecond equal
    rw [(same first).2, (same second).2] at equal
    exact sound.sems first second (old first isFirst) (old second isSecond) equal
  · intro first second address isFirst isSecond inFirst inSecond
    rw [(same first).1] at inFirst
    rw [(same second).1] at inSecond
    exact sound.apart first second address (old first isFirst) (old second isSecond) inFirst inSecond

theorem Sound.panic (sound : Sound s free) : Sound (Pool.panic s) free := by
  refine ⟨sound.count, sound.fresh, ?_, ?_, sound.sems, sound.apart⟩
  · intro other isOther
    exact (sound.stocked other isOther).frame rfl rfl (fun _ _ => rfl)
  · intro other isOther
    exact (sound.counted other isOther).frame rfl rfl rfl rfl

theorem wait_local (pid : Int) :
    Local s { s with sems := s.sems.wait (s.bptab poolid).bpsem pid } poolid := by
  refine ⟨rfl, rfl, rfl, fun _ _ => rfl, fun _ _ _ => rfl, fun _ _ => rfl, ?_, ?_, fun _ _ => rfl⟩
  · intro sem away
    unfold Sems.wait
    dsimp only
    split <;> simp [Sems.setCount, Sems.setWaiting, Function.update_of_ne away]
  · intro sem away
    unfold Sems.wait
    dsimp only
    split <;> simp [Sems.setCount, Sems.setWaiting, Function.update_of_ne away]

theorem take_local {first : Int} {rest : List Int} (stocked : Stocked s poolid (first :: rest)) :
    Local s (take s poolid).2 poolid := by
  have isFirst : (s.bptab poolid).bpnext = first := stocked.chain.1
  have inside : first ∈ Pool.buffers (s.bptab poolid) :=
    stocked.perm.mem_iff.mp (List.mem_append_left _ List.mem_cons_self)
  refine ⟨rfl, ?_, ?_, ?_, ?_, fun _ _ => rfl, fun _ _ => rfl, fun _ _ => rfl, ?_⟩
  · simp [take, Pool.buffers]
  · simp [take]
  · intro other away
    simp [take, Function.update_of_ne away]
  · intro other _ away
    simp [take, Function.update_of_ne away]
  · intro place outside
    have away : place ≠ first := fun same => outside (same ▸ inside)
    simp [take, isFirst, Function.update_of_ne away]

theorem signalPool_local : Local s (signalPool s poolid) poolid := by
  have outside : ∀ sem, sem ≠ (s.bptab poolid).bpsem →
      (s.sems.signal (s.bptab poolid).bpsem).semaph sem = s.sems.semaph sem ∧
      (s.sems.signal (s.bptab poolid).bpsem).waiting sem = s.sems.waiting sem := by
    intro sem away
    unfold Sems.signal
    dsimp only
    split <;> simp [Sems.setCount, Sems.setWaiting, Function.update_of_ne away]
  unfold signalPool
  dsimp only
  split
  · exact ⟨rfl, rfl, rfl, fun _ _ => rfl, fun _ _ _ => rfl, fun _ _ => rfl, fun _ _ => rfl,
      fun _ _ => rfl, fun _ _ => rfl⟩
  · split
    · refine ⟨rfl, rfl, rfl, fun _ _ => rfl, fun _ _ _ => rfl, ?_, fun sem away => (outside sem away).1,
        fun sem away => (outside sem away).2, fun _ _ => rfl⟩
      intro other away
      simp [Function.update_of_ne away]
    · exact ⟨rfl, rfl, rfl, fun _ _ => rfl, fun _ _ _ => rfl, fun _ _ => rfl,
        fun sem away => (outside sem away).1, fun sem away => (outside sem away).2, fun _ _ => rfl⟩

theorem signalPool_storage (s : Pools) (poolid : Int) :
    (signalPool s poolid).bptab = s.bptab ∧ (signalPool s poolid).word = s.word ∧
      (signalPool s poolid).out = s.out := by
  unfold signalPool
  dsimp only
  split
  · exact ⟨rfl, rfl, rfl⟩
  · split
    · exact ⟨rfl, rfl, rfl⟩
    · exact ⟨rfl, rfl, rfl⟩

/-- A process that the semaphore says may take a buffer takes one. -/
theorem Sound.taken (sound : Sound s free) (isPool : IsPool s poolid)
    (here : Local s later poolid) (stocked : Stocked later poolid (free poolid))
    (counted : Counted later poolid ((free poolid).length - 1)) (some : 0 < (free poolid).length) :
    ∃ now, Sound (take later poolid).2 now := by
  cases shape : free poolid with
  | nil =>
      rw [shape] at some
      exact absurd some (by decide)
  | cons first rest =>
      rw [shape] at stocked counted
      refine ⟨_, sound.step isPool (here.trans (take_local stocked)) (take_stocked stocked) ?_⟩
      have left : ((first :: rest).length : Int) - 1 = rest.length := by
        rw [List.length_cons]
        omega
      rw [left] at counted
      exact counted.frame (by simp [take]) rfl rfl rfl

theorem waitAndTake_sound (sound : Sound s free) (isPool : IsPool s poolid) {pid : Int}
    (isProc : IsProc pid) (absent : pid ∉ s.sems.waiting (s.bptab poolid).bpsem) :
    ∃ now, Sound (waitAndTake s pid poolid) now := by
  have counted := sound.counted poolid isPool
  have stocked : Stocked { s with sems := s.sems.wait (s.bptab poolid).bpsem pid } poolid
      (free poolid) := (sound.stocked poolid isPool).frame rfl rfl (fun _ _ => rfl)
  unfold waitAndTake
  dsimp only
  rw [if_neg counted.usable]
  split
  · rename_i blocks
    exact ⟨_, sound.step isPool (wait_local pid) stocked (counted.blocked isProc absent blocks)⟩
  · rename_i passes
    obtain ⟨some, less⟩ := counted.passed pid passes
    exact sound.taken isPool (wait_local pid) stocked less (by omega)

theorem resumed_sound (sound : Sound s free) (isPool : IsPool s poolid) {pid : Int}
    (waits : pid ∈ s.granted poolid) : ∃ now, Sound (resumed s pid poolid) now := by
  obtain ⟨some, less⟩ := (sound.counted poolid isPool).resumed waits
  have here : Local s
      { s with granted := Function.update s.granted poolid ((s.granted poolid).erase pid) }
      poolid := by
    refine ⟨rfl, rfl, rfl, fun _ _ => rfl, fun _ _ _ => rfl, ?_, fun _ _ => rfl, fun _ _ => rfl,
      fun _ _ => rfl⟩
    intro other away
    exact Function.update_of_ne away _ _
  have stocked : Stocked
      { s with granted := Function.update s.granted poolid ((s.granted poolid).erase pid) }
      poolid (free poolid) :=
    (sound.stocked poolid isPool).frame rfl rfl (fun _ _ => rfl)
  exact sound.taken isPool here stocked less (by omega)

theorem freebuf_eq (sound : Sound s free) (isPool : IsPool s poolid) {place : Int}
    (handed : place ∈ s.out poolid) :
    freebuf s (place + 4) = signalPool (pushed s poolid place) poolid := by
  have tag := (sound.stocked poolid isPool).tags place handed
  have good : ¬ badpool s poolid := by
    unfold badpool
    unfold IsPool at isPool
    omega
  unfold freebuf
  dsimp only
  rw [Int.add_sub_cancel, tag, if_neg good]
  rfl

theorem pushed_local (sound : Sound s free) (isPool : IsPool s poolid) {place : Int}
    (handed : place ∈ s.out poolid) : Local s (pushed s poolid place) poolid := by
  have inside : place ∈ Pool.buffers (s.bptab poolid) :=
    (sound.stocked poolid isPool).perm.mem_iff.mp (List.mem_append_right _ handed)
  refine ⟨rfl, ?_, ?_, ?_, ?_, fun _ _ => rfl, fun _ _ => rfl, fun _ _ => rfl, ?_⟩
  · simp [pushed, Pool.buffers]
  · simp [pushed]
  · intro other away
    simp [pushed, Function.update_of_ne away]
  · intro other low away
    apply List.erase_of_not_mem
    intro member
    by_cases isOther : IsPool s other
    · have within := (sound.stocked other isOther).perm.mem_iff.mp (List.mem_append_right _ member)
      exact away (sound.apart other poolid place isOther isPool within inside)
    · have beyond : s.nbpools ≤ other := by
        unfold IsPool at isOther
        omega
      rw [(sound.fresh other beyond).1] at member
      exact absurd member List.not_mem_nil
  · intro other outside
    have away : other ≠ place := fun same => outside (same ▸ inside)
    simp [pushed, Function.update_of_ne away]

theorem freebuf_sound (sound : Sound s free) (isPool : IsPool s poolid) {place : Int}
    (handed : place ∈ s.out poolid) : ∃ now, Sound (freebuf s (place + 4)) now := by
  have stocked := sound.stocked poolid isPool
  have short := stocked.short
  rw [freebuf_eq sound isPool handed]
  have here := (pushed_local sound isPool handed).trans signalPool_local
  have counted : Counted (pushed s poolid place) poolid (free poolid).length :=
    (sound.counted poolid isPool).frame (by simp [pushed]) rfl rfl rfl
  have more := signalPool_counted counted (by omega)
  have length : ((place :: free poolid).length : Int) = (free poolid).length + 1 := by
    rw [List.length_cons]
    push_cast
    rfl
  rw [← length] at more
  obtain ⟨bptab, word, out⟩ := signalPool_storage (pushed s poolid place) poolid
  have pushedStock := (pushed_stocked stocked handed).frame (congrFun bptab poolid)
    (congrFun out poolid) (fun other _ => congrFun word other)
  exact ⟨_, sound.step isPool here pushedStock more⟩

end Steps

/-! ## Making a pool -/

theorem mem_buffers_bounds {pool : Bpool} (size : 0 < pool.bpsize + 4) (total : 0 ≤ pool.bptotal)
    {address : Int} (member : address ∈ buffers pool) :
    pool.bpbase ≤ address ∧ address < pool.bpbase + pool.bptotal * (pool.bpsize + 4) := by
  rw [buffers_places] at member
  have bounds := places_bounds size _ _ _ member
  rwa [Int.toNat_of_nonneg total] at bounds

/-- A pool is added behind the others, with buffers and a semaphore of its own. -/
theorem Sound.grow {s later : Pools} {free : Int → List Int} (sound : Sound s free)
    {now : List Int} (nbpools : later.nbpools = s.nbpools + 1)
    (bptab : ∀ poolid, poolid ≠ s.nbpools → later.bptab poolid = s.bptab poolid)
    (out : later.out = s.out) (granted : later.granted = s.granted)
    (stockedOlder : ∀ poolid, IsPool s poolid → Stocked later poolid (free poolid))
    (countedOlder : ∀ poolid, IsPool s poolid → Counted later poolid (free poolid).length)
    (stocked : Stocked later s.nbpools now) (counted : Counted later s.nbpools now.length)
    (ownSem : ∀ poolid, IsPool s poolid →
      (s.bptab poolid).bpsem ≠ (later.bptab s.nbpools).bpsem)
    (ownBuffers : ∀ poolid, IsPool s poolid → ∀ address ∈ buffers (s.bptab poolid),
      address ∉ buffers (later.bptab s.nbpools)) :
    Sound later (Function.update free s.nbpools now) := by
  have newOrOld : ∀ poolid, IsPool later poolid →
      poolid = s.nbpools ∨ poolid ≠ s.nbpools ∧ IsPool s poolid := by
    intro poolid isPool
    by_cases isNew : poolid = s.nbpools
    · exact Or.inl isNew
    · have above := isPool.2
      exact Or.inr ⟨isNew, isPool.1, by omega⟩
  constructor
  · have count := sound.count
    omega
  · intro poolid beyond
    rw [out, granted]
    exact sound.fresh poolid (by omega)
  · intro poolid isPool
    rcases newOrOld poolid isPool with isNew | ⟨away, isOld⟩
    · rw [isNew, Function.update_self]
      exact stocked
    · rw [Function.update_of_ne away]
      exact stockedOlder poolid isOld
  · intro poolid isPool
    rcases newOrOld poolid isPool with isNew | ⟨away, isOld⟩
    · rw [isNew, Function.update_self]
      exact counted
    · rw [Function.update_of_ne away]
      exact countedOlder poolid isOld
  · intro first second isFirst isSecond equal
    rcases newOrOld first isFirst with newFirst | ⟨awayFirst, oldFirst⟩
    · rcases newOrOld second isSecond with newSecond | ⟨awaySecond, oldSecond⟩
      · rw [newFirst, newSecond]
      · rw [newFirst, bptab second awaySecond] at equal
        exact absurd equal.symm (ownSem second oldSecond)
    · rw [bptab first awayFirst] at equal
      rcases newOrOld second isSecond with newSecond | ⟨awaySecond, oldSecond⟩
      · rw [newSecond] at equal
        exact absurd equal (ownSem first oldFirst)
      · rw [bptab second awaySecond] at equal
        exact sound.sems first second oldFirst oldSecond equal
  · intro first second address isFirst isSecond inFirst inSecond
    rcases newOrOld first isFirst with newFirst | ⟨awayFirst, oldFirst⟩
    · rcases newOrOld second isSecond with newSecond | ⟨awaySecond, oldSecond⟩
      · rw [newFirst, newSecond]
      · rw [newFirst] at inFirst
        rw [bptab second awaySecond] at inSecond
        exact absurd inFirst (ownBuffers second oldSecond address inSecond)
    · rw [bptab first awayFirst] at inFirst
      rcases newOrOld second isSecond with newSecond | ⟨awaySecond, oldSecond⟩
      · rw [newSecond] at inSecond
        exact absurd inSecond (ownBuffers first oldFirst address inFirst)
      · rw [bptab second awaySecond] at inSecond
        exact sound.apart first second address oldFirst oldSecond inFirst inSecond

theorem mkpool_sound {s : Pools} {free : Int → List Int} (sound : Sound s free)
    {bufsiz numbufs place sem : Int} (allowed : Allowed s (.mkpool bufsiz numbufs place sem))
    (counts : Counts s (.mkpool bufsiz numbufs place sem)) :
    ∃ now, Sound (mkpool s bufsiz numbufs place sem).2 now := by
  obtain ⟨storage, found⟩ := allowed
  obtain ⟨other, goodOther, freeOther⟩ := counts
  have semaphore : ¬ isbadsem sem ∧ (s.sems.semaph sem).sstate = .free ∧
      s.sems.waiting sem = [] := by
    rcases found with ⟨_, exhausted⟩ | found
    · rw [exhausted other goodOther] at freeOther
      cases freeOther
    · exact found
  obtain ⟨good, isFree, nobody⟩ := semaphore
  have valid : sem ≠ syserr := by
    unfold isbadsem at good
    unfold syserr
    omega
  unfold mkpool
  split
  · exact ⟨free, sound.panic⟩
  · rename_i accepted
    simp only [not_or, not_lt, not_le] at accepted
    obtain ⟨minSize, maxSize, minCount, maxCount, room, some⟩ := accepted
    obtain ⟨above, clear⟩ := storage.resolve_left some
    unfold bpminb at minSize
    unfold bpmaxn at maxCount
    dsimp only
    have size : 0 < bufsiz + 4 := by omega
    have total : ((numbufs - 1).toNat + 1 : Nat) = numbufs.toNat := by omega
    have carved := carve_chain size (numbufs - 1).toNat place s.word above
    rw [total] at carved
    have buffersNew : buffers
        { bpbase := place, bptotal := numbufs, bpmaxused := 0, bpnext := place, bpsize := bufsiz
          bpsem := sem } = places (bufsiz + 4) numbufs.toNat place := buffers_places _
    have awaySem : ∀ poolid, IsPool s poolid → (s.bptab poolid).bpsem ≠ sem := by
      intro poolid isPool same
      have used := (sound.counted poolid isPool).used
      rw [same, isFree] at used
      cases used
    have outside : ∀ poolid, IsPool s poolid → ∀ address ∈ buffers (s.bptab poolid),
        address ∉ places (bufsiz + 4) numbufs.toNat place := by
      intro poolid isPool address member inside
      have stocked := sound.stocked poolid isPool
      have bounds := places_bounds size _ _ _ inside
      rw [Int.toNat_of_nonneg (by omega)] at bounds
      have totalOld : 0 ≤ (s.bptab poolid).bptotal := by
        by_contra negative
        have none : (s.bptab poolid).bptotal.toNat = 0 := by omega
        simp [buffers, none] at member
      have old := mem_buffers_bounds stocked.size totalOld member
      rcases clear poolid isPool with below | behind
      · omega
      · omega
    have value : (BitVec.ofInt 32 numbufs).toInt = numbufs := by
      rw [BitVec.toInt_ofInt]
      apply Int.bmod_eq_of_le <;> omega
    obtain ⟨noOut, noGranted⟩ := sound.fresh s.nbpools (by omega)
    have away : ∀ poolid, IsPool s poolid → poolid ≠ s.nbpools := by
      intro poolid isPool
      exact ne_of_lt isPool.2
    refine ⟨Function.update free s.nbpools (places (bufsiz + 4) numbufs.toNat place), ?_⟩
    apply sound.grow
    · rfl
    · intro poolid isOld
      exact Function.update_of_ne isOld _ _
    · rfl
    · rfl
    · intro poolid isPool
      apply (sound.stocked poolid isPool).frame
      · exact Function.update_of_ne (away poolid isPool) _ _
      · rfl
      · intro address member
        apply carve_elsewhere
        rw [total]
        exact outside poolid isPool address member
    · intro poolid isPool
      apply (sound.counted poolid isPool).frame
      · simp [Function.update_of_ne (away poolid isPool)]
      · exact Function.update_of_ne (awaySem poolid isPool) _ _
      · rfl
      · rfl
    · constructor
      · simpa using carved
      · simp only [Function.update_self, noOut, List.append_nil]
        rw [buffersNew]
      · intro address member
        rw [noOut] at member
        exact absurd member List.not_mem_nil
      · simpa using above
      · simpa using size
      · simpa [bpmaxn] using maxCount
    · have length : ((places (bufsiz + 4) numbufs.toNat place).length : Int) = numbufs := by
        rw [places_eq, List.length_map, List.length_range]
        omega
      constructor
      · simpa using good
      · simp [Sems.create]
      · simp only [Function.update_self, Sems.create, nobody, Kernel.Balanced]
        rw [value]
        simp only [List.length_nil]
        omega
      · simp [Sems.create, nobody]
      · simp only [Function.update_self, Sems.create, noGranted, List.length_nil]
        rw [value, length]
        omega
    · intro poolid isPool
      dsimp only
      rw [Function.update_self]
      exact awaySem poolid isPool
    · intro poolid isPool address member
      dsimp only
      rw [Function.update_self, buffersNew]
      exact outside poolid isPool address member

/-! ## Every run -/

theorem Sound.law {s : Pools} {free : Int → List Int} (sound : Sound s free) {poolid : Int}
    (isPool : IsPool s poolid) : PoolLaw s poolid := by
  have stocked := sound.stocked poolid isPool
  have counted := sound.counted poolid isPool
  have length := counted.length
  have count := counted.scount_eq
  refine ⟨free poolid, stocked.chain, ?_, ?_, stocked.nodup, stocked.perm, ?_⟩
  · rw [count]
    exact length
  · intro entitled
    have some : 0 < (free poolid).length := by
      rw [count] at entitled
      rcases entitled with granted | positive
      · have := List.length_pos_of_ne_nil granted
        omega
      · omega
    obtain ⟨first, rest, shape⟩ := List.exists_cons_of_length_pos some
    have chain := stocked.chain
    rw [shape] at chain
    exact chain.ne_null
  · intro place handed
    obtain ⟨bptab, word, _⟩ := signalPool_storage (pushed s poolid place) poolid
    rw [freebuf_eq sound isPool handed, bptab, word]
    refine ⟨(pushed_stocked stocked handed).chain, ?_⟩
    intro other away
    exact (pushed_local sound isPool handed).bptab other away

theorem step_sound {s : Pools} {free : Int → List Int} (sound : Sound s free) {call : PoolCall}
    (allowed : Allowed s call) (counts : Counts s call) : ∃ now, Sound (step s call) now := by
  unfold step
  split
  · exact ⟨free, sound⟩
  · have isPool : ∀ poolid, ¬ badpool s poolid → IsPool s poolid := by
      intro poolid good
      unfold badpool at good
      unfold IsPool
      omega
    cases call with
    | mkpool bufsiz numbufs place sem => exact mkpool_sound sound allowed counts
    | getbuf pid poolid =>
        dsimp only [getbuf]
        split
        · exact ⟨free, sound.panic⟩
        · rename_i good
          exact waitAndTake_sound sound (isPool poolid good) allowed.1
            (allowed.2 poolid (isPool poolid good)).1
    | resumed pid poolid => exact resumed_sound sound allowed.1 allowed.2
    | nbgetbuf pid poolid =>
        dsimp only [nbgetbuf]
        split
        · exact ⟨free, sound.panic⟩
        · rename_i good
          split
          · exact ⟨free, sound⟩
          · exact waitAndTake_sound sound (isPool poolid good) allowed.1
              (allowed.2 poolid (isPool poolid good)).1
    | freebuf buf =>
        obtain ⟨poolid, inUse, handed⟩ := allowed
        have back := freebuf_sound sound inUse handed
        rwa [Int.sub_add_cancel] at back
    | elsewhere sems =>
        refine ⟨free, sound.count, sound.fresh, ?_, ?_, sound.sems, sound.apart⟩
        · intro poolid inUse
          exact (sound.stocked poolid inUse).frame rfl rfl (fun _ _ => rfl)
        · intro poolid inUse
          obtain ⟨semaph, waiting⟩ := allowed poolid inUse
          exact (sound.counted poolid inUse).frame rfl semaph waiting rfl

theorem unpooled_sound (sems : Sems) : Sound (unpooled sems) (fun _ => []) := by
  have none : ∀ poolid, ¬ IsPool (unpooled sems) poolid := by
    intro poolid isPool
    have low := isPool.1
    have high : poolid < 0 := isPool.2
    omega
  refine ⟨le_refl _, fun _ _ => ⟨rfl, rfl⟩, ?_, ?_, ?_, ?_⟩
  · intro poolid isPool
    exact absurd isPool (none poolid)
  · intro poolid isPool
    exact absurd isPool (none poolid)
  · intro first _ isFirst
    exact absurd isFirst (none first)
  · intro first _ _ isFirst
    exact absurd isFirst (none first)

theorem pools_lawful_along_run {sems : Sems} {s : Pools}
    (reached : Reach step (fun s call => Allowed s call ∧ Counts s call) (unpooled sems) s)
    (poolid : Int) (isPool : IsPool s poolid) : PoolLaw s poolid := by
  have sound : ∃ free, Sound s free := by
    clear isPool
    induction reached with
    | start => exact ⟨_, unpooled_sound sems⟩
    | step call _ permitted ih =>
        obtain ⟨free, sound⟩ := ih
        exact step_sound sound permitted.1 permitted.2
  obtain ⟨free, sound⟩ := sound
  exact sound.law isPool

/-- No semaphore is in use, or all are. -/
def allSems (state : Sstate) : Sems :=
  { semaph := fun _ => { sstate := state, semcnt := 0 }, waiting := fun _ => [] }

/-- One buffer; process 1 has it, process 2 waits for it and is granted it. -/
def handedOver : List PoolCall :=
  [.mkpool 2 1 100 199, .getbuf 1 0, .getbuf 2 0, .freebuf 104]

theorem handed_over_lawful :
    Permitted step (fun s call => Allowed s call ∧ Counts s call) (unpooled (allSems .free))
        handedOver ∧
      (handedOver.foldl step (unpooled (allSems .free))).granted 0 = [2] ∧
      PoolLaw (handedOver.foldl step (unpooled (allSems .free))) 0 := by
  have onlyPool : ∀ poolid : Int, 0 ≤ poolid → poolid < 1 → poolid = 0 := by
    intro poolid low high
    omega
  have permitted : Permitted step (fun s call => Allowed s call ∧ Counts s call)
      (unpooled (allSems .free)) handedOver := by
    refine ⟨⟨⟨Or.inr ⟨by decide, ?_⟩, Or.inr ⟨by decide, rfl, rfl⟩⟩, 199, by decide, rfl⟩,
      ⟨⟨⟨by decide, by decide⟩, ?_⟩, trivial⟩, ⟨⟨⟨by decide, by decide⟩, ?_⟩, trivial⟩,
      ⟨⟨0, ⟨by decide, by decide⟩, by decide⟩, trivial⟩, trivial⟩
    · intro poolid isPool
      have low := isPool.1
      have high : poolid < 0 := isPool.2
      omega
    · intro poolid isPool
      rw [onlyPool poolid isPool.1 isPool.2]
      decide
    · intro poolid isPool
      rw [onlyPool poolid isPool.1 isPool.2]
      decide
  refine ⟨permitted, by decide, ?_⟩
  exact pools_lawful_along_run (reach_of_permitted handedOver Reach.start permitted) 0
    ⟨by decide, by decide⟩

/-- All semaphores are in use: the new pool has a buffer and no count. -/
theorem pool_without_semaphore_uncounted :
    ¬ ∀ sems s, Reach step Allowed (unpooled sems) s → ∀ poolid, IsPool s poolid →
      PoolLaw s poolid := by
  intro always
  have allowed : Allowed (unpooled (allSems .used)) (.mkpool 2 1 100 syserr) := by
    refine ⟨Or.inr ⟨by decide, ?_⟩, Or.inl ⟨rfl, fun _ _ => rfl⟩⟩
    intro poolid isPool
    have low := isPool.1
    have high : poolid < 0 := isPool.2
    omega
  obtain ⟨free, chain, length, _⟩ := always _ _ (Reach.step _ Reach.start allowed) 0
    ⟨by decide, by decide⟩
  have start : ((step (unpooled (allSems .used)) (.mkpool 2 1 100 syserr)).bptab 0).bpnext = 100 := by
    decide
  have none : max (scount (step (unpooled (allSems .used)) (.mkpool 2 1 100 syserr)).sems
      ((step (unpooled (allSems .used)) (.mkpool 2 1 100 syserr)).bptab 0).bpsem) 0 +
      (((step (unpooled (allSems .used)) (.mkpool 2 1 100 syserr)).granted 0).length : Int) = 0 := by
    decide
  rw [none] at length
  have nothing : free = [] := List.eq_nil_of_length_eq_zero (by omega)
  rw [nothing, start] at chain
  have impossible : (100 : Int) = 0 := chain
  exact absurd impossible (by decide)

end MvsXinu.Pool
