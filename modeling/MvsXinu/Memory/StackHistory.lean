import MvsXinu.Lib.Runs
import MvsXinu.Kernel.Process
import MvsXinu.Memory.FreeSpace

/-!
# The stacks of processes (`create.c`, `killpid.c`)

`create` takes a stack and then clears the entry of the process, with `pbase` and `pstklen` in
it; nothing sets them afterwards. `killpid` gives back what these two fields describe.
-/

namespace MvsXinu.Memory

open MvsXinu.Kernel (Xinu Scene Call)
open MvsXinu.Runs

set_option autoImplicit false

def minstk : BitVec 32 := 3072

/-- `stack` is what `create` took for a process that has not been killed yet, and `looped` says
that a block of the free list has been linked to itself. -/
structure System where
  kernel : Xinu
  heap : Heap
  looped : Bool
  pbase : Int → Nat
  pstklen : Int → BitVec 32
  stack : Int → Option Mblock

/-- The length for which `create` asks. -/
def stackLen (ssize : BitVec 32) : BitVec 32 :=
  BitVec.ofNat 32 (roundew (if ssize.slt minstk then minstk else ssize).toNat)

/-- The octets that end with the topmost word. -/
def stackBlock (saddr : Nat) (ssize : BitVec 32) : Mblock := ⟨saddr + 4 - ssize.toNat, ssize.toNat⟩

def create (s : System) (ssize priority : BitVec 32) : Int × System :=
  if priority.slt 1 then (Kernel.syserr, s)
  else
    match getstk s.heap (stackLen ssize) with
    | (none, _) => (Kernel.syserr, s)
    | (some saddr, heap) =>
        let made := Kernel.create s.kernel true priority
        let taken := { s with kernel := made.2, heap := heap }
        if made.1 = Kernel.syserr then (Kernel.syserr, taken)
        else
          (made.1,
            { taken with
              pbase := Function.update s.pbase made.1 0
              pstklen := Function.update s.pstklen made.1 0
              stack := Function.update s.stack made.1 (some (stackBlock saddr (stackLen ssize))) })

def System.freed (s : System) : Freed → System
  | Freed.ok memlist => { s with heap := { s.heap with memlist := memlist } }
  | Freed.syserr => s
  | Freed.looped => { s with looped := true }

def killpid (s : System) (scene : Scene) (pid : Int) : Int × System :=
  let killed := Kernel.killpid s.kernel scene pid
  if killed.1 = Kernel.syserr then (Kernel.syserr, { s with kernel := killed.2 })
  else
    let later := s.freed (freestk s.heap (s.pbase pid) (s.pstklen pid))
    (killed.1, { later with kernel := killed.2, stack := Function.update s.stack pid none })

/-! ## Histories -/

/-- A call of the current process, with the length of the stack if it is `create`. -/
structure Turn where
  call : Call
  scene : Scene
  ssize : BitVec 32

def turnStep (s : System) (turn : Turn) : System :=
  match turn.call with
  | .create _ priority => (create s turn.ssize priority).2
  | .killpid pid => (killpid s turn.scene pid).2
  | call => { s with kernel := Kernel.step s.kernel call turn.scene }

def booting (kernel : Xinu) (heap : Heap) : System where
  kernel := kernel
  heap := heap
  looped := false
  pbase := fun _ => 0
  pstklen := fun _ => 0
  stack := fun _ => none

/-- The turn kills a process for which `create` has taken `block`. -/
def KillsOwner (s : System) (turn : Turn) (block : Mblock) : Prop :=
  ∃ pid, turn.call = .killpid pid ∧ (Kernel.killpid s.kernel turn.scene pid).1 ≠ Kernel.syserr ∧
    s.stack pid = some block

/-- The stack of a process that is killed is free afterwards. -/
def Returns (s : System) (turn : Turn) : Prop :=
  ∀ block, KillsOwner s turn block → ∀ address, block.place ≤ address →
    address < block.place + block.size → IsFree (turnStep s turn).heap.memlist address

def SparesCreated (s : System) (turn : Turn) : Prop := ∀ block, ¬ KillsOwner s turn block

/-! ## What is kept along a history -/

/-- Storage that is out stays out, and `killpid` finds nothing to give back. -/
structure Kept (s : System) : Prop where
  filled : Filled s.heap
  base : ∀ pid, s.pbase pid = 0
  none : ∀ pid, s.pstklen pid = 0
  out : ∀ pid block, s.stack pid = some block → 0 < block.size ∧
    ∀ address, block.place ≤ address → address < block.place + block.size →
      ¬ IsFree s.heap.memlist address

theorem freestk_nothing (heap : Heap) (p : Nat) : freestk heap p 0 = Freed.syserr := by
  have nothing : BitVec.ofNat 32 (roundmb (0 : BitVec 32).toNat) = 0 := rfl
  rw [freestk, freemem, nothing, if_pos (Or.inl rfl)]

theorem stackLen_room (ssize : BitVec 32) :
    3072 ≤ (stackLen ssize).toNat ∧ roundew (stackLen ssize).toNat = (stackLen ssize).toNat := by
  have rounds : ∀ length : BitVec 32, 3072 ≤ length.toNat → length.toNat < 2 ^ 31 →
      3072 ≤ (BitVec.ofNat 32 (roundew length.toNat)).toNat ∧
        roundew (BitVec.ofNat 32 (roundew length.toNat)).toNat =
          (BitVec.ofNat 32 (roundew length.toNat)).toNat := by
    intro length least most
    rw [BitVec.toNat_ofNat]
    unfold roundew word
    omega
  unfold stackLen
  by_cases small : ssize.slt minstk
  · rw [if_pos small]
    exact rounds minstk (by decide) (by decide)
  · rw [if_neg small]
    have signed : ssize.toNat < 2 ^ 31 ∧ 3072 ≤ ssize.toNat := by
      rw [BitVec.slt, decide_eq_true_eq, BitVec.toInt_eq_toNat_cond] at small
      have bound := ssize.isLt
      have least : minstk.toInt = 3072 := rfl
      rw [least] at small
      split_ifs at small <;> omega
    exact rounds ssize signed.2 signed.1

section Steps

variable {s : System}

theorem booting_kept (kernel : Xinu) {heap : Heap} (filled : Filled heap) :
    Kept (booting kernel heap) where
  filled := filled
  base := fun _ => rfl
  none := fun _ => rfl
  out := by
    intro pid block owned
    cases owned

theorem create_kept (kept : Kept s) (ssize priority : BitVec 32) :
    Kept (create s ssize priority).2 := by
  obtain ⟨least, even⟩ := stackLen_room ssize
  have nonzero : stackLen ssize ≠ 0 := by
    intro zero
    rw [zero] at least
    simp at least
  rw [create]
  by_cases low : priority.slt 1
  · rw [if_pos low]
    exact kept
  · rw [if_neg low, getstk, if_neg nonzero]
    cases found : carveTop (roundew (stackLen ssize).toNat) s.heap.memlist with
    | none => exact kept
    | some taken =>
        obtain ⟨saddr, memlist⟩ := taken
        obtain ⟨takes, enough⟩ := carveTop_takes kept.filled found (by omega)
        have others : ∀ pid block, s.stack pid = some block → 0 < block.size ∧
            ∀ address, block.place ≤ address → address < block.place + block.size →
              ¬ IsFree memlist address := by
          intro pid block owned
          obtain ⟨some, out⟩ := kept.out pid block owned
          refine ⟨some, ?_⟩
          intro address low high free
          exact out address low high ((takes.free address).mp free).1
        dsimp only
        by_cases full : (Kernel.create s.kernel true priority).1 = Kernel.syserr
        · rw [if_pos full]
          exact ⟨takes.filled, kept.base, kept.none, others⟩
        · rw [if_neg full]
          refine ⟨takes.filled, ?_, ?_, ?_⟩
          · intro pid
            by_cases same : pid = (Kernel.create s.kernel true priority).1
            · rw [same]
              exact Function.update_self _ _ _
            · exact (Function.update_of_ne same _ _).trans (kept.base pid)
          · intro pid
            by_cases same : pid = (Kernel.create s.kernel true priority).1
            · rw [same]
              exact Function.update_self _ _ _
            · exact (Function.update_of_ne same _ _).trans (kept.none pid)
          · intro pid block owned
            by_cases same : pid = (Kernel.create s.kernel true priority).1
            · subst same
              dsimp only at owned
              rw [Function.update_self, Option.some_inj] at owned
              rw [← owned, stackBlock]
              dsimp only
              refine ⟨by omega, ?_⟩
              intro address low high
              rw [even] at takes enough
              exact takes.gone address low (by omega)
            · dsimp only at owned
              rw [Function.update_of_ne same] at owned
              exact others pid block owned

theorem killpid_heap (kept : Kept s) (scene : Scene) (pid : Int) :
    (killpid s scene pid).2.heap = s.heap := by
  rw [killpid, kept.none pid, freestk_nothing]
  dsimp only
  split_ifs <;> rfl

theorem killpid_kept (kept : Kept s) (scene : Scene) (pid : Int) :
    Kept (killpid s scene pid).2 := by
  rw [killpid, kept.none pid, freestk_nothing]
  dsimp only
  by_cases refused : (Kernel.killpid s.kernel scene pid).1 = Kernel.syserr
  · rw [if_pos refused]
    exact ⟨kept.filled, kept.base, kept.none, kept.out⟩
  · rw [if_neg refused]
    refine ⟨kept.filled, kept.base, kept.none, ?_⟩
    intro other block owned
    by_cases same : other = pid
    · subst same
      dsimp only at owned
      rw [Function.update_self] at owned
      cases owned
    · dsimp only at owned
      rw [Function.update_of_ne same] at owned
      exact kept.out other block owned

theorem turnStep_kept (kept : Kept s) (turn : Turn) : Kept (turnStep s turn) := by
  obtain ⟨call, scene, ssize⟩ := turn
  cases call with
  | create stack priority => exact create_kept kept ssize priority
  | killpid pid => exact killpid_kept kept scene pid
  | _ => exact ⟨kept.filled, kept.base, kept.none, kept.out⟩

/-- The free list stays as it is, and nothing of the stack was in it. -/
theorem returns_iff (kept : Kept s) (turn : Turn) : Returns s turn ↔ SparesCreated s turn := by
  constructor
  · intro returns block kills
    have killed := kills
    obtain ⟨pid, isKill, _, owned⟩ := killed
    obtain ⟨some, out⟩ := kept.out pid block owned
    have free := returns block kills block.place (le_refl _) (by omega)
    rw [turnStep, isKill] at free
    dsimp only at free
    rw [killpid_heap kept] at free
    exact out block.place (le_refl _) (by omega) free
  · intro spares block kills
    exact absurd kills (spares block)

end Steps

/-- A stack is taken and given back as it should be exactly if its length allows it, and the
stacks of the processes that are killed are given back only where there are none. -/
theorem stack_storage_iff (heap : Heap) (sound : Sound heap) :
    (∀ nbytes : BitVec 32, nbytes ≠ 0 → (StackLaw heap nbytes ↔ Returnable heap nbytes.toNat)) ∧
      ∀ (kernel : Xinu) (turns : List Turn),
        (Permitted turnStep Returns (booting kernel heap) turns ↔
          Permitted turnStep SparesCreated (booting kernel heap) turns) := by
  constructor
  · intro nbytes some
    exact stackLaw_iff sound some
  · intro kernel turns
    apply permitted_congr turns (booting_kept kernel sound.filled)
    · intro s turn kept
      exact turnStep_kept kept turn
    · intro s turn kept
      exact returns_iff kept turn

theorem meminit_sound : Sound (meminit 0x1000) where
  spaced := ⟨List.pairwise_singleton _ _, by
    intro block member
    rw [List.mem_singleton.mp member]
    decide, by decide⟩
  aligned := by
    intro block member
    rw [List.mem_singleton.mp member]
    decide

def calmScene : Scene := ⟨[], true⟩

def creates : Turn := ⟨.create true 20, calmScene, 4096⟩

def kills : Turn := ⟨.killpid 49, calmScene, 0⟩

theorem page_returns :
    StackLaw (meminit 0x1000) 4096 ∧
      Permitted turnStep Returns (booting Kernel.booted (meminit 0x1000)) [creates] := by
  obtain ⟨law, history⟩ := stack_storage_iff (meminit 0x1000) meminit_sound
  constructor
  · rw [law 4096 (by decide), Returnable, if_neg (by decide)]
    refine Or.inr ⟨by decide, ?_⟩
    rintro ⟨block, back, placed, nonempty, _⟩
    exact nonempty (List.cons.inj placed).2.symm
  · rw [history]
    refine ⟨?_, trivial⟩
    rintro block ⟨pid, isKill, _⟩
    cases isKill

/-- Twelve octets leave a block whose length is no multiple of 8, and the stack of the process
that is created and killed stays out. -/
theorem twelve_octets_and_kill_lose :
    Sound (meminit 0x1000) ∧ ¬ StackLaw (meminit 0x1000) 12 ∧
      ¬ Permitted turnStep Returns (booting Kernel.booted (meminit 0x1000)) [creates, kills] := by
  refine ⟨meminit_sound, ?_, ?_⟩
  · intro law
    have aligned := (law.takes (0x1000 + heapLen - 4) rfl).2.1
    have left := aligned ⟨0x1000, heapLen - 12⟩ List.mem_cons_self
    exact absurd left.2.1 (by decide)
  · rintro ⟨_, returns, _⟩
    have owner : KillsOwner (turnStep (booting Kernel.booted (meminit 0x1000)) creates) kills
        ⟨0x1000 + heapLen - 4096, 4096⟩ := ⟨49, rfl, by decide, rfl⟩
    obtain ⟨block, member, _, high⟩ := returns _ owner (0x1000 + heapLen - 4096) (le_refl _) (by
      dsimp only
      omega)
    have only : block = ⟨0x1000, heapLen - 4096⟩ := List.mem_singleton.mp member
    rw [only] at high
    unfold heapLen at high
    dsimp only at high
    omega

end MvsXinu.Memory
