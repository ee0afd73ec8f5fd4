import MvsXinu.Ctc.ReadDevice

/-!
# The slots of the read device

The blocks that have been read and not used up are in the slots from `avail` up to the one
that `ctci_ioread` fills next, and every buffer of the pool is free, in a slot, or in the
hands of `ctci_ioread`.
-/

namespace MvsXinu.CtcRead

open MvsXinu.Octets MvsXinu.Ctc

set_option autoImplicit false

/-- The slot that the next read goes to. `ctci_ioread` steps `bufndx` some time after it has
stored the length. -/
def fillIndex (dev : ReadDevice) : Fin ctcReadbufs :=
  match dev.io.pc with
  | .posted | .stepping => nextIndex dev.io.bufndx
  | _ => dev.io.bufndx

/-- The slot has a block that has been read and not used up. -/
def Filled (dev : ReadDevice) (slot : Fin ctcReadbufs) : Prop :=
  ∃ number, dev.used.length ≤ number ∧ number < dev.read.length ∧ slotOf number = slot

theorem nextIndex_slotOf (number : Nat) : nextIndex (slotOf number) = slotOf (number + 1) := by
  apply Fin.ext
  unfold nextIndex
  split
  · rename_i bound
    have small : number % 3 + 1 < 3 := bound
    change number % 3 + 1 = (number + 1) % 3
    omega
  · rename_i bound
    have large : ¬ number % 3 + 1 < 3 := bound
    change 0 = (number + 1) % 3
    omega

theorem slotOf_inj (first : Nat) {left right : Nat} (leftLow : first ≤ left) (rightLow : first ≤ right)
    (leftHigh : left < first + ctcReadbufs) (rightHigh : right < first + ctcReadbufs)
    (same : slotOf left = slotOf right) : left = right := by
  have residues : left % ctcReadbufs = right % ctcReadbufs := congrArg Fin.val same
  unfold ctcReadbufs at *
  omega

/-- `ctci_ioread` has a buffer. -/
def IoreadPc.held : IoreadPc → Nat
  | .hanging | .inflight | .posting => 1
  | .getting | .posted | .stepping => 0

/-- The slot that a read is in flight to. -/
def Inflight (io : Ioread) (slot : Fin ctcReadbufs) : Prop :=
  (io.pc = .inflight ∨ io.pc = .posting) ∧ slot = io.bufndx

structure Ring (dev : ReadDevice) : Prop where
  avail : dev.stat.avail = slotOf dev.used.length
  fill : fillIndex dev = slotOf dev.read.length
  behind : dev.used.length ≤ dev.read.length
  pool : dev.stat.freebufs + (dev.read.length - dev.used.length) + dev.io.pc.held = ctcReadbufs
  len : ∀ slot, dev.stat.len slot ≠ 0 ↔ Filled dev slot
  buf : ∀ slot, (dev.stat.buf slot).isSome ↔ Filled dev slot ∨ Inflight dev.io slot
  blocks : ∀ number, dev.used.length ≤ number → number < dev.read.length →
    dev.stat.buf (slotOf number) = dev.read[number]?
  order : dev.used <+: dev.read
  begun : dev.stat.pseg ≠ none → dev.used.length < dev.read.length
  iostat : dev.io.pc = .posting → 0 < dev.io.iostat
  frames : dev.given.Pairwise (· ≤ ·)
  given : ∀ number ∈ dev.given, number ≤ dev.used.length

section Ring

variable {dev later : ReadDevice}

theorem Ring.congr (ring : Ring dev) (stat : later.stat = dev.stat) (io : later.io = dev.io)
    (read : later.read = dev.read) (used : later.used = dev.used)
    (given : later.given = dev.given) : Ring later := by
  cases dev
  cases later
  dsimp only at stat io read used given
  subst stat io read used given
  exact ⟨ring.avail, ring.fill, ring.behind, ring.pool, ring.len, ring.buf, ring.blocks,
    ring.order, ring.begun, ring.iostat, ring.frames, ring.given⟩

theorem Ring.room (ring : Ring dev) : dev.read.length ≤ dev.used.length + ctcReadbufs := by
  have := ring.pool
  omega

/-- The next slot to be used is filled exactly if a block is left. -/
theorem Ring.avail_filled (ring : Ring dev) :
    Filled dev dev.stat.avail ↔ dev.used.length < dev.read.length := by
  rw [ring.avail]
  constructor
  · rintro ⟨number, low, high, _⟩
    omega
  · intro left
    exact ⟨_, Nat.le_refl _, left, rfl⟩

theorem Ring.first (ring : Ring dev) (left : dev.used.length < dev.read.length) :
    dev.stat.buf dev.stat.avail = dev.read[dev.used.length]? := by
  rw [ring.avail]
  exact ring.blocks _ (Nat.le_refl _) left

/-- A frame is returned from the oldest block. -/
theorem Ring.frame (ring : Ring dev) (left : dev.used.length < dev.read.length)
    (pseg : Option Int) :
    Ring { dev with
      stat := { dev.stat with pseg := pseg }
      given := dev.given ++ [dev.used.length] } := by
  refine ⟨ring.avail, ring.fill, ring.behind, ring.pool, ring.len, ring.buf, ring.blocks,
    ring.order, fun _ => left, ring.iostat, ?_, ?_⟩
  · apply List.pairwise_append.mpr
    refine ⟨ring.frames, List.pairwise_singleton _ _, ?_⟩
    intro number member last isLast
    rw [List.mem_singleton.mp isLast]
    exact ring.given number member
  · intro number member
    rcases List.mem_append.mp member with old | new
    · exact ring.given number old
    · rw [List.mem_singleton.mp new]

/-- A read in flight goes to none of the filled slots. -/
theorem Ring.inflight_not_filled (ring : Ring dev) {slot : Fin ctcReadbufs}
    (inflight : Inflight dev.io slot) : ¬ Filled dev slot := by
  obtain ⟨flying, isSlot⟩ := inflight
  have fill : dev.io.bufndx = slotOf dev.read.length := by
    have := ring.fill
    unfold fillIndex at this
    rcases flying with flies | posts
    · simpa only [flies] using this
    · simpa only [posts] using this
  have held : dev.io.pc.held = 1 := by
    rcases flying with flies | posts
    · rw [flies]
      rfl
    · rw [posts]
      rfl
  have pool := ring.pool
  have behind := ring.behind
  rintro ⟨number, low, high, same⟩
  rw [isSlot, fill] at same
  have := slotOf_inj dev.used.length low behind (by omega) (by omega) same
  omega

theorem Filled.used_up (ring : Ring dev) (pbuf : Storage)
    (left : dev.used.length < dev.read.length) (slot : Fin ctcReadbufs) :
    Filled { dev with used := dev.used ++ [pbuf] } slot ↔
      Filled dev slot ∧ slot ≠ slotOf dev.used.length := by
  have room := ring.room
  unfold Filled
  dsimp only
  rw [List.length_append, List.length_singleton]
  constructor
  · rintro ⟨number, low, high, isSlot⟩
    refine ⟨⟨number, by omega, high, isSlot⟩, ?_⟩
    intro same
    have := slotOf_inj dev.used.length (by omega) (Nat.le_refl _) (by omega) (by omega)
      (isSlot.trans same)
    omega
  · rintro ⟨⟨number, low, high, isSlot⟩, away⟩
    have : number ≠ dev.used.length := by
      intro same
      rw [same] at isSlot
      exact away isSlot.symm
    exact ⟨number, by omega, high, isSlot⟩

/-- The oldest block is used up. -/
theorem Ring.exhausted (ring : Ring dev) {pbuf : Storage}
    (found : dev.stat.buf dev.stat.avail = some pbuf)
    (left : dev.used.length < dev.read.length) :
    Ring { dev with
      stat :=
        { avail := nextIndex dev.stat.avail
          pseg := none
          buf := Function.update dev.stat.buf dev.stat.avail none
          len := Function.update dev.stat.len dev.stat.avail 0
          freebufs := dev.stat.freebufs + 1 }
      used := dev.used ++ [pbuf] } := by
  have room := ring.room
  have pool := ring.pool
  have length : (dev.used ++ [pbuf]).length = dev.used.length + 1 := by simp
  have filled := Filled.used_up ring pbuf left
  have filledAvail : Filled dev dev.stat.avail := ring.avail_filled.mpr left
  have isBlock : dev.read[dev.used.length]? = some pbuf := (ring.first left).symm.trans found
  constructor
  · dsimp only
    rw [ring.avail, nextIndex_slotOf, length]
  · exact ring.fill
  · dsimp only
    rw [length]
    omega
  · dsimp only
    rw [length]
    omega
  · intro slot
    refine Iff.trans ?_ (filled slot).symm
    rw [← ring.avail]
    dsimp only
    by_cases same : slot = dev.stat.avail
    · rw [same, Function.update_self]
      simp
    · rw [Function.update_of_ne same, ring.len]
      simp [same]
  · intro slot
    refine Iff.trans ?_ (or_congr (filled slot).symm Iff.rfl)
    rw [← ring.avail]
    dsimp only
    by_cases same : slot = dev.stat.avail
    · have notInflight : ¬ Inflight dev.io dev.stat.avail :=
        fun inflight => ring.inflight_not_filled inflight filledAvail
      rw [same, Function.update_self]
      simpa using notInflight
    · rw [Function.update_of_ne same, ring.buf]
      simp [same]
  · intro number low high
    dsimp only at low high ⊢
    rw [length] at low
    have away : slotOf number ≠ dev.stat.avail := by
      rw [ring.avail]
      intro same
      have := slotOf_inj dev.used.length (by omega) (Nat.le_refl _) (by omega) (by omega) same
      omega
    rw [Function.update_of_ne away]
    exact ring.blocks number (by omega) high
  · dsimp only
    obtain ⟨others, split⟩ := ring.order
    rw [← split] at isBlock ⊢
    rw [List.getElem?_append_right (Nat.le_refl _), Nat.sub_self] at isBlock
    cases others with
    | nil => cases isBlock
    | cons first rest =>
        have same : first = pbuf := Option.some.inj isBlock
        exact ⟨rest, by rw [same, List.append_assoc]; rfl⟩
  · intro begun
    exact absurd rfl begun
  · exact ring.iostat
  · exact ring.frames
  · intro number member
    dsimp only
    rw [length]
    exact Nat.le_succ_of_le (ring.given number member)

/-- `ctci_ioread` moves on without a look at the slots. -/
theorem Ring.moved (ring : Ring dev) (io : Ioread) (freebufs : Nat)
    (fill : fillIndex { dev with io := io } = fillIndex dev)
    (pool : freebufs + io.pc.held = dev.stat.freebufs + dev.io.pc.held)
    (flies : ∀ slot, Inflight io slot ↔ Inflight dev.io slot)
    (iostat : io.pc = .posting → 0 < io.iostat) :
    Ring { dev with stat := { dev.stat with freebufs := freebufs }, io := io } := by
  have before := ring.pool
  refine ⟨ring.avail, fill.trans ring.fill, ring.behind, ?_, ring.len, ?_, ring.blocks, ring.order,
    ring.begun, iostat, ring.frames, ring.given⟩
  · dsimp only
    omega
  · intro slot
    rw [ring.buf slot, flies slot]
    rfl

/-- The slot that is filled next is empty when `ctci_ioread` has a buffer for it. -/
theorem Ring.next_empty (ring : Ring dev) (hanging : dev.io.pc = .hanging) :
    dev.io.bufndx = slotOf dev.read.length ∧ ¬ Filled dev dev.io.bufndx ∧
      dev.stat.buf dev.io.bufndx = none := by
  have fill : dev.io.bufndx = slotOf dev.read.length := by
    have := ring.fill
    unfold fillIndex at this
    simpa only [hanging] using this
  have pool := ring.pool
  rw [hanging] at pool
  have behind := ring.behind
  have notFilled : ¬ Filled dev dev.io.bufndx := by
    rintro ⟨number, low, high, same⟩
    rw [fill] at same
    have held : IoreadPc.hanging.held = 1 := rfl
    have := slotOf_inj dev.used.length low behind (by omega) (by omega) same
    omega
  refine ⟨fill, notFilled, ?_⟩
  have notInflight : ¬ Inflight dev.io dev.io.bufndx := by
    rintro ⟨flies | posts, _⟩
    · rw [hanging] at flies
      cases flies
    · rw [hanging] at posts
      cases posts
  have absent : ¬ (dev.stat.buf dev.io.bufndx).isSome := by
    rw [ring.buf]
    exact fun present => present.elim notFilled notInflight
  simpa using absent

/-- The buffer goes into its slot and the read is started. -/
theorem Ring.hung (ring : Ring dev) (hanging : dev.io.pc = .hanging) (pbuf : Storage) :
    Ring { dev with
      stat := { dev.stat with
        len := Function.update dev.stat.len dev.io.bufndx 0
        buf := Function.update dev.stat.buf dev.io.bufndx (some pbuf) }
      io := { dev.io with pc := .inflight } } := by
  obtain ⟨fill, notFilled, _⟩ := ring.next_empty hanging
  have pool := ring.pool
  rw [hanging] at pool
  have away : ∀ slot, Filled dev slot → slot ≠ dev.io.bufndx := by
    intro slot filled same
    exact notFilled (same ▸ filled)
  refine ⟨ring.avail, fill, ring.behind, pool, ?_, ?_, ?_, ring.order, ring.begun, ?_, ring.frames,
    ring.given⟩
  · intro slot
    refine Iff.trans ?_ (ring.len slot)
    dsimp only
    by_cases same : slot = dev.io.bufndx
    · rw [same, Function.update_self, ring.len]
      simpa using notFilled
    · rw [Function.update_of_ne same]
  · intro slot
    dsimp only
    by_cases same : slot = dev.io.bufndx
    · rw [same, Function.update_self]
      simp [Inflight]
    · rw [Function.update_of_ne same, ring.buf]
      simp [Inflight, same, hanging]
      rfl
  · intro number low high
    dsimp only
    rw [Function.update_of_ne (away _ ⟨number, low, high, rfl⟩)]
    exact ring.blocks number low high
  · intro posting
    cases posting

/-- The channel stores the block. -/
theorem Ring.completed (ring : Ring dev) (inflight : dev.io.pc = .inflight) (block : Storage)
    {iostat : Nat} (positive : 0 < iostat) :
    Ring { dev with
      stat := { dev.stat with buf := Function.update dev.stat.buf dev.io.bufndx (some block) }
      io := { dev.io with iostat := iostat, pc := .posting } } := by
  have flies : Inflight dev.io dev.io.bufndx := ⟨Or.inl inflight, rfl⟩
  have notFilled := ring.inflight_not_filled flies
  have pool := ring.pool
  rw [inflight] at pool
  have fill : dev.io.bufndx = slotOf dev.read.length := by
    have := ring.fill
    unfold fillIndex at this
    simpa only [inflight] using this
  refine ⟨ring.avail, fill, ring.behind, pool, ring.len, ?_, ?_, ring.order, ring.begun,
    fun _ => positive, ring.frames, ring.given⟩
  · intro slot
    dsimp only
    by_cases same : slot = dev.io.bufndx
    · rw [same, Function.update_self]
      simp [Inflight]
    · rw [Function.update_of_ne same, ring.buf]
      simp [Inflight, same]
      rfl
  · intro number low high
    have away : slotOf number ≠ dev.io.bufndx := by
      intro same
      exact notFilled ⟨number, low, high, same⟩
    dsimp only
    rw [Function.update_of_ne away]
    exact ring.blocks number low high

/-- The block has been read once its length is in the slot. -/
theorem Ring.posted (ring : Ring dev) (posting : dev.io.pc = .posting) :
    Ring { dev with
      stat := { dev.stat with len := Function.update dev.stat.len dev.io.bufndx dev.io.iostat }
      read := dev.read ++ (dev.stat.buf dev.io.bufndx).toList
      io := { dev.io with pc := .posted } } ∧
    (dev.read ++ (dev.stat.buf dev.io.bufndx).toList).length = dev.read.length + 1 := by
  have flies : Inflight dev.io dev.io.bufndx := ⟨Or.inr posting, rfl⟩
  have notFilled := ring.inflight_not_filled flies
  have pool := ring.pool
  rw [posting] at pool
  have fill : dev.io.bufndx = slotOf dev.read.length := by
    have := ring.fill
    unfold fillIndex at this
    simpa only [posting] using this
  obtain ⟨block, isBlock⟩ := Option.isSome_iff_exists.mp ((ring.buf _).mpr (Or.inr flies))
  have length : (dev.read ++ [block]).length = dev.read.length + 1 := by simp
  rw [isBlock, Option.toList_some]
  refine ⟨?_, length⟩
  have behind := ring.behind
  have held : IoreadPc.posting.held = 1 := rfl
  have heldPosted : IoreadPc.posted.held = 0 := rfl
  have filled : ∀ slot, Filled { dev with read := dev.read ++ [block] } slot ↔
      Filled dev slot ∨ slot = dev.io.bufndx := by
    intro slot
    rw [fill]
    unfold Filled
    dsimp only
    rw [length]
    constructor
    · rintro ⟨number, low, high, isSlot⟩
      by_cases last : number = dev.read.length
      · rw [last] at isSlot
        exact Or.inr isSlot.symm
      · exact Or.inl ⟨number, low, by omega, isSlot⟩
    · rintro (⟨number, low, high, isSlot⟩ | isLast)
      · exact ⟨number, low, by omega, isSlot⟩
      · exact ⟨dev.read.length, behind, by omega, isLast.symm⟩
  refine ⟨ring.avail, ?_, ?_, ?_, ?_, ?_, ?_, ?_, ?_, ?_, ring.frames, ring.given⟩
  · unfold fillIndex
    dsimp only
    rw [length, ← nextIndex_slotOf, fill]
  · dsimp only
    rw [length]
    omega
  · dsimp only
    rw [length, heldPosted]
    omega
  · intro slot
    refine Iff.trans ?_ (filled slot).symm
    dsimp only
    by_cases same : slot = dev.io.bufndx
    · have positive := ring.iostat posting
      rw [same, Function.update_self]
      simp only [or_true, iff_true]
      omega
    · rw [Function.update_of_ne same, ring.len]
      simp [same]
  · intro slot
    refine Iff.trans ?_ (or_congr (filled slot).symm Iff.rfl)
    rw [ring.buf]
    simp [Inflight, posting]
  · intro number low high
    dsimp only at low high ⊢
    rw [length] at high
    by_cases last : number = dev.read.length
    · rw [last, ← fill, isBlock]
      simp
    · rw [ring.blocks number low (by omega), List.getElem?_append_left (by omega)]
  · dsimp only
    exact ring.order.trans (List.prefix_append _ _)
  · intro begun
    dsimp only
    rw [length]
    exact Nat.lt_succ_of_lt (ring.begun begun)
  · intro isPosting
    cases isPosting

end Ring

end MvsXinu.CtcRead
