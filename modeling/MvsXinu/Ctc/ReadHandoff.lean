import MvsXinu.Ctc.ReadRing

/-!
# From the channel to the readers

A reader that finds no block publishes its pid. That works out as long as it is the only one
on its way through that part of `ctci_read`, and as long as `ctci_ioread` resumes it when it
is suspended and has a block to find.
-/

namespace MvsXinu.CtcRead

open MvsXinu.Octets MvsXinu.Ctc MvsXinu.Mutex MvsXinu.Runs

set_option autoImplicit false

structure HandedOff (dev : ReadDevice) : Prop where
  /-- The blocks are used up in the order they were read. -/
  order : dev.used <+: dev.read
  frames : dev.given.Pairwise (· ≤ ·)
  /-- The filled slots lie from `avail` to the one that is filled next. -/
  avail : dev.stat.avail = slotOf dev.used.length
  fill : fillIndex dev = slotOf dev.read.length
  filled : ∀ slot, dev.stat.len slot ≠ 0 ↔ Filled dev slot
  room : dev.read.length ≤ dev.used.length + ctcReadbufs
  sound : dev.panicked = false
  /-- A reader is suspended next to a filled slot only while `ctci_ioread` is about to
  resume it. -/
  wakes : ∀ pid, (dev.readers pid).pc = .suspended → dev.stat.len dev.stat.avail ≠ 0 →
    dev.io.pc = .posted ∧ dev.userpid = some pid
  released : ∀ pid, (dev.readers pid).pc = .outside → dev.sem.owner ≠ some (.reader pid)

/-- Between the publication of its pid and the block that it then takes. -/
def ReaderPc.Slow (pc : ReaderPc) : Prop :=
  pc = .published ∨ pc = .suspended ∨ pc = .woken ∨ pc = .back

instance (pc : ReaderPc) : Decidable pc.Slow := inferInstanceAs (Decidable (_ ∨ _))

/-- A caller's buffer does not end with the header; a reader gets the device while no other
one is between its publication and its block; and `ctci_ioread` comes to its `resume` when
the reader that has published its pid is suspended and there is a block. -/
def Careful (dev : ReadDevice) : ReadEvent → Prop
  | .call _ room => room ≠ epHlen
  | .reader pid => (dev.readers pid).pc = .entry → ∀ other, ¬ (dev.readers other).pc.Slow
  | .ioread => dev.io.pc = .posted → ∀ pid, dev.userpid = some pid →
      (dev.readers pid).pc ≠ .published ∧ dev.stat.len dev.stat.avail ≠ 0
  | .complete _ _ => True

/-! ## The processes -/

structure Crowd (dev : ReadDevice) : Prop where
  orderly : dev.sem.Orderly
  ioread : dev.sem.Involves .ioread ↔ dev.io.pc.Queued
  readers : ∀ pid, dev.sem.Involves (.reader pid) ↔ (dev.readers pid).pc.Queued
  freeing : ∀ pid, (dev.readers pid).pc = .freeing → dev.sem.owner = some (.reader pid)
  lengths : ∀ pid, (dev.readers pid).pc = .entry → (dev.readers pid).len ≠ 0

/-- `userpid` is the pid of the one reader that has published it and not run since. -/
structure Slowly (dev : ReadDevice) : Prop where
  userpid : ∀ pid, dev.userpid = some pid ↔ (dev.readers pid).pc = .published ∨
    (dev.readers pid).pc = .suspended ∨ (dev.readers pid).pc = .woken
  alone : ∀ pid other, (dev.readers pid).pc.Slow → (dev.readers other).pc.Slow → pid = other
  block : ∀ pid, (dev.readers pid).pc = .woken ∨ (dev.readers pid).pc = .back →
    dev.used.length < dev.read.length
  wakes : ∀ pid, (dev.readers pid).pc = .published ∨ (dev.readers pid).pc = .suspended →
    dev.used.length < dev.read.length → dev.io.pc = .posted

structure Sound (dev : ReadDevice) : Prop where
  ring : Ring dev
  crowd : Crowd dev
  slowly : Slowly dev
  sound : dev.panicked = false

theorem Sound.handedOff {dev : ReadDevice} (sound : Sound dev) : HandedOff dev := by
  obtain ⟨ring, crowd, slowly, noPanic⟩ := sound
  refine ⟨ring.order, ring.frames, ring.avail, ring.fill, ring.len, ring.room, noPanic, ?_, ?_⟩
  · intro pid suspended filled
    rw [ring.len, ring.avail_filled] at filled
    exact ⟨slowly.wakes pid (Or.inr suspended) filled,
      (slowly.userpid pid).mpr (Or.inr (Or.inl suspended))⟩
  · intro pid outside owned
    rcases (crowd.readers pid).mp (Or.inl owned) with entry | back | freeing
    · rw [outside] at entry
      cases entry
    · rw [outside] at back
      cases back
    · rw [outside] at freeing
      cases freeing

section Crowd

variable {dev later : ReadDevice} {pid : Nat}

@[simp] theorem setPc_self (dev : ReadDevice) (pid : Nat) (pc : ReaderPc) :
    ((dev.setPc pid pc).readers pid).pc = pc := by
  simp [ReadDevice.setPc]

/-- A reader gives up the device. -/
theorem Crowd.leave (crowd : Crowd dev) (owned : dev.sem.owner = some (.reader pid))
    {reader : Reader} (gone : ¬ reader.pc.Queued)
    (readers : later.readers = Function.update dev.readers pid reader)
    (sem : later.sem = dev.sem.signal) (io : later.io = dev.io) : Crowd later := by
  have involves := signal_involves crowd.orderly owned
  constructor
  · rw [sem]
    exact signal_orderly crowd.orderly
  · rw [sem, involves, io, ← crowd.ioread]
    simp
  · intro other
    rw [sem, involves, readers]
    by_cases same : other = pid
    · rw [same, Function.update_self]
      simp [gone]
    · rw [Function.update_of_ne same, crowd.readers]
      simp [same]
  · intro other freeing
    rw [readers] at freeing
    by_cases same : other = pid
    · rw [same, Function.update_self] at freeing
      exact absurd (Or.inr (Or.inr freeing)) gone
    · rw [Function.update_of_ne same] at freeing
      rw [crowd.freeing other freeing] at owned
      exact absurd (Party.reader.inj (Option.some.inj owned)) same
  · intro other entry
    rw [readers] at entry ⊢
    by_cases same : other = pid
    · rw [same, Function.update_self] at entry
      exact absurd (Or.inl entry) gone
    · rw [Function.update_of_ne same] at entry ⊢
      exact crowd.lengths other entry

/-- A reader calls `wait` on the device. -/
theorem Crowd.enter (crowd : Crowd dev) (absent : ¬ (dev.readers pid).pc.Queued)
    {reader : Reader} (comes : reader.pc = .entry ∧ reader.len ≠ 0 ∨ reader.pc = .back)
    (readers : later.readers = Function.update dev.readers pid reader)
    (sem : later.sem = dev.sem.wait (.reader pid)) (io : later.io = dev.io) : Crowd later := by
  have notInvolved : ¬ dev.sem.Involves (.reader pid) := by
    rw [crowd.readers]
    exact absent
  have involves := wait_involves crowd.orderly (.reader pid)
  have queued : reader.pc.Queued := comes.elim (fun entry => Or.inl entry.1) (fun back =>
    Or.inr (Or.inl back))
  constructor
  · rw [sem]
    exact wait_orderly crowd.orderly notInvolved
  · rw [sem, involves, io, crowd.ioread]
    simp
  · intro other
    rw [sem, involves, readers]
    by_cases same : other = pid
    · rw [same, Function.update_self]
      simp [queued]
    · rw [Function.update_of_ne same, crowd.readers]
      simp [same]
  · intro other freeing
    rw [readers] at freeing
    by_cases same : other = pid
    · rw [same, Function.update_self] at freeing
      rcases comes with entry | back
      · rw [entry.1] at freeing
        cases freeing
      · rw [back] at freeing
        cases freeing
    · rw [Function.update_of_ne same] at freeing
      have owned := crowd.freeing other freeing
      rw [sem]
      unfold Mutex.wait
      rw [owned]
  · intro other entry
    rw [readers] at entry ⊢
    by_cases same : other = pid
    · rw [same, Function.update_self] at entry ⊢
      rcases comes with isEntry | back
      · exact isEntry.2
      · rw [back] at entry
        cases entry
    · rw [Function.update_of_ne same] at entry ⊢
      exact crowd.lengths other entry

/-- A reader goes on without a call on the semaphore: outside of the device, or to free a
buffer. -/
theorem Crowd.goOn (crowd : Crowd dev) {reader : Reader}
    (same : (dev.readers pid).pc.Queued ↔ reader.pc.Queued) (notEntry : reader.pc ≠ .entry)
    (owned : reader.pc = .freeing → dev.sem.owner = some (.reader pid))
    (readers : later.readers = Function.update dev.readers pid reader)
    (sem : later.sem = dev.sem) (io : later.io = dev.io) : Crowd later := by
  constructor
  · rw [sem]
    exact crowd.orderly
  · rw [sem, io]
    exact crowd.ioread
  · intro other
    rw [sem, readers, crowd.readers]
    by_cases isPid : other = pid
    · rw [isPid, Function.update_self]
      exact same
    · rw [Function.update_of_ne isPid]
  · intro other freeing
    rw [readers] at freeing
    rw [sem]
    by_cases isPid : other = pid
    · rw [isPid, Function.update_self] at freeing
      rw [isPid]
      exact owned freeing
    · rw [Function.update_of_ne isPid] at freeing
      exact crowd.freeing other freeing
  · intro other entry
    rw [readers] at entry ⊢
    by_cases isPid : other = pid
    · rw [isPid, Function.update_self] at entry
      exact absurd entry notEntry
    · rw [Function.update_of_ne isPid] at entry ⊢
      exact crowd.lengths other entry

/-- `ctci_ioread` calls `wait`. -/
theorem Crowd.ioreadWaits (crowd : Crowd dev) (absent : ¬ dev.io.pc.Queued)
    (comes : later.io.pc.Queued) (readers : later.readers = dev.readers)
    (sem : later.sem = dev.sem.wait .ioread) : Crowd later := by
  have notInvolved : ¬ dev.sem.Involves .ioread := by
    rw [crowd.ioread]
    exact absent
  have involves := wait_involves crowd.orderly .ioread
  refine ⟨?_, ?_, ?_, ?_, ?_⟩
  · rw [sem]
    exact wait_orderly crowd.orderly notInvolved
  · rw [sem, involves]
    simp [comes]
  · intro pid
    rw [sem, involves, readers, crowd.readers]
    simp
  · intro pid freeing
    rw [readers] at freeing
    have owned := crowd.freeing pid freeing
    rw [sem]
    unfold Mutex.wait
    rw [owned]
  · rw [readers]
    exact crowd.lengths

/-- `ctci_ioread` gives up the device. -/
theorem Crowd.ioreadSignals (crowd : Crowd dev) (owned : dev.sem.owner = some .ioread)
    (gone : ¬ later.io.pc.Queued) (readers : later.readers = dev.readers)
    (sem : later.sem = dev.sem.signal) : Crowd later := by
  have involves := signal_involves crowd.orderly owned
  refine ⟨?_, ?_, ?_, ?_, ?_⟩
  · rw [sem]
    exact signal_orderly crowd.orderly
  · rw [sem, involves]
    simp [gone]
  · intro pid
    rw [sem, involves, readers, crowd.readers]
    simp
  · intro pid freeing
    rw [readers] at freeing
    rw [crowd.freeing pid freeing] at owned
    cases owned
  · rw [readers]
    exact crowd.lengths

theorem Crowd.ioreadGoesOn (crowd : Crowd dev) (same : dev.io.pc.Queued ↔ later.io.pc.Queued)
    (readers : later.readers = dev.readers) (sem : later.sem = dev.sem) : Crowd later := by
  refine ⟨?_, ?_, ?_, ?_, ?_⟩
  · rw [sem]
    exact crowd.orderly
  · rw [sem, ← same]
    exact crowd.ioread
  · rw [sem, readers]
    exact crowd.readers
  · rw [sem, readers]
    exact crowd.freeing
  · rw [readers]
    exact crowd.lengths

end Crowd

section Slowly

variable {dev later : ReadDevice} {pid : Nat}

/-- Nobody is between a publication and the block. -/
theorem Slowly.nobody (quiet : ∀ pid, ¬ (later.readers pid).pc.Slow) (userpid : later.userpid = none) :
    Slowly later := by
  refine ⟨?_, ?_, ?_, ?_⟩
  · intro pid
    rw [userpid]
    constructor
    · intro published
      cases published
    · rintro (published | suspended | woken)
      · exact absurd (Or.inl published) (quiet pid)
      · exact absurd (Or.inr (Or.inl suspended)) (quiet pid)
      · exact absurd (Or.inr (Or.inr (Or.inl woken))) (quiet pid)
  · intro pid other slow
    exact absurd slow (quiet pid)
  · rintro pid (woken | back)
    · exact absurd (Or.inr (Or.inr (Or.inl woken))) (quiet pid)
    · exact absurd (Or.inr (Or.inr (Or.inr back))) (quiet pid)
  · rintro pid (published | suspended)
    · exact absurd (Or.inl published) (quiet pid)
    · exact absurd (Or.inr (Or.inl suspended)) (quiet pid)

theorem Slowly.userpid_none (slowly : Slowly dev)
    (quiet : ∀ pid, (dev.readers pid).pc ≠ .published ∧ (dev.readers pid).pc ≠ .suspended ∧
      (dev.readers pid).pc ≠ .woken) : dev.userpid = none := by
  cases published : dev.userpid with
  | none => rfl
  | some pid =>
      obtain ⟨notPublished, notSuspended, notWoken⟩ := quiet pid
      rcases (slowly.userpid pid).mp published with isPublished | suspended | woken
      · exact absurd isPublished notPublished
      · exact absurd suspended notSuspended
      · exact absurd woken notWoken

/-- No other reader is on its way, and this one is no longer. -/
theorem Slowly.done (slowly : Slowly dev) {reader : Reader}
    (here : (dev.readers pid).pc = .entry ∨ (dev.readers pid).pc = .back)
    (others : ∀ other, other ≠ pid → ¬ (dev.readers other).pc.Slow)
    (gone : ¬ reader.pc.Slow) (readers : later.readers = Function.update dev.readers pid reader)
    (userpid : later.userpid = dev.userpid) : Slowly later := by
  apply Slowly.nobody
  · intro other
    rw [readers]
    by_cases same : other = pid
    · rw [same, Function.update_self]
      exact gone
    · rw [Function.update_of_ne same]
      exact others other same
  · rw [userpid]
    apply slowly.userpid_none
    intro other
    by_cases same : other = pid
    · rw [same]
      rcases here with entry | back
      · rw [entry]
        decide
      · rw [back]
        decide
    · have notSlow := others other same
      unfold ReaderPc.Slow at notSlow
      tauto

/-- This reader alone is on its way. -/
theorem Slowly.only {reader : Reader} (others : ∀ other, other ≠ pid → ¬ (dev.readers other).pc.Slow)
    (readers : later.readers = Function.update dev.readers pid reader)
    (userpid : ∀ other, later.userpid = some other ↔ other = pid ∧ (reader.pc = .published ∨
      reader.pc = .suspended ∨ reader.pc = .woken))
    (block : reader.pc = .woken ∨ reader.pc = .back → later.used.length < later.read.length)
    (wakes : reader.pc = .published ∨ reader.pc = .suspended →
      later.used.length < later.read.length → later.io.pc = .posted) : Slowly later := by
  have own : later.readers pid = reader := by
    rw [readers, Function.update_self]
  have slow : ∀ other, (later.readers other).pc.Slow → other = pid := by
    intro other isSlow
    by_contra away
    rw [readers, Function.update_of_ne away] at isSlow
    exact others other away isSlow
  refine ⟨?_, ?_, ?_, ?_⟩
  · intro other
    rw [userpid]
    constructor
    · rintro ⟨same, published⟩
      rw [same, own]
      exact published
    · intro published
      have same := slow other (by unfold ReaderPc.Slow; tauto)
      rw [same, own] at published
      exact ⟨same, published⟩
  · intro first second slowFirst slowSecond
    exact (slow first slowFirst).trans (slow second slowSecond).symm
  · intro other present
    have same := slow other (by unfold ReaderPc.Slow; tauto)
    rw [same, own] at present
    exact block present
  · intro other present
    have same := slow other (by unfold ReaderPc.Slow; tauto)
    rw [same, own] at present
    exact wakes present

/-- The others are not on their way if this one is. -/
theorem Slowly.apart (slowly : Slowly dev) (slow : (dev.readers pid).pc.Slow) :
    ∀ other, other ≠ pid → ¬ (dev.readers other).pc.Slow :=
  fun other away isSlow => away (slowly.alone other pid isSlow slow)

/-- A reader that is not on its way does something that keeps it so. -/
theorem Slowly.aside (slowly : Slowly dev) {reader : Reader}
    (before : ¬ (dev.readers pid).pc.Slow) (behind : ¬ reader.pc.Slow)
    (readers : later.readers = Function.update dev.readers pid reader)
    (userpid : later.userpid = dev.userpid) (used : later.used = dev.used)
    (read : later.read = dev.read) (io : later.io = dev.io) : Slowly later := by
  have slow : ∀ other, (later.readers other).pc.Slow → later.readers other = dev.readers other := by
    intro other isSlow
    rw [readers] at isSlow ⊢
    by_cases same : other = pid
    · rw [same, Function.update_self] at isSlow
      exact absurd isSlow behind
    · rw [Function.update_of_ne same]
  have kept : ∀ other, (dev.readers other).pc.Slow → later.readers other = dev.readers other := by
    intro other isSlow
    rw [readers]
    by_cases same : other = pid
    · rw [same] at isSlow
      exact absurd isSlow before
    · rw [Function.update_of_ne same]
  refine ⟨?_, ?_, ?_, ?_⟩
  · intro other
    rw [userpid, slowly.userpid]
    constructor
    · intro published
      rw [kept other (by unfold ReaderPc.Slow; tauto)]
      exact published
    · intro published
      rw [← slow other (by unfold ReaderPc.Slow; tauto)]
      exact published
  · intro first second slowFirst slowSecond
    have sameFirst := slow first slowFirst
    have sameSecond := slow second slowSecond
    rw [sameFirst] at slowFirst
    rw [sameSecond] at slowSecond
    exact slowly.alone first second slowFirst slowSecond
  · intro other present
    have same := slow other (by unfold ReaderPc.Slow; tauto)
    rw [same] at present
    rw [used, read]
    exact slowly.block other present
  · intro other present
    have same := slow other (by unfold ReaderPc.Slow; tauto)
    rw [same] at present
    rw [used, read, io]
    exact slowly.wakes other present

end Slowly

/-! ## The steps -/

section Steps

variable {dev : ReadDevice} {pid : Nat}

theorem deliver_sound (sound : Sound dev) (owned : dev.sem.owner = some (.reader pid))
    (here : (dev.readers pid).pc = .entry ∨ (dev.readers pid).pc = .back)
    (others : ∀ other, other ≠ pid → ¬ (dev.readers other).pc.Slow)
    (left : dev.used.length < dev.read.length) {pbuf : Storage}
    (found : dev.stat.buf dev.stat.avail = some pbuf) (pseg : Int) :
    Sound (deliver dev pid pbuf pseg) := by
  obtain ⟨ring, crowd, slowly, noPanic⟩ := sound
  have queued : (dev.readers pid).pc.Queued := by
    unfold ReaderPc.Queued
    tauto
  have outside : ¬ ReaderPc.outside.Queued := by decide
  have outsideSlow : ¬ ReaderPc.outside.Slow := by decide
  have freeingSlow : ¬ ReaderPc.freeing.Slow := by decide
  unfold deliver
  dsimp only
  split
  · exact ⟨ring.congr rfl rfl rfl rfl rfl, crowd.leave owned outside rfl rfl rfl,
      slowly.done here others outsideSlow rfl rfl, noPanic⟩
  · split
    · rename_i exhausted
      have spec : afterFrame dev.stat pbuf pseg (signedHalfword pbuf pseg) = _ := if_pos exhausted
      rw [spec]
      exact ⟨((ring.frame left none).exhausted found left).congr rfl rfl rfl rfl rfl,
        crowd.goOn ⟨fun _ => Or.inr (Or.inr rfl), fun _ => queued⟩ (fun entry => by cases entry)
          (fun _ => owned) rfl rfl rfl,
        slowly.done here others freeingSlow rfl rfl, noPanic⟩
    · rename_i more
      have spec : afterFrame dev.stat pbuf pseg (signedHalfword pbuf pseg) = _ := if_neg more
      rw [spec]
      exact ⟨(ring.frame left _).congr rfl rfl rfl rfl rfl, crowd.leave owned outside rfl rfl rfl,
        slowly.done here others outsideSlow rfl rfl, noPanic⟩

/-- There is a block in the slot, so its buffer is there. -/
theorem Ring.present (ring : Ring dev) (left : dev.used.length < dev.read.length) :
    ∃ pbuf, dev.stat.buf dev.stat.avail = some pbuf :=
  Option.isSome_iff_exists.mp ((ring.buf _).mpr (Or.inl (ring.avail_filled.mpr left)))

theorem newBuffer_sound (sound : Sound dev) (owned : dev.sem.owner = some (.reader pid))
    (here : (dev.readers pid).pc = .entry ∨ (dev.readers pid).pc = .back)
    (others : ∀ other, other ≠ pid → ¬ (dev.readers other).pc.Slow)
    (left : dev.used.length < dev.read.length) : Sound (newBuffer dev pid) := by
  obtain ⟨pbuf, found⟩ := sound.ring.present left
  unfold newBuffer
  rw [found]
  exact deliver_sound sound owned here others left found _

theorem haveDevice_sound (sound : Sound dev) (owned : dev.sem.owner = some (.reader pid))
    (entry : (dev.readers pid).pc = .entry)
    (others : ∀ other, ¬ (dev.readers other).pc.Slow) : Sound (haveDevice dev pid) := by
  have apart : ∀ other, other ≠ pid → ¬ (dev.readers other).pc.Slow := fun other _ => others other
  unfold haveDevice
  rw [if_neg (sound.crowd.lengths pid entry)]
  cases begun : dev.stat.pseg with
  | some pseg =>
      have left : dev.used.length < dev.read.length := by
        apply sound.ring.begun
        rw [begun]
        exact Option.some_ne_none _
      obtain ⟨pbuf, found⟩ := sound.ring.present left
      rw [found]
      exact deliver_sound sound owned (Or.inl entry) apart left found _
  | none =>
      dsimp only
      split
      · rename_i noBlock
        have notLeft : ¬ dev.used.length < dev.read.length := by
          rw [← sound.ring.avail_filled, ← sound.ring.len, not_not]
          exact noBlock
        obtain ⟨ring, crowd, slowly, noPanic⟩ := sound
        have gone : ¬ ReaderPc.published.Queued := by decide
        refine ⟨ring.congr rfl rfl rfl rfl rfl, crowd.leave owned gone rfl rfl rfl, ?_, noPanic⟩
        apply Slowly.only apart rfl
        · intro other
          simp [ReadDevice.signal, ReadDevice.setPc, eq_comm]
        · rintro (woken | back)
          · cases woken
          · cases back
        · exact fun _ left => absurd left notLeft
      · rename_i block
        have left : dev.used.length < dev.read.length := by
          rw [← sound.ring.avail_filled, ← sound.ring.len]
          exact block
        exact newBuffer_sound sound owned (Or.inl entry) apart left

theorem runReader_sound (sound : Sound dev) (runs : Runs dev (.reader pid))
    (careful : Careful dev (.reader pid)) : Sound (runReader dev pid) := by
  have outside : ¬ ReaderPc.outside.Queued := by decide
  have outsideSlow : ¬ ReaderPc.outside.Slow := by decide
  obtain ⟨notOutside, notSuspended, device⟩ := runs
  unfold runReader
  cases here : (dev.readers pid).pc with
  | entry =>
      exact haveDevice_sound sound (device (Or.inl here)) here (careful here)
  | published =>
      have apart := sound.slowly.apart (Or.inl here)
      obtain ⟨ring, crowd, slowly, noPanic⟩ := sound
      refine ⟨ring.congr rfl rfl rfl rfl rfl, ?_, ?_, noPanic⟩
      · have same : (dev.readers pid).pc.Queued ↔ ReaderPc.suspended.Queued := by
          rw [here]
          decide
        exact crowd.goOn same (fun entry => by cases entry) (fun freeing => by cases freeing) rfl rfl
          rfl
      · apply Slowly.only apart rfl
        · intro other
          have published := (slowly.userpid pid).mpr (Or.inl here)
          simp [ReadDevice.setPc, published, eq_comm]
        · rintro (woken | back)
          · cases woken
          · cases back
        · exact fun _ left => slowly.wakes pid (Or.inl here) left
  | woken =>
      have apart := sound.slowly.apart (Or.inr (Or.inr (Or.inl here)))
      obtain ⟨ring, crowd, slowly, noPanic⟩ := sound
      refine ⟨ring.congr rfl rfl rfl rfl rfl, ?_, ?_, noPanic⟩
      · exact crowd.enter (by rw [here]; decide) (Or.inr rfl) rfl rfl rfl
      · apply Slowly.only apart rfl
        · intro other
          simp [ReadDevice.setPc, ReadDevice.wait]
        · exact fun _ => slowly.block pid (Or.inl here)
        · rintro (published | suspended)
          · cases published
          · cases suspended
  | back =>
      have left := sound.slowly.block pid (Or.inr here)
      have filled : dev.stat.len dev.stat.avail ≠ 0 := by
        rw [sound.ring.len, sound.ring.avail_filled]
        exact left
      dsimp only
      rw [if_neg filled]
      exact newBuffer_sound sound (device (Or.inr (Or.inl here))) (Or.inr here)
        (sound.slowly.apart (Or.inr (Or.inr (Or.inr here)))) left
  | freeing =>
      have owned := device (Or.inr (Or.inr here))
      obtain ⟨ring, crowd, slowly, noPanic⟩ := sound
      exact ⟨ring.congr rfl rfl rfl rfl rfl, crowd.leave owned outside rfl rfl rfl,
        slowly.aside (by rw [here]; decide) outsideSlow rfl rfl rfl rfl rfl, noPanic⟩
  | outside => exact absurd here notOutside
  | suspended => exact absurd here notSuspended

/-- `ctci_ioread` does something that the readers take no notice of. -/
theorem Slowly.ioread {later : ReadDevice} (slowly : Slowly dev)
    (readers : later.readers = dev.readers) (userpid : later.userpid = dev.userpid)
    (used : later.used = dev.used) (more : dev.read.length ≤ later.read.length)
    (wakes : ∀ pid, (dev.readers pid).pc = .published ∨ (dev.readers pid).pc = .suspended →
      later.used.length < later.read.length → later.io.pc = .posted) : Slowly later := by
  refine ⟨?_, ?_, ?_, ?_⟩
  · rw [readers, userpid]
    exact slowly.userpid
  · rw [readers]
    exact slowly.alone
  · intro pid present
    rw [readers] at present
    rw [used]
    exact Nat.lt_of_lt_of_le (slowly.block pid present) more
  · intro pid present
    rw [readers] at present
    exact wakes pid present

/-- While no length is about to be posted, a reader that waits for a block has none. -/
theorem Slowly.wakes_elsewhere (slowly : Slowly dev) (elsewhere : dev.io.pc ≠ .posted)
    (present : (dev.readers pid).pc = .published ∨ (dev.readers pid).pc = .suspended)
    (left : dev.used.length < dev.read.length) : False :=
  elsewhere (slowly.wakes pid present left)

theorem resume_sound (sound : Sound dev)
    (runs : (dev.readers pid).pc = .suspended ∨ (dev.readers pid).pc = .woken)
    (left : dev.used.length < dev.read.length) :
    Sound (resume dev pid) ∧ ((resume dev pid).readers pid).pc = .woken := by
  unfold resume
  rcases runs with suspended | woken
  · rw [if_pos suspended]
    have apart := sound.slowly.apart (Or.inr (Or.inl suspended))
    have same : (dev.readers pid).pc.Queued ↔ ReaderPc.woken.Queued := by
      rw [suspended]
      decide
    obtain ⟨ring, crowd, slowly, noPanic⟩ := sound
    refine ⟨⟨ring.congr rfl rfl rfl rfl rfl, ?_, ?_, noPanic⟩, setPc_self dev pid .woken⟩
    · exact crowd.goOn same (fun entry => by cases entry) (fun freeing => by cases freeing) rfl rfl
        rfl
    · apply Slowly.only apart rfl
      · intro other
        have published := (slowly.userpid pid).mpr (Or.inr (Or.inl suspended))
        simp [ReadDevice.setPc, published, eq_comm]
      · exact fun _ => left
      · rintro (published | isSuspended)
        · cases published
        · cases isSuspended
  · rw [if_neg (by rw [woken]; decide)]
    exact ⟨sound, woken⟩

theorem stepping_sound (sound : Sound dev) (posted : dev.io.pc = .posted)
    (quiet : ∀ pid, ¬ ((dev.readers pid).pc = .published ∨ (dev.readers pid).pc = .suspended)) :
    Sound (dev.setIo .stepping) := by
  obtain ⟨ring, crowd, slowly, noPanic⟩ := sound
  refine ⟨?_, ?_, ?_, noPanic⟩
  · refine (ring.moved { dev.io with pc := .stepping } dev.stat.freebufs ?_ ?_ ?_ ?_).congr rfl rfl
      rfl rfl rfl
    · unfold fillIndex
      rw [posted]
    · rw [posted]
      rfl
    · intro slot
      simp [Inflight, posted]
    · intro posting
      cases posting
  · have same : dev.io.pc.Queued ↔ IoreadPc.stepping.Queued := by
      rw [posted]
      decide
    exact crowd.ioreadGoesOn same rfl rfl
  · refine slowly.ioread rfl rfl rfl (Nat.le_refl _) ?_
    intro pid present
    exact absurd present (quiet pid)

theorem runIoread_sound (sound : Sound dev) (runs : Runs dev .ioread)
    (careful : Careful dev .ioread) : Sound (runIoread dev) := by
  obtain ⟨notInflight, free, device⟩ := runs
  cases here : dev.io.pc with
  | getting =>
      have someFree := free here
      have elsewhere : dev.io.pc ≠ .posted := by
        rw [here]
        decide
      obtain ⟨ring, crowd, slowly, noPanic⟩ := sound
      unfold runIoread
      rw [here]
      refine ⟨?_, ?_, ?_, noPanic⟩
      · refine (ring.moved { dev.io with pc := .hanging } (dev.stat.freebufs - 1) ?_ ?_ ?_ ?_).congr
          rfl rfl rfl rfl rfl
        · unfold fillIndex
          rw [here]
        · rw [here]
          have heldHanging : IoreadPc.hanging.held = 1 := rfl
          have heldGetting : IoreadPc.getting.held = 0 := rfl
          dsimp only
          omega
        · intro slot
          simp [Inflight, here]
        · intro posting
          cases posting
      · exact crowd.ioreadWaits (by rw [here]; decide) (Or.inl rfl) rfl rfl
      · refine slowly.ioread rfl rfl rfl (Nat.le_refl _) ?_
        exact fun pid present left => (slowly.wakes_elsewhere elsewhere present left).elim
  | hanging =>
      have owned := device (Or.inl here)
      have elsewhere : dev.io.pc ≠ .posted := by
        rw [here]
        decide
      obtain ⟨_, _, noBuffer⟩ := sound.ring.next_empty here
      obtain ⟨ring, crowd, slowly, noPanic⟩ := sound
      unfold runIoread
      rw [here]
      dsimp only
      rw [noBuffer, if_neg (by simp)]
      refine ⟨(ring.hung here _).congr rfl rfl rfl rfl rfl, ?_, ?_, noPanic⟩
      · have gone : ¬ IoreadPc.inflight.Queued := by decide
        exact crowd.ioreadSignals owned gone rfl rfl
      · refine slowly.ioread rfl rfl rfl (Nat.le_refl _) ?_
        exact fun pid present left => (slowly.wakes_elsewhere elsewhere present left).elim
  | posting =>
      have owned := device (Or.inr here)
      obtain ⟨ring, crowd, slowly, noPanic⟩ := sound
      obtain ⟨posted, length⟩ := ring.posted here
      unfold runIoread
      rw [here]
      refine ⟨posted.congr rfl rfl rfl rfl rfl, ?_, ?_, noPanic⟩
      · have gone : ¬ IoreadPc.posted.Queued := by decide
        exact crowd.ioreadSignals owned gone rfl rfl
      · refine slowly.ioread rfl rfl rfl ?_ ?_
        · change dev.read.length ≤ (dev.read ++ (dev.stat.buf dev.io.bufndx).toList).length
          omega
        · exact fun _ _ _ => rfl
  | posted =>
      have careful := careful here
      unfold runIoread
      rw [here]
      dsimp only
      cases published : dev.userpid with
      | none =>
          apply stepping_sound sound here
          intro pid present
          have := (sound.slowly.userpid pid).mpr (by tauto)
          rw [published] at this
          cases this
      | some pid =>
          obtain ⟨notPublished, block⟩ := careful pid published
          rw [sound.ring.len, sound.ring.avail_filled] at block
          have there := ((sound.slowly.userpid pid).mp published).resolve_left notPublished
          obtain ⟨resumed, woken⟩ := resume_sound sound there block
          have posted : (resume dev pid).io.pc = .posted := by
            unfold resume
            split
            · exact here
            · exact here
          apply stepping_sound resumed posted
          intro other present
          have same := resumed.slowly.alone other pid (by unfold ReaderPc.Slow; tauto)
            (Or.inr (Or.inr (Or.inl woken)))
          rw [same, woken] at present
          exact absurd present (by decide)
  | stepping =>
      have elsewhere : dev.io.pc ≠ .posted := by
        rw [here]
        decide
      obtain ⟨ring, crowd, slowly, noPanic⟩ := sound
      unfold runIoread
      rw [here]
      refine ⟨?_, ?_, ?_, noPanic⟩
      · refine (ring.moved { dev.io with bufndx := nextIndex dev.io.bufndx, pc := .getting }
          dev.stat.freebufs ?_ ?_ ?_ ?_).congr rfl rfl rfl rfl rfl
        · unfold fillIndex
          rw [here]
        · rw [here]
          rfl
        · intro slot
          simp [Inflight, here]
        · intro posting
          cases posting
      · have same : dev.io.pc.Queued ↔ IoreadPc.getting.Queued := by
          rw [here]
          decide
        exact crowd.ioreadGoesOn same rfl rfl
      · refine slowly.ioread rfl rfl rfl (Nat.le_refl _) ?_
        exact fun pid present left => (slowly.wakes_elsewhere elsewhere present left).elim
  | inflight => exact absurd here notInflight

theorem readStep_sound (sound : Sound dev) (event : ReadEvent) (runs : Runs dev event)
    (careful : Careful dev event) : Sound (readStep dev event) := by
  have goesOn : ¬ dev.panicked = true := by
    rw [sound.sound]
    exact Bool.false_ne_true
  unfold readStep
  rw [if_neg goesOn]
  cases event with
  | call pid room =>
      obtain ⟨outside, small⟩ := runs
      have length : (room + 2 ^ 32 - epHlen) % 2 ^ 32 ≠ 0 := by
        have notHeader : room ≠ 24 := careful
        change (room + 2 ^ 32 - 24) % 2 ^ 32 ≠ 0
        omega
      dsimp only
      generalize (room + 2 ^ 32 - epHlen) % 2 ^ 32 = len at length ⊢
      have comes : (Reader.mk .entry len).pc = .entry ∧ (Reader.mk .entry len).len ≠ 0 :=
        ⟨rfl, length⟩
      have entrySlow : ¬ ReaderPc.entry.Slow := by decide
      obtain ⟨ring, crowd, slowly, noPanic⟩ := sound
      exact ⟨ring.congr rfl rfl rfl rfl rfl,
        crowd.enter (by rw [outside]; decide) (Or.inl comes) rfl rfl rfl,
        slowly.aside (by rw [outside]; decide) entrySlow rfl rfl rfl rfl rfl, noPanic⟩
  | reader pid => exact runReader_sound sound runs careful
  | ioread => exact runIoread_sound sound runs careful
  | complete block iostat =>
      obtain ⟨inflight, positive⟩ := runs
      obtain ⟨ring, crowd, slowly, noPanic⟩ := sound
      have elsewhere : dev.io.pc ≠ .posted := by
        rw [inflight]
        decide
      refine ⟨(ring.completed inflight block positive).congr rfl rfl rfl rfl rfl, ?_, ?_, noPanic⟩
      · exact crowd.ioreadWaits (by rw [inflight]; decide) (Or.inr rfl) rfl rfl
      · refine slowly.ioread rfl rfl rfl (Nat.le_refl _) ?_
        exact fun pid present left => (slowly.wakes_elsewhere elsewhere present left).elim

theorem readStart_sound : Sound readStart := by
  have empty : ∀ slot, ¬ Filled readStart slot := by
    rintro slot ⟨number, _, high, _⟩
    exact absurd high (Nat.not_lt_zero _)
  refine ⟨⟨rfl, rfl, Nat.le_refl _, rfl, ?_, ?_, ?_, List.prefix_refl _, ?_, ?_, List.Pairwise.nil, ?_⟩,
    ⟨unowned_orderly, ?_, ?_, ?_, ?_⟩, ?_, rfl⟩
  · intro slot
    exact ⟨fun filled => absurd rfl filled, fun filled => absurd filled (empty slot)⟩
  · intro slot
    constructor
    · intro present
      cases present
    · rintro (filled | ⟨inflight | posting, _⟩)
      · exact absurd filled (empty slot)
      · cases inflight
      · cases posting
  · intro number _ high
    exact absurd high (Nat.not_lt_zero _)
  · intro begun
    exact absurd rfl begun
  · intro posting
    cases posting
  · intro number member
    cases member
  · constructor
    · intro involved
      exact absurd involved unowned_involves
    · rintro (hanging | posting)
      · cases hanging
      · cases posting
  · intro pid
    constructor
    · intro involved
      exact absurd involved unowned_involves
    · rintro (entry | back | freeing)
      · cases entry
      · cases back
      · cases freeing
  · intro pid freeing
    cases freeing
  · intro pid entry
    cases entry
  · apply Slowly.nobody
    · rintro pid (published | suspended | woken | back)
      · cases published
      · cases suspended
      · cases woken
      · cases back
    · rfl

end Steps

/-- In every run whose steps are careful the blocks go from the channel to the readers in
order. -/
theorem blocks_handed_off_along_run (dev : ReadDevice)
    (reached : Reach readStep (fun before event => Runs before event ∧ Careful before event)
      readStart dev) : HandedOff dev := by
  have sound : Sound dev := by
    apply reached.invariant
    · exact readStart_sound
    · intro before event kept permitted
      exact readStep_sound kept event permitted.1 permitted.2
  exact sound.handedOff

/-- A block with one segment, of a header only. -/
def emptyFrame : Storage := fun address => if address = 1 then 8 else if address = 3 then 6 else 0

/-- A block is read, posted and taken by a reader. -/
def oneBlock : List ReadEvent :=
  [.ioread, .ioread, .complete emptyFrame 10, .ioread, .ioread, .call 5 1524, .reader 5]

theorem one_block_handed_off :
    Permitted readStep (fun before event => Runs before event ∧ Careful before event) readStart
        oneBlock ∧
      HandedOff (oneBlock.foldl readStep readStart) := by
  have idle : ∀ other, other ≠ 5 →
      ((oneBlock.take 6).foldl readStep readStart).readers other = ⟨.outside, 0⟩ :=
    fun other away => Function.update_of_ne away _ _
  have permitted : Permitted readStep (fun before event => Runs before event ∧ Careful before event)
      readStart oneBlock := by
    refine ⟨⟨by decide +kernel, ?_⟩, ⟨by decide +kernel, ?_⟩, ⟨by decide +kernel, trivial⟩,
      ⟨by decide +kernel, ?_⟩, ⟨by decide +kernel, ?_⟩, ⟨by decide +kernel, ?_⟩,
      ⟨by decide +kernel, ?_⟩, trivial⟩
    · intro posted
      cases posted
    · intro posted
      cases posted
    · intro posted
      cases posted
    · intro _ pid published
      cases published
    · change 1524 ≠ epHlen
      decide
    · intro _ other
      by_cases same : other = 5
      · rw [same]
        decide +kernel
      · have outside := idle other same
        change ¬ (((oneBlock.take 6).foldl readStep readStart).readers other).pc.Slow
        rw [outside]
        decide
  exact ⟨permitted, blocks_handed_off_along_run _ (reach_of_permitted _ .start permitted)⟩

/-- Two readers publish their pids one after the other; the first block goes to the second of
them, and the second block finds no pid. -/
def twoReaders : List ReadEvent :=
  [.ioread, .ioread, .call 5 1524, .reader 5, .reader 5, .call 6 1524, .reader 6, .reader 6,
    .complete emptyFrame 10, .ioread, .ioread, .reader 6, .reader 6, .reader 6, .ioread, .ioread,
    .ioread, .complete emptyFrame 10, .ioread, .ioread]

theorem first_reader_left_suspended :
    Permitted readStep Runs readStart twoReaders ∧
      ¬ HandedOff (twoReaders.foldl readStep readStart) := by
  refine ⟨by decide +kernel, ?_⟩
  intro handed
  have wakes := handed.wakes 5 (by decide +kernel) (by decide +kernel)
  exact absurd wakes.1 (by decide +kernel)

end MvsXinu.CtcRead
