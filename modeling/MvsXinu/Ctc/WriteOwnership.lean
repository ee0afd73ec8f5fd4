import MvsXinu.Ctc.WriteQueue

/-!
# Ownership of the write buffers

`ctwfresh` gives the device up while `fillbuf` still has its old value. A run keeps
every buffer in one place exactly if no frame finds its block full and every `ctwfresh`
comes back to an empty `fillbuf`.
-/

namespace MvsXinu.Ctc

open MvsXinu.Custody MvsXinu.Runs

set_option autoImplicit false

def WriterPc.held : WriterPc → Option Nat
  | .holding _ pcih => some pcih
  | _ => none

/-- The buffers of the processes that have just obtained one. -/
def heldBuffers (writers : List Writer) : List Nat :=
  writers.filterMap fun writer => writer.pc.held

/-- The pool, `fillbuf`, `filled[]`, the processes in `ctci_write`, and the buffer in
flight. -/
def places (dev : WriteDevice) : List Nat :=
  dev.bpnext ++ (dev.stat.fillbuf.toList ++ dev.stat.filled ++ heldBuffers dev.writers) ++
    dev.io.pbuf.toList

/-- Every buffer of the pool is in one place, and nothing was done to it out of turn:
it was obtained, filled, sent once and freed, and only then obtained again. -/
structure Accounted (dev : WriteDevice) : Prop where
  placed : (places dev).Perm (List.range ctcWritebufs)
  turns : ∀ buffer < ctcWritebufs, life buffer dev.log ≠ none

/-- The step does not take the branch for a full block, and does not come back from
`ctwfresh` to a block that another process has put into `fillbuf`. -/
def Careful (dev : WriteDevice) : WriteEvent → Prop
  | .writer pid => ∀ writer, dev.writers[pid]? = some writer → writer.ready = true →
      match writer.pc with
      | .entry => ∀ pcih, dev.stat.fillbuf = some pcih → roomFor dev pcih writer.iplen
      | .holding first pcih =>
          dev.stat.fillbuf = none ∧ (first = true → roomFor dev pcih writer.iplen)
      | _ => True
  | _ => True

def holdings (dev : WriteDevice) : Holdings Nat where
  stock
    | .free => dev.bpnext
    | .filling => dev.stat.fillbuf.toList ++ dev.stat.filled ++ heldBuffers dev.writers
    | .flying => dev.io.pbuf.toList
  log := dev.log

/-! ## What the kernel calls leave alone -/

theorem heldBuffers_modify (writers : List Writer) (pid : Nat) (change : Writer → Writer)
    (writer : Writer) (running : writers[pid]? = some writer) (buffer : Nat) :
    (heldBuffers (writers.modify pid change)).count buffer + writer.pc.held.toList.count buffer =
      (heldBuffers writers).count buffer + (change writer).pc.held.toList.count buffer := by
  unfold heldBuffers
  induction writers generalizing pid with
  | nil => simp at running
  | cons head rest ih =>
      cases pid with
      | zero =>
          have same : head = writer := by simpa using running
          subst same
          rw [List.modify_zero_cons, List.filterMap_cons, List.filterMap_cons]
          cases (change head).pc.held <;> cases head.pc.held <;> (simp [List.count_cons]; try omega)
      | succ pid =>
          have tail := ih pid (by simpa using running)
          rw [List.modify_succ_cons, List.filterMap_cons, List.filterMap_cons]
          cases head.pc.held
          · exact tail
          · simp only [List.count_cons]
            omega

theorem heldBuffers_modify_same (writers : List Writer) (pid : Nat) (change : Writer → Writer)
    (same : ∀ writer, (change writer).pc = writer.pc) :
    heldBuffers (writers.modify pid change) = heldBuffers writers := by
  unfold heldBuffers
  induction writers generalizing pid with
  | nil => simp
  | cons head rest ih =>
      cases pid with
      | zero => rw [List.modify_zero_cons, List.filterMap_cons, List.filterMap_cons, same]
      | succ pid => rw [List.modify_succ_cons, List.filterMap_cons, List.filterMap_cons, ih]

/-- What `signal` and `ready` do not change. -/
structure SameBooks (before after : WriteDevice) : Prop where
  stat : after.stat = before.stat
  bpnext : after.bpnext = before.bpnext
  held : heldBuffers after.writers = heldBuffers before.writers
  io : after.io.pc = before.io.pc ∧ after.io.pbuf = before.io.pbuf ∧
    after.io.retry = before.io.retry
  log : after.log = before.log

theorem makeReady_books (dev : WriteDevice) (process : Process) :
    SameBooks dev (dev.makeReady process) := by
  cases process with
  | iowrite => exact ⟨rfl, rfl, rfl, ⟨rfl, rfl, rfl⟩, rfl⟩
  | writer pid =>
      refine ⟨rfl, rfl, ?_, ⟨rfl, rfl, rfl⟩, rfl⟩
      exact heldBuffers_modify_same dev.writers pid _ fun _ => rfl

theorem wake_books (dev : WriteDevice) (woken : Option Process) :
    SameBooks dev (dev.wake woken) := by
  cases woken with
  | none => exact ⟨rfl, rfl, rfl, ⟨rfl, rfl, rfl⟩, rfl⟩
  | some process => exact makeReady_books dev process

theorem signalDevice_books (dev : WriteDevice) : SameBooks dev dev.signalDevice := by
  have books := wake_books { dev with sem := dev.sem.signal.1 } dev.sem.signal.2
  exact ⟨books.stat, books.bpnext, books.held, books.io, books.log⟩

theorem signalPool_books (dev : WriteDevice) : SameBooks dev dev.signalPool := by
  have books := wake_books { dev with bpsem := dev.bpsem.signal.1 } dev.bpsem.signal.2
  exact ⟨books.stat, books.bpnext, books.held, books.io, books.log⟩

theorem SameBooks.trans {first second third : WriteDevice} (left : SameBooks first second)
    (right : SameBooks second third) : SameBooks first third :=
  ⟨right.stat.trans left.stat, right.bpnext.trans left.bpnext, right.held.trans left.held,
    ⟨right.io.1.trans left.io.1, right.io.2.1.trans left.io.2.1, right.io.2.2.trans left.io.2.2⟩,
    right.log.trans left.log⟩

theorem SameBooks.holdings_eq {before after : WriteDevice} (books : SameBooks before after) :
    holdings after = holdings before := by
  unfold holdings
  rw [books.stat, books.bpnext, books.held, books.io.2.1, books.log]

/-! ## The steps of `ctci_write` -/

theorem setWriter_counted (dev : WriteDevice) (pid : Nat) (pc : WriterPc) (ready : Bool)
    (writer : Writer) (running : dev.writers[pid]? = some writer) (buffer : Nat) :
    (heldBuffers (dev.setWriter pid pc ready).writers).count buffer +
        writer.pc.held.toList.count buffer =
      (heldBuffers dev.writers).count buffer + pc.held.toList.count buffer :=
  heldBuffers_modify dev.writers pid _ writer running buffer

theorem setWriter_rearranged (dev : WriteDevice) (pid : Nat) (pc : WriterPc) (ready : Bool)
    (writer : Writer) (running : dev.writers[pid]? = some writer)
    (before : writer.pc.held = none) (after : pc.held = none) :
    Rearranged (holdings dev) (holdings (dev.setWriter pid pc ready)) := by
  constructor
  · intro stage
    cases stage with
    | free => exact List.Perm.refl _
    | filling =>
        apply List.Perm.append_left
        rw [List.perm_iff_count]
        intro buffer
        have counted := setWriter_counted dev pid pc ready writer running buffer
        simpa [before, after] using counted
    | flying => exact List.Perm.refl _
  · rfl

theorem enterFresh_holdings (dev : WriteDevice) (pid : Nat) (first : Bool) :
    holdings (enterFresh dev pid first) = holdings (dev.setWriter pid (.fresh first) true) :=
  (signalDevice_books _).holdings_eq

theorem finishWrite_holdings (dev : WriteDevice) (pid iplen pcih pseg : Nat) :
    holdings (finishWrite dev pid iplen pcih pseg) =
      { holdings (dev.setWriter pid .returned true) with log := dev.log ++ [⟨.fill, pcih⟩] } := by
  simp only [finishWrite]
  rw [(signalDevice_books _).holdings_eq]
  split <;> rfl

/-- A segment in a block that is being filled. -/
theorem finishWrite_moved (before : Holdings Nat) (dev : WriteDevice)
    (pid iplen pcih pseg : Nat)
    (rearranged : Rearranged before (holdings (dev.setWriter pid .returned true)))
    (present : pcih ∈ before.stock .filling) :
    Moved before (holdings (finishWrite dev pid iplen pcih pseg)) ⟨.fill, pcih⟩
      .filling .filling := by
  rw [finishWrite_holdings]
  refine ⟨rfl, present, ?_, ?_⟩
  · intro stage buffer
    rw [(rearranged.counted stage).count_eq buffer]
  · exact congrArg (· ++ [_]) rearranged.logged

/-- The new block becomes `fillbuf`, which was empty. -/
theorem installed_rearranged (dev : WriteDevice) (pid pcih : Nat) (writer : Writer)
    (running : dev.writers[pid]? = some writer) (held : writer.pc.held = some pcih)
    (empty : dev.stat.fillbuf = none) :
    Rearranged (holdings dev)
      (holdings (({ dev with stat := { dev.stat with fillbuf := some pcih } }).setWriter pid
        .returned true)) := by
  constructor
  · intro stage
    cases stage with
    | free => exact List.Perm.refl _
    | filling =>
        rw [List.perm_iff_count]
        intro buffer
        have moved := setWriter_counted dev pid .returned true writer running buffer
        rw [held] at moved
        simp only [holdings, List.count_append, empty, Option.toList_some,
          Option.toList_none, List.count_nil, WriterPc.held, WriteDevice.setWriter] at moved ⊢
        omega
    | flying => exact List.Perm.refl _
  · rfl

theorem held_present (dev : WriteDevice) (pid pcih : Nat) (writer : Writer)
    (running : dev.writers[pid]? = some writer) (held : writer.pc.held = some pcih) :
    pcih ∈ heldBuffers dev.writers :=
  List.mem_filterMap.mpr ⟨writer, List.mem_of_getElem? running, held⟩

/-- The rest of `getbuf` and of `ctwfresh` up to its `wait`. -/
theorem getting_moved (dev : WriteDevice) (pid pcih : Nat) (rest : List Nat) (first : Bool)
    (writer : Writer) (running : dev.writers[pid]? = some writer)
    (waiting : writer.pc = .getting first) (free : dev.bpnext = pcih :: rest) :
    Moved (holdings dev) (holdings (runWriter dev pid writer)) ⟨.get, pcih⟩ .free .filling := by
  have counted := setWriter_counted dev pid (.holding first pcih)
    (dev.sem.wait (.writer pid)).2 writer running
  simp only [runWriter, waiting, free]
  refine ⟨rfl, ?_, ?_, rfl⟩
  · simp [holdings, free]
  · intro stage buffer
    cases stage with
    | free =>
        simp only [holdings, WriteDevice.setWriter, free, List.count_cons, beq_iff_eq, true_and,
          reduceCtorEq, false_and, if_false, Nat.add_zero]
        split <;> split <;> omega
    | filling =>
        have moved := counted buffer
        simp only [waiting, WriterPc.held, Option.toList_none, List.count_nil,
          Option.toList_some, List.count_singleton, WriteDevice.setWriter, beq_iff_eq] at moved
        simp only [holdings, WriteDevice.setWriter, WriteDevice.record, List.count_append,
          true_and, reduceCtorEq, false_and, if_false, Nat.add_zero]
        split at moved <;> split <;> omega
    | flying => rfl

theorem distinct_pool : (List.range ctcWritebufs).Nodup := List.nodup_range

theorem runWriter_sound (dev : WriteDevice) (pid : Nat) (writer : Writer)
    (running : dev.writers[pid]? = some writer) (ready : writer.ready = true)
    (sound : Sound (List.range ctcWritebufs) (holdings dev))
    (careful : Careful dev (.writer pid)) :
    Sound (List.range ctcWritebufs) (holdings (runWriter dev pid writer)) := by
  have allowed := careful writer running ready
  cases pc : writer.pc with
  | entry =>
      have none : writer.pc.held = none := by rw [pc]; rfl
      rw [pc] at allowed
      cases block : dev.stat.fillbuf with
      | none =>
          simp only [runWriter, pc, block]
          rw [enterFresh_holdings]
          exact sound.rearranged (setWriter_rearranged dev pid _ _ writer running none rfl)
      | some pcih =>
          simp only [runWriter, pc, block, useBlock]
          rw [if_pos (allowed pcih block)]
          have rearranged := setWriter_rearranged dev pid .returned true writer running none rfl
          exact sound.moved distinct_pool
            (finishWrite_moved _ dev pid _ pcih _ rearranged (by simp [holdings, block]))
  | fresh first =>
      have none : writer.pc.held = none := by rw [pc]; rfl
      simp only [runWriter, pc]
      exact sound.rearranged (setWriter_rearranged dev pid (.getting first)
        (dev.bpsem.wait (.writer pid)).2 writer running none rfl)
  | getting first =>
      cases free : dev.bpnext with
      | nil =>
          simp only [runWriter, pc, free]
          exact sound
      | cons pcih rest =>
          exact sound.moved distinct_pool
            (getting_moved dev pid pcih rest first writer running pc free)
  | holding first pcih =>
      have held : writer.pc.held = some pcih := by rw [pc]; rfl
      rw [pc] at allowed
      obtain ⟨empty, room⟩ := allowed
      have installed := installed_rearranged dev pid pcih writer running held empty
      have present : pcih ∈ (holdings dev).stock .filling := by
        simp [holdings, held_present dev pid pcih writer running held]
      have filled := fun pseg =>
        sound.moved distinct_pool (finishWrite_moved _ _ pid writer.iplen pcih pseg installed present)
      simp only [runWriter, pc]
      split
      · next isFirst =>
          have room' : roomFor { dev with stat := { dev.stat with fillbuf := some pcih } } pcih
              writer.iplen := room isFirst
          rw [useBlock, if_pos room']
          exact filled _
      · split
        · rw [(signalDevice_books _).holdings_eq]
          exact sound.rearranged installed
        · exact filled _
  | returned =>
      simp only [runWriter, pc]
      exact sound

/-! ## The steps of `ctci_iowrite` -/

/-- Between two steps `ctci_iowrite` has a buffer while the buffer is in flight, and a
write that fails is not tried again. -/
structure IowriteShape (io : Iowrite) : Prop where
  flight : io.pbuf.isSome = true ↔ io.pc = .inflight ∨ io.pc = .posting
  retry : io.retry = ctcRetry

theorem idle_of_shape {io : Iowrite} (shape : IowriteShape io) (notInflight : io.pc ≠ .inflight)
    (notPosting : io.pc ≠ .posting) : io.pbuf = none := by
  cases buffer : io.pbuf with
  | none => rfl
  | some pbuf =>
      have flying := shape.flight.mp (by rw [buffer]; rfl)
      rcases flying with inflight | posting
      · exact absurd inflight notInflight
      · exact absurd posting notPosting

theorem writeOrSleep_shape (dev : WriteDevice) (retry : dev.io.retry = ctcRetry) :
    IowriteShape (writeOrSleep dev).io := by
  unfold writeOrSleep
  cases buffer : dev.io.pbuf with
  | none =>
      have books := signalDevice_books { dev with pidsleep := true }
      constructor
      · have pbuf := books.io.2.1
        simp [WriteDevice.setIowrite, pbuf, buffer]
      · exact books.io.2.2.trans retry
  | some pbuf =>
      have books := signalDevice_books (dev.record .send pbuf)
      constructor
      · have kept : (dev.record .send pbuf).signalDevice.io.pbuf = some pbuf :=
          books.io.2.1.trans buffer
        simp [WriteDevice.setIowrite, kept]
      · exact books.io.2.2.trans retry

theorem writeOrSleep_holdings (dev : WriteDevice) :
    holdings (writeOrSleep dev) =
      match dev.io.pbuf with
      | none => holdings dev
      | some pbuf => { holdings dev with log := dev.log ++ [⟨.send, pbuf⟩] } := by
  unfold writeOrSleep
  cases buffer : dev.io.pbuf with
  | none =>
      have books := signalDevice_books { dev with pidsleep := true }
      exact books.holdings_eq
  | some pbuf =>
      have books := signalDevice_books (dev.record .send pbuf)
      exact books.holdings_eq

/-- The search takes nothing, or the first queued block, or `fillbuf`. -/
theorem findBuffer_cases (dev : WriteDevice) (idle : dev.io.pbuf = none) :
    ((findBuffer dev).io.pbuf = none ∧ holdings (findBuffer dev) = holdings dev) ∨
      ∃ pbuf, (findBuffer dev).io.pbuf = some pbuf ∧ (findBuffer dev).bpnext = dev.bpnext ∧
        ((holdings dev).stock .filling).Perm
          (pbuf :: (holdings (findBuffer dev)).stock .filling) ∧
        (findBuffer dev).log = dev.log := by
  cases filled : dev.stat.filled with
  | nil =>
      simp only [findBuffer, idle, filled, List.head?_nil, Option.or_none]
      cases block : dev.stat.fillbuf with
      | none =>
          refine Or.inl ⟨rfl, ?_⟩
          simp only [holdings, idle, filled, block]
      | some pbuf =>
          refine Or.inr ⟨pbuf, rfl, trivial, ?_, trivial⟩
          simp [holdings, block, filled]
  | cons pbuf rest =>
      simp only [findBuffer, idle, filled, List.head?_cons, Option.none_or, List.tail_cons]
      refine Or.inr ⟨pbuf, rfl, trivial, ?_, trivial⟩
      simp only [holdings, filled, List.append_assoc, List.cons_append]
      exact List.perm_middle

theorem search_sound (dev : WriteDevice) (idle : dev.io.pbuf = none)
    (sound : Sound (List.range ctcWritebufs) (holdings dev)) :
    Sound (List.range ctcWritebufs) (holdings (search dev)) := by
  unfold search
  rw [writeOrSleep_holdings]
  rcases findBuffer_cases dev idle with ⟨nothing, same⟩ | ⟨pbuf, found, free, filling, log⟩
  · rw [nothing, same]
    exact sound
  · rw [found]
    have sent : Moved (holdings dev)
        { holdings (findBuffer dev) with log := (findBuffer dev).log ++ [⟨.send, pbuf⟩] }
        ⟨.send, pbuf⟩ .filling .flying := by
      refine ⟨rfl, filling.mem_iff.mpr List.mem_cons_self, ?_, by rw [log]; rfl⟩
      intro stage buffer
      cases stage with
      | free => simp [holdings, free]
      | filling =>
          have counted := filling.count_eq buffer
          by_cases same : pbuf = buffer
          · subst same
            simp [counted]
          · simp [counted, List.count_cons_of_ne same, Ne.symm same]
      | flying =>
          by_cases same : pbuf = buffer
          · subst same
            simp [holdings, idle, found]
          · simp [holdings, idle, found, same, Ne.symm same]
    exact sound.moved distinct_pool sent

theorem search_shape (dev : WriteDevice) (retry : dev.io.retry = ctcRetry) :
    IowriteShape (search dev).io := by
  apply writeOrSleep_shape
  unfold findBuffer
  split <;> exact retry

theorem freebuf_books (dev : WriteDevice) (pbuf : Nat) (taken : pbuf ∉ dev.bpnext) :
    SameBooks { (dev.record .release pbuf) with bpnext := pbuf :: dev.bpnext }
      (freebuf dev pbuf) := by
  rw [freebuf, if_neg taken]
  exact signalPool_books _

/-- With no retries left from the start, the buffer of a write is freed however the
write has ended. -/
theorem postWrite_freed (dev : WriteDevice) (pbuf : Nat) (retry : dev.io.retry = ctcRetry) :
    postWrite dev pbuf =
      (freebuf { dev with io := { dev.io with pbuf := none, retry := ctcRetry } }
        pbuf).setIowrite .freed true := by
  simp only [postWrite]
  rw [if_pos]
  cases good : dev.io.iogood with
  | false => exact Or.inr (by rw [retry]; decide)
  | true => exact Or.inl rfl

theorem flying_not_free (dev : WriteDevice) (pbuf : Nat) (flying : dev.io.pbuf = some pbuf)
    (sound : Sound (List.range ctcWritebufs) (holdings dev)) : pbuf ∉ dev.bpnext := by
  intro free
  have inPool := sound.staged .free pbuf free
  have inFlight := sound.staged .flying pbuf (by simp [holdings, flying])
  rw [inPool] at inFlight
  cases inFlight

theorem postWrite_moved (dev : WriteDevice) (pbuf : Nat) (retry : dev.io.retry = ctcRetry)
    (flying : dev.io.pbuf = some pbuf) (taken : pbuf ∉ dev.bpnext) :
    Moved (holdings dev) (holdings (postWrite dev pbuf)) ⟨.release, pbuf⟩ .flying .free := by
  rw [postWrite_freed dev pbuf retry]
  have books := freebuf_books
    { dev with io := { dev.io with pbuf := none, retry := ctcRetry } } pbuf taken
  have same : holdings ((freebuf
      { dev with io := { dev.io with pbuf := none, retry := ctcRetry } } pbuf).setIowrite
        .freed true) =
      holdings (freebuf { dev with io := { dev.io with pbuf := none, retry := ctcRetry } } pbuf) :=
    rfl
  rw [same, books.holdings_eq]
  refine ⟨rfl, by simp [holdings, flying], ?_, rfl⟩
  intro stage buffer
  cases stage with
  | free =>
      by_cases equal : pbuf = buffer
      · subst equal
        simp [holdings]
      · simp [holdings, List.count_cons_of_ne equal, Ne.symm equal]
  | filling => rfl
  | flying =>
      by_cases equal : pbuf = buffer
      · subst equal
        simp [holdings, flying, WriteDevice.record]
      · simp [holdings, flying, equal, Ne.symm equal, WriteDevice.record]

theorem postWrite_shape (dev : WriteDevice) (pbuf : Nat) (retry : dev.io.retry = ctcRetry)
    (taken : pbuf ∉ dev.bpnext) : IowriteShape (postWrite dev pbuf).io := by
  rw [postWrite_freed dev pbuf retry]
  have books := freebuf_books
    { dev with io := { dev.io with pbuf := none, retry := ctcRetry } } pbuf taken
  have idle := books.io.2.1
  constructor
  · simp [WriteDevice.setIowrite, idle, WriteDevice.record]
  · exact books.io.2.2

/-! ## Whole runs -/

structure Kept (dev : WriteDevice) : Prop where
  sound : Sound (List.range ctcWritebufs) (holdings dev)
  shape : IowriteShape dev.io

theorem Kept.accounted {dev : WriteDevice} (kept : Kept dev) : Accounted dev := by
  refine ⟨kept.sound.complete, ?_⟩
  intro buffer bound
  exact kept.sound.life_ne_none buffer (List.mem_range.mpr bound)

theorem runIowrite_kept (dev : WriteDevice) (kept : Kept dev) : Kept (runIowrite dev) := by
  have retry := kept.shape.retry
  have waited : ∀ pc, (pc = .inflight ∨ pc = .posting ↔
      dev.io.pc = .inflight ∨ dev.io.pc = .posting) → Kept (waitIowrite dev pc) := by
    intro pc same
    refine ⟨kept.sound, ?_, retry⟩
    exact kept.shape.flight.trans same.symm
  cases pc : dev.io.pc with
  | top =>
      simp only [runIowrite, pc]
      exact waited .searching (by rw [pc]; decide)
  | searching =>
      simp only [runIowrite, pc]
      have idle := idle_of_shape kept.shape (by rw [pc]; decide) (by rw [pc]; decide)
      exact ⟨search_sound dev idle kept.sound, search_shape dev retry⟩
  | asleep =>
      simp only [runIowrite, pc]
      exact waited .roused (by rw [pc]; decide)
  | roused =>
      simp only [runIowrite, pc]
      have idle := idle_of_shape kept.shape (by rw [pc]; decide) (by rw [pc]; decide)
      exact ⟨search_sound { dev with pidsleep := false } idle kept.sound,
        search_shape { dev with pidsleep := false } retry⟩
  | inflight =>
      simp only [runIowrite, pc]
      exact waited .posting (by rw [pc]; decide)
  | posting =>
      obtain ⟨pbuf, flying⟩ := Option.isSome_iff_exists.mp (kept.shape.flight.mpr (Or.inr pc))
      have taken := flying_not_free dev pbuf flying kept.sound
      simp only [runIowrite, pc, flying]
      exact ⟨kept.sound.moved distinct_pool (postWrite_moved dev pbuf retry flying taken),
        postWrite_shape dev pbuf retry taken⟩
  | freed =>
      simp only [runIowrite, pc]
      have idle := idle_of_shape kept.shape (by rw [pc]; decide) (by rw [pc]; decide)
      exact ⟨search_sound dev idle kept.sound, search_shape dev retry⟩

theorem SameBooks.shape {before after : WriteDevice} (books : SameBooks before after)
    (shape : IowriteShape before.io) : IowriteShape after.io := by
  constructor
  · rw [books.io.1, books.io.2.1]
    exact shape.flight
  · exact books.io.2.2.trans shape.retry

theorem enterFresh_shape (dev : WriteDevice) (pid : Nat) (first : Bool)
    (shape : IowriteShape dev.io) : IowriteShape (enterFresh dev pid first).io :=
  (signalDevice_books (dev.setWriter pid (.fresh first) true)).shape shape

theorem finishWrite_shape (dev : WriteDevice) (pid iplen pcih pseg : Nat)
    (shape : IowriteShape dev.io) : IowriteShape (finishWrite dev pid iplen pcih pseg).io := by
  simp only [finishWrite]
  apply (signalDevice_books _).shape
  split
  · exact ⟨shape.flight, shape.retry⟩
  · exact shape

theorem useBlock_shape (dev : WriteDevice) (pid iplen pcih : Nat)
    (shape : IowriteShape dev.io) : IowriteShape (useBlock dev pid iplen pcih).io := by
  unfold useBlock
  split
  · exact finishWrite_shape dev pid iplen pcih _ shape
  · exact enterFresh_shape _ pid false shape

theorem runWriter_shape (dev : WriteDevice) (pid : Nat) (writer : Writer)
    (shape : IowriteShape dev.io) : IowriteShape (runWriter dev pid writer).io := by
  unfold runWriter
  split
  · split
    · exact enterFresh_shape dev pid true shape
    · exact useBlock_shape dev pid _ _ shape
  · exact shape
  · split
    · exact shape
    · exact shape
  · simp only
    split
    · exact useBlock_shape _ pid _ _ shape
    · split
      · exact (signalDevice_books _).shape shape
      · exact finishWrite_shape _ pid _ _ _ shape
  · exact shape

theorem writeStep_kept (dev : WriteDevice) (event : WriteEvent) (kept : Kept dev)
    (careful : Careful dev event) : Kept (writeStep dev event) := by
  cases event with
  | call iplen =>
      refine ⟨?_, kept.shape⟩
      have same : holdings (writeStep dev (.call iplen)) = holdings dev := by
        simp [holdings, writeStep, heldBuffers, WriterPc.held]
      rw [same]
      exact kept.sound
  | writer pid =>
      simp only [writeStep]
      cases running : dev.writers[pid]? with
      | none => exact kept
      | some writer =>
          simp only
          split
          · next ready =>
              exact ⟨runWriter_sound dev pid writer running ready kept.sound careful,
                runWriter_shape dev pid writer kept.shape⟩
          · exact kept
  | iowrite =>
      simp only [writeStep]
      split
      · exact runIowrite_kept dev kept
      · exact kept
  | complete good =>
      simp only [writeStep]
      split
      · exact ⟨kept.sound, kept.shape.flight, kept.shape.retry⟩
      · exact kept

theorem writeStart_kept : Kept writeStart := by
  refine ⟨⟨?_, ?_⟩, ?_, rfl⟩
  · exact List.Perm.refl _
  · intro stage buffer member
    cases stage with
    | free => rfl
    | filling => cases member
    | flying => cases member
  · decide

/-! ## Where the books stop being right -/

theorem count_places (dev : WriteDevice) (buffer : Nat) :
    (places dev).count buffer = dev.bpnext.count buffer +
      (dev.stat.fillbuf.toList.count buffer + dev.stat.filled.count buffer +
        (heldBuffers dev.writers).count buffer) + dev.io.pbuf.toList.count buffer := by
  simp only [places, List.count_append]

/-- With a block in `fillbuf` or in the hands of a process, `filled[]` has a free slot. -/
theorem filled_slot (dev : WriteDevice) (placed : (places dev).Perm (List.range ctcWritebufs))
    (other : 0 < dev.stat.fillbuf.toList.length + (heldBuffers dev.writers).length) :
    dev.stat.filled.length < ctcWritebufs := by
  have total := placed.length_eq
  simp only [places, List.length_append, List.length_range] at total
  omega

theorem useBlock_full_count (dev : WriteDevice) (pid iplen pcih : Nat) (writer : Writer)
    (running : dev.writers[pid]? = some writer) (full : ¬ roomFor dev pcih iplen)
    (slot : dev.stat.filled.length < ctcWritebufs) (buffer : Nat) :
    (places (useBlock dev pid iplen pcih)).count buffer + writer.pc.held.toList.count buffer =
      (places dev).count buffer + [pcih].count buffer := by
  have queued : dev.stat.filled ++ [pcih] = queueFilled dev.stat.filled pcih := by
    rw [queueFilled, if_pos slot]
  have counted := setWriter_counted
    { dev with stat := { dev.stat with filled := dev.stat.filled ++ [pcih] } } pid (.fresh false)
    true writer running buffer
  have same := congrArg Holdings.items (enterFresh_holdings
    { dev with stat := { dev.stat with filled := dev.stat.filled ++ [pcih] } } pid false)
  have result : places (useBlock dev pid iplen pcih) =
      places (({ dev with stat := { dev.stat with filled := dev.stat.filled ++ [pcih] } }).setWriter
        pid (.fresh false) true) := by
    rw [useBlock, if_neg full, ← queued]
    exact same
  have nothing : (WriterPc.fresh false).held.toList = [] := rfl
  rw [nothing, List.count_nil] at counted
  rw [result, count_places, count_places]
  simp only [WriteDevice.setWriter, List.count_append] at counted ⊢
  omega

theorem returned_count (dev : WriteDevice) (pid pcih : Nat) (writer : Writer)
    (running : dev.writers[pid]? = some writer) (held : writer.pc.held = some pcih)
    (buffer : Nat) :
    (places (({ dev with stat := { dev.stat with fillbuf := some pcih } }).setWriter pid
        .returned true)).count buffer + dev.stat.fillbuf.toList.count buffer =
      (places dev).count buffer := by
  have counted := setWriter_counted dev pid .returned true writer running buffer
  have nothing : WriterPc.returned.held.toList = [] := rfl
  rw [held, nothing, Option.toList_some, List.count_nil] at counted
  rw [count_places, count_places]
  simp only [WriteDevice.setWriter, Option.toList_some] at counted ⊢
  omega

theorem finishWrite_places (dev : WriteDevice) (pid iplen pcih pseg : Nat) :
    places (finishWrite dev pid iplen pcih pseg) = places (dev.setWriter pid .returned true) :=
  congrArg Holdings.items (finishWrite_holdings dev pid iplen pcih pseg)

theorem holding_places (dev : WriteDevice) (pid pcih : Nat) (first : Bool) (writer : Writer)
    (pc : writer.pc = .holding first pcih)
    (room : first = true → roomFor dev pcih writer.iplen) :
    places (runWriter dev pid writer) =
      places (({ dev with stat := { dev.stat with fillbuf := some pcih } }).setWriter pid
        .returned true) := by
  simp only [runWriter, pc]
  split
  · next isFirst =>
      have room' : roomFor { dev with stat := { dev.stat with fillbuf := some pcih } } pcih
          writer.iplen := room isFirst
      rw [useBlock, if_pos room', finishWrite_places]
  · split
    · exact congrArg Holdings.items (signalDevice_books _).holdings_eq
    · rw [finishWrite_places]

/-- A frame too long for an empty buffer leaves the buffer both in `fillbuf` and in
`filled[]`. -/
theorem full_unaccounted (dev : WriteDevice) (pid pcih : Nat) (writer : Writer)
    (running : dev.writers[pid]? = some writer) (held : writer.pc.held = some pcih)
    (before : (places dev).Perm (List.range ctcWritebufs))
    (once : ∀ buffer, (places dev).count buffer ≤ 1)
    (full : ¬ roomFor dev pcih writer.iplen)
    (same : ∀ buffer,
      (places (useBlock { dev with stat := { dev.stat with fillbuf := some pcih } } pid
        writer.iplen pcih)).count buffer = (places dev).count buffer) : False := by
  have present := held_present dev pid pcih writer running held
  have slot := filled_slot dev before (by have some := List.length_pos_of_mem present; omega)
  have twice := useBlock_full_count { dev with stat := { dev.stat with fillbuf := some pcih } }
    pid writer.iplen pcih writer running full slot pcih
  have few := once pcih
  have here := List.count_pos_iff.mpr present
  rw [same pcih, held, count_places { dev with stat := { dev.stat with fillbuf := some pcih } }]
    at twice
  simp only [Option.toList_some, List.count_singleton_self] at twice
  omega

/-- A step that is not careful leaves a buffer in two places or in none. -/
theorem careful_of_accounted (dev : WriteDevice) (event : WriteEvent) (kept : Kept dev)
    (after : Accounted (writeStep dev event)) : Careful dev event := by
  cases event with
  | call iplen => trivial
  | iowrite => trivial
  | complete good => trivial
  | writer pid =>
      intro writer running ready
      have stepped : writeStep dev (.writer pid) = runWriter dev pid writer := by
        simp only [writeStep, running, ready, if_true]
      rw [stepped] at after
      have before : (places dev).Perm (List.range ctcWritebufs) := kept.sound.complete
      have same : ∀ buffer, (places (runWriter dev pid writer)).count buffer =
          (places dev).count buffer :=
        fun buffer => (after.placed.trans before.symm).count_eq buffer
      have once : ∀ buffer, (places dev).count buffer ≤ 1 := by
        intro buffer
        rw [before.count_eq buffer]
        exact List.nodup_iff_count_le_one.mp distinct_pool buffer
      cases pc : writer.pc with
      | entry =>
          intro pcih block
          by_contra full
          have slot := filled_slot dev before
            (by rw [block, Option.toList_some, List.length_singleton]; omega)
          have twice := useBlock_full_count dev pid writer.iplen pcih writer running full slot pcih
          have unchanged := same pcih
          simp only [runWriter, pc, block] at unchanged
          rw [pc, unchanged] at twice
          simp [WriterPc.held] at twice
      | holding first pcih =>
          have held : writer.pc.held = some pcih := by rw [pc]; rfl
          have room : first = true → roomFor dev pcih writer.iplen := by
            intro isFirst
            by_contra full
            exact full_unaccounted dev pid pcih writer running held before once full
              (fun buffer => by simpa only [runWriter, pc, isFirst, if_true] using same buffer)
          refine ⟨?_, room⟩
          by_contra occupied
          obtain ⟨old, block⟩ := Option.ne_none_iff_exists'.mp occupied
          have lost := returned_count dev pid pcih writer running held old
          rw [← holding_places dev pid pcih first writer pc room, same old, block] at lost
          simp at lost
      | fresh first => trivial
      | getting first => trivial
      | returned => trivial

/-- Calls of `ctci_write` one after the other, each of which finds room in its block. -/
def fittingWrites (pid count : Nat) : List WriteEvent :=
  (List.range count).flatMap fun position => [.call 1500, .writer (pid + position)]

/-- A call that gets a fresh buffer without waiting for it. -/
def freshWrite (pid : Nat) : List WriteEvent :=
  [.call 1500, .writer pid, .writer pid, .writer pid, .writer pid]

/-- Three blocks of thirteen frames use up the pool. The process that finds the third
one full queues it and waits for a buffer; the next one still finds it in `fillbuf`. -/
def busyRun : List WriteEvent :=
  freshWrite 0 ++ fittingWrites 1 12 ++ freshWrite 13 ++ fittingWrites 14 12 ++
    freshWrite 26 ++ fittingWrites 27 12 ++
    [.call 1500, .writer 39, .writer 39, .iowrite, .iowrite, .call 1500, .writer 40, .writer 40] ++
    [.complete true, .iowrite, .iowrite, .iowrite] ++
    [.complete true, .iowrite, .iowrite, .iowrite] ++
    [.complete true, .iowrite, .iowrite, .iowrite]

end MvsXinu.Ctc
