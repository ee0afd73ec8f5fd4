import MvsXinu.Lib.Rounds
import MvsXinu.Memory.Ports
import MvsXinu.Memory.StackHistory

/-!
# The constructors of queues and ports (`newq` in `gpq.c`, `pcreate.c`, `pinit.c`, `mark.c`)

A constructor takes a slot of its table and then the semaphores and the storage that the entry
refers to. None of them loses control on the way: there is nobody in `mark` when `pcreate`
waits for its mutex.
-/

namespace MvsXinu.Memory

open MvsXinu.Kernel (screate nsem nproc isbadsem)
open MvsXinu.Ports (Pt nports)
open MvsXinu.Rounds (Inside)
open MvsXinu.Tiling (Separate)

set_option autoImplicit false

def syserr : Int := -1
def maxnq : Int := 100
def maxmark : Int := 20
def qfNowait : BitVec 32 := 1

/-- An entry of `Q`. An address that is `none` is `SYSERR`. -/
structure Qslot where
  qValid : Bool
  qType : BitVec 32
  qMax : BitVec 32
  qCount : Int
  qSeen : Int
  qMutex : Int
  qKey : Option Nat
  qElt : Option Nat

/-- A port that `pinit` has not been at is `none`. `ptmarked` is what `mark` finds out about
`ptmark`. -/
structure Machine extends System where
  qinit : Bool
  queue : Int → Qslot
  ports : Int → Option Pt
  ptnextp : Int
  ptfree : Nat
  ptmarked : Bool
  nmarks : Int

/-! ## `newq` -/

/-- The loop over `i` for a slot that is not valid. -/
def invalidSlot (queue : Int → Qslot) : Nat → Int → Int
  | 0, i => i
  | tries + 1, i => if (queue i).qValid = false then i else invalidSlot queue tries (i + 1)

def initq (s : Machine) : Machine :=
  { s with qinit := true, queue := fun i => { s.queue i with qValid := false } }

/-- `getmem` with its two results side by side. -/
def allot (heap : Heap) (nbytes : BitVec 32) : Option Nat × Heap :=
  match getmem heap nbytes with
  | none => (none, heap)
  | some (block, after) => (some block, after)

/-- `newq` when it has found slot `i`. -/
def fillSlot (s : Machine) (i : Int) (size mtype : BitVec 32) : Int × Machine :=
  let mutex := if mtype = qfNowait then ((s.queue i).qMutex, s.kernel) else screate s.kernel 1
  let elt := allot s.heap (4 * size)
  let key := allot elt.2 (4 * size)
  let entry : Qslot :=
    { qValid := true, qType := mtype, qMax := size, qCount := 0, qSeen := -1, qMutex := mutex.1
      qKey := key.1, qElt := elt.1 }
  (if key.1 = none ∨ elt.1 = none then syserr else i,
    { s with kernel := mutex.2, heap := key.2, queue := Function.update s.queue i entry })

def newq (s : Machine) (size mtype : BitVec 32) : Int × Machine :=
  let s := if s.qinit then s else initq s
  let i := invalidSlot s.queue maxnq.toNat 0
  if i = maxnq then (syserr, s) else fillSlot s i size mtype

/-! ## `pcreate` -/

def mark (s : Machine) : Int × Machine :=
  if s.ptmarked then (0, s)
  else if maxmark ≤ s.nmarks then (syserr, s)
  else (Kernel.ok, { s with ptmarked := true, nmarks := s.nmarks + 1 })

/-- The octets of the nodes that hold the messages. -/
def nodeOctets : BitVec 32 := BitVec.ofNat 32 (Ports.maxmsgs * 8)

def blankPort : Pt where
  ptstate := .free
  ptssem := 0
  ptrsem := 0
  ptmaxcnt := 0
  ptseq := 0
  pthead := 0
  pttail := 0

/-- `pinit` with the storage for its nodes. -/
def freePorts (s : Machine) (nodes : Nat) (heap : Heap) : Machine :=
  { s with
    heap := heap
    ptfree := nodes
    ports := fun p => some { (s.ports p).getD blankPort with ptstate := .free }
    ptnextp := nports - 1 }

/-- `none` is the panic. -/
def pinit (s : Machine) : Option Machine :=
  (getmem s.heap nodeOctets).map fun found => freePorts s found.1 found.2

def Machine.portState (s : Machine) (p : Int) : Option Ports.Ptstate := (s.ports p).map Pt.ptstate

def fillPort (s : Machine) (p : Int) (count : BitVec 32) : Machine :=
  let ssem := screate s.kernel count
  let rsem := screate ssem.2 0
  { s with
    kernel := rsem.2
    ports := Function.update s.ports p (some
      { ptstate := .alloc, ptssem := ssem.1, ptrsem := rsem.1, ptmaxcnt := count
        ptseq := ((s.ports p).getD blankPort).ptseq + 1, pthead := 0, pttail := 0 }) }

def portLoop (count : BitVec 32) : Nat → Machine → Int × Machine
  | 0, s => (syserr, s)
  | tries + 1, s =>
      let p := s.ptnextp
      let passed := { s with ptnextp := if p ≤ 0 then nports - 1 else p - 1 }
      if s.portState p = some .free then (p, fillPort passed p count)
      else portLoop count tries passed

def pcreate (s : Machine) (count : BitVec 32) : Option (Int × Machine) :=
  let marked := mark s
  (if marked.1 = Kernel.ok then pinit marked.2 else some marked.2).map
    (portLoop count nports.toNat)

/-- `create`, which knows nothing of queues and ports. -/
def Machine.create (s : Machine) (ssize priority : BitVec 32) : Int × Machine :=
  let made := Memory.create s.toSystem ssize priority
  (made.1, { s with toSystem := made.2 })

/-! ## The law of a constructor -/

def Machine.UsedSem (s : Machine) (sem : Int) : Prop := (s.kernel.semaph sem).sstate = .used

def Machine.Live (s : Machine) (pid : Int) : Prop := (s.kernel.proctab pid).pstate ≠ .free

def Machine.Occupied (s : Machine) (p : Int) : Prop :=
  s.portState p = some .alloc ∨ s.portState p = some .limbo

/-- The same storage is free, and the same slots of every table are taken. -/
structure Untouched (before after : Machine) : Prop where
  memory : after.heap.memlist = before.heap.memlist
  sems : ∀ sem, Inside nsem sem → (after.UsedSem sem ↔ before.UsedSem sem)
  queues : ∀ i, Inside maxnq i → (after.queue i).qValid = (before.queue i).qValid
  processes : ∀ pid, Inside nproc pid → (after.Live pid ↔ before.Live pid)
  ports : ∀ p, Inside nports p → (after.Occupied p ↔ before.Occupied p)

/-- What an entry refers to. -/
structure Record where
  sems : List Int
  blocks : List Mblock

/-- The semaphores are new ones, and the blocks came out of the free storage for the entry. -/
structure Valid (before after : Machine) (record : Record) : Prop where
  sems : ∀ sem ∈ record.sems, ¬ isbadsem sem ∧ ¬ before.UsedSem sem ∧ after.UsedSem sem
  different : record.sems.Nodup
  blocks : ∀ block ∈ record.blocks, ∀ address, block.place ≤ address →
    address < block.place + block.size →
      IsFree before.heap.memlist address ∧ ¬ IsFree after.heap.memlist address
  separate : record.blocks.Pairwise Separate

structure Atomic (before : Machine) (outcome : Int × Machine) (record : Record) : Prop where
  fails : outcome.1 = syserr → Untouched before outcome.2
  succeeds : outcome.1 ≠ syserr → Valid before outcome.2 record

/-- The mutex is set only if the type asks for one, and the arrays have words. -/
def Qslot.record (entry : Qslot) : Record where
  sems := if entry.qType = qfNowait then [] else [entry.qMutex]
  blocks := [entry.qElt, entry.qKey].reduceOption.map fun place => ⟨place, 4 * entry.qMax.toNat⟩

def portRecord (port : Option Pt) : Record where
  sems := port.elim [] fun pt => [pt.ptssem, pt.ptrsem]
  blocks := []

/-- The stack that `freestk` would give back. -/
def System.processRecord (s : System) (pid : Int) : Record where
  sems := []
  blocks := [⟨s.pbase pid + 4 - (s.pstklen pid).toNat, (s.pstklen pid).toNat⟩]

def NewqAtomic (s : Machine) (size mtype : BitVec 32) : Prop :=
  let outcome := newq s size mtype
  Atomic s outcome (outcome.2.queue outcome.1).record

def CreateAtomic (s : Machine) (ssize priority : BitVec 32) : Prop :=
  let outcome := s.create ssize priority
  Atomic s outcome (outcome.2.processRecord outcome.1)

/-- A panic is no return. -/
def PcreateAtomic (s : Machine) (count : BitVec 32) : Prop :=
  ∀ outcome, pcreate s count = some outcome →
    Atomic s outcome (portRecord (outcome.2.ports outcome.1))

/-! ## When the constructors keep the law -/

def Machine.SemFree (s : Machine) (sem : Int) : Prop :=
  Inside nsem sem ∧ (s.kernel.semaph sem).sstate = .free

/-- There is no slot, or everything that the entry refers to can be had. -/
def NewqServed (s : Machine) (size mtype : BitVec 32) : Prop :=
  (∀ i, Inside maxnq i → (s.queue i).qValid = true) ∨
    (size.toNat ≤ 2 ^ 30 - 2 ∧ 2 ≤ room (roundmb (4 * size.toNat)) s.heap.memlist ∧
      (mtype = qfNowait ∨ ∃ sem, s.SemFree sem))

/-- It does not come to `newpid`, or there is an entry. -/
def CreateServed (s : Machine) (ssize priority : BitVec 32) : Prop :=
  priority.slt 1 ∨ (∀ block ∈ s.heap.memlist, block.size < (stackLen ssize).toNat) ∨
    ∃ pid, Inside nproc pid ∧ ¬ s.Live pid

/-- The first call is the one that `pinit` belongs to. -/
def Machine.Initialized (s : Machine) : Prop := s.ptmarked = true ∨ maxmark ≤ s.nmarks

/-- There is no port, there is no storage for `pinit`, or there are two semaphores. -/
def PcreateServed (s : Machine) : Prop :=
  (s.Initialized ∧ ∀ p, Inside nports p → s.portState p ≠ some .free) ∨
    (¬ s.Initialized ∧ room nodeOctets.toNat s.heap.memlist = 0) ∨
      ∃ first second, first ≠ second ∧ s.SemFree first ∧ s.SemFree second

/-- What the initialisation sets up and every call keeps. -/
structure Regular (s : Machine) : Prop where
  filled : Filled s.heap
  nextsem : Inside nsem s.kernel.nextsem
  nextproc : Inside nproc s.kernel.nextproc
  ptnextp : Inside nports s.ptnextp
  unused : s.qinit = false → ∀ i, (s.queue i).qValid = false

end MvsXinu.Memory
