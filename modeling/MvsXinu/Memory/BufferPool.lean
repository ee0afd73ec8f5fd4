import MvsXinu.Kernel.SemaphoreOrder
import MvsXinu.Lib.Chains

/-!
# Buffer pools (`mkpool.c`, `getbuf.c`, `freebuf.c`)

A buffer has one word in front of it: the address of the next free buffer while it is free
and the number of its pool while it is handed out. A semaphore counts the free buffers; a
process that `freebuf` releases from it takes its buffer when it is dispatched, which is a
step of its own. Built with `PANIC_BUFPOOL`: a refused call stops the system.
-/

namespace MvsXinu.Pool

open MvsXinu.Kernel

set_option autoImplicit false

structure Bpool where
  bpbase : Int
  bpsize : Int
  bpmaxused : Int
  bptotal : Int
  bpnext : Int
  bpsem : Int

/-- `word` is the word in front of each buffer, `granted` the processes that a signal has
released from a pool's semaphore and that have not run since, and `out` the buffers (by the
address of their word) that are handed out from each pool. -/
structure Pools where
  sems : Sems
  bptab : Int → Bpool
  nbpools : Int
  word : Int → Int
  granted : Int → List Int
  out : Int → List Int
  stopped : Bool

def bpminb : Int := 2
def bpmaxb : Int := 20 * 1024
def bpmaxn : Int := 128
def maxpools : Int := 10

def panic (s : Pools) : Pools := { s with stopped := true }

def refused (sems : Sems) (sem : Int) : Prop :=
  isbadsem sem ∨ (sems.semaph sem).sstate = .free

instance (sems : Sems) (sem : Int) : Decidable (refused sems sem) :=
  inferInstanceAs (Decidable (_ ∨ _))

def scount (sems : Sems) (sem : Int) : Int :=
  if refused sems sem then syserr else (sems.semaph sem).semcnt.toInt

/-- The loop of `mkpool` that links the buffers, from the first to the last. -/
def carve (stride : Int) : Nat → Int → (Int → Int) → Int → Int
  | 0, place, word => Function.update word place 0
  | more + 1, place, word =>
      carve stride more (place + stride) (Function.update word place (place + stride))

/-- `place` is what `getmem` returned and `sem` what `screate` returned, which `mkpool`
stores without a look at it. -/
def mkpool (s : Pools) (bufsiz numbufs place sem : Int) : Int × Pools :=
  if bufsiz < bpminb ∨ bpmaxb < bufsiz ∨ numbufs < 1 ∨ bpmaxn < numbufs ∨ maxpools ≤ s.nbpools ∨
      place = syserr then
    (syserr, panic s)
  else
    (s.nbpools,
      { s with
        nbpools := s.nbpools + 1
        bptab := Function.update s.bptab s.nbpools
          { bpbase := place, bptotal := numbufs, bpmaxused := 0, bpnext := place, bpsize := bufsiz
            bpsem := sem }
        sems := if sem = syserr then s.sems else s.sems.create sem (BitVec.ofInt 32 numbufs)
        word := carve (bufsiz + 4) (numbufs - 1).toNat place s.word })

/-- The end of `getbuf`: the first free buffer is taken off and marked with its pool. -/
def take (s : Pools) (poolid : Int) : Int × Pools :=
  let pool := s.bptab poolid
  let inuse := pool.bptotal - scount s.sems pool.bpsem
  (pool.bpnext + 4,
    { s with
      bptab := Function.update s.bptab poolid
        { pool with bpmaxused := max pool.bpmaxused inuse, bpnext := s.word pool.bpnext }
      word := Function.update s.word pool.bpnext poolid
      out := Function.update s.out poolid (pool.bpnext :: s.out poolid) })

/-- `wait` on the pool's semaphore, whose answer is not looked at, and the buffer unless the
call blocks. -/
def waitAndTake (s : Pools) (pid poolid : Int) : Pools :=
  let sem := (s.bptab poolid).bpsem
  if refused s.sems sem then (take s poolid).2
  else if ((s.sems.semaph sem).semcnt - 1).slt 0 then { s with sems := s.sems.wait sem pid }
  else (take { s with sems := s.sems.wait sem pid } poolid).2

def badpool (s : Pools) (poolid : Int) : Prop := poolid < 0 ∨ s.nbpools ≤ poolid

instance (s : Pools) (poolid : Int) : Decidable (badpool s poolid) :=
  inferInstanceAs (Decidable (_ ∨ _))

def getbuf (s : Pools) (pid poolid : Int) : Pools :=
  if badpool s poolid then panic s else waitAndTake s pid poolid

/-- A process that the semaphore has let through is dispatched in `getbuf`. -/
def resumed (s : Pools) (pid poolid : Int) : Pools :=
  (take { s with granted := Function.update s.granted poolid ((s.granted poolid).erase pid) }
    poolid).2

def nbgetbuf (s : Pools) (pid poolid : Int) : Pools :=
  if badpool s poolid then panic s
  else if scount s.sems (s.bptab poolid).bpsem ≤ 0 then s
  else waitAndTake s pid poolid

/-- `signal` on the semaphore of a pool; the process it releases is granted a buffer. -/
def signalPool (s : Pools) (poolid : Int) : Pools :=
  let sem := (s.bptab poolid).bpsem
  if refused s.sems sem then s
  else if (s.sems.semaph sem).semcnt.slt 0 then
    { s with
      sems := s.sems.signal sem
      granted := Function.update s.granted poolid
        (s.granted poolid ++ (s.sems.waiting sem).take 1) }
  else { s with sems := s.sems.signal sem }

def freebuf (s : Pools) (buf : Int) : Pools :=
  let place := buf - 4
  let poolid := s.word place
  if badpool s poolid then panic s
  else
    signalPool
      { s with
        word := Function.update s.word place (s.bptab poolid).bpnext
        bptab := Function.update s.bptab poolid { s.bptab poolid with bpnext := place }
        out := fun pool => (s.out pool).erase place }
      poolid

inductive PoolCall where
  | mkpool (bufsiz numbufs place sem : Int)
  | getbuf (pid poolid : Int)
  | resumed (pid poolid : Int)
  | nbgetbuf (pid poolid : Int)
  | freebuf (buf : Int)
  | elsewhere (sems : Sems)

/-- `elsewhere` is what the rest of the system does to its own semaphores. -/
def step (s : Pools) (call : PoolCall) : Pools :=
  if s.stopped then s
  else
    match call with
    | .mkpool bufsiz numbufs place sem => (mkpool s bufsiz numbufs place sem).2
    | .getbuf pid poolid => getbuf s pid poolid
    | .resumed pid poolid => resumed s pid poolid
    | .nbgetbuf pid poolid => nbgetbuf s pid poolid
    | .freebuf buf => freebuf s buf
    | .elsewhere sems => { s with sems := sems }

/-- The system before the first pool. -/
def unpooled (sems : Sems) : Pools where
  sems := sems
  bptab := fun _ =>
    { bpbase := 0, bpsize := 0, bpmaxused := 0, bptotal := 0, bpnext := 0, bpsem := 0 }
  nbpools := 0
  word := fun _ => 0
  granted := fun _ => []
  out := fun _ => []
  stopped := false

/-- The buffers of a pool, by the addresses of their words. -/
def buffers (pool : Bpool) : List Int :=
  (List.range pool.bptotal.toNat).map fun index : Nat =>
    pool.bpbase + (index : Int) * (pool.bpsize + 4)

def IsPool (s : Pools) (poolid : Int) : Prop := 0 ≤ poolid ∧ poolid < s.nbpools

/-- What the callers and the rest of the kernel do: `getmem` gives storage that is in no
pool, `screate` a free semaphore with an empty queue, or none if none is free; a process
calls while it waits for no buffer; what is freed is handed out; and the semaphores of the
pools are left alone. -/
def Allowed (s : Pools) : PoolCall → Prop
  | .mkpool bufsiz numbufs place sem =>
      (place = syserr ∨ (0 < place ∧ ∀ poolid, IsPool s poolid →
        place + numbufs * (bufsiz + 4) ≤ (s.bptab poolid).bpbase ∨
        (s.bptab poolid).bpbase + (s.bptab poolid).bptotal * ((s.bptab poolid).bpsize + 4) ≤
          place)) ∧
      ((sem = syserr ∧ ∀ other, ¬ isbadsem other → (s.sems.semaph other).sstate = .used) ∨
        (¬ isbadsem sem ∧ (s.sems.semaph sem).sstate = .free ∧ s.sems.waiting sem = []))
  | .getbuf pid _ => IsProc pid ∧ ∀ poolid, IsPool s poolid →
      pid ∉ s.sems.waiting (s.bptab poolid).bpsem ∧ pid ∉ s.granted poolid
  | .resumed pid poolid => IsPool s poolid ∧ pid ∈ s.granted poolid
  | .nbgetbuf pid _ => IsProc pid ∧ ∀ poolid, IsPool s poolid →
      pid ∉ s.sems.waiting (s.bptab poolid).bpsem ∧ pid ∉ s.granted poolid
  | .freebuf buf => ∃ poolid, IsPool s poolid ∧ buf - 4 ∈ s.out poolid
  | .elsewhere sems => ∀ poolid, IsPool s poolid →
      sems.semaph (s.bptab poolid).bpsem = s.sems.semaph (s.bptab poolid).bpsem ∧
      sems.waiting (s.bptab poolid).bpsem = s.sems.waiting (s.bptab poolid).bpsem

/-- `mkpool` finds a free semaphore. -/
def Counts (s : Pools) : PoolCall → Prop
  | .mkpool _ _ _ _ => ∃ sem, ¬ isbadsem sem ∧ (s.sems.semaph sem).sstate = .free
  | _ => True

end MvsXinu.Pool
