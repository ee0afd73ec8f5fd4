import MvsXinu.Lib.Custody
import MvsXinu.Lib.Runs
import MvsXinu.Ctc.Block

/-!
# The write queue (`ctci_write.c`, `ctci_iowrite.c`, `getbuf.c`, `freebuf.c`)

Any number of processes are inside `ctci_write`, one runs `ctci_iowrite`. A process
runs from one call of `wait`, `signal`, `getbuf`, `freebuf` or `suspend` to the next,
and which one runs is up to the events. Of a buffer its number in the pool and the
offset in its first `ctcihdr` are kept. A `signal` with the `suspend` behind it is one
step; `shutdown` stays `FALSE`, which no code under `ctc/` changes. The log records
what is done to the buffers; nothing reads it.
-/

namespace MvsXinu.Ctc

open MvsXinu.Custody

set_option autoImplicit false

def ctcRetry : Int := 0

inductive Process where
  | iowrite
  | writer (pid : Nat)
  deriving DecidableEq, Repr

structure Semaphore where
  semcnt : Int
  queue : List Process
  deriving DecidableEq, Repr

/-- `false` if the process is put into the queue and waits. -/
def Semaphore.wait (sem : Semaphore) (process : Process) : Semaphore × Bool :=
  if sem.semcnt - 1 < 0 then
    ({ semcnt := sem.semcnt - 1, queue := sem.queue ++ [process] }, false)
  else ({ sem with semcnt := sem.semcnt - 1 }, true)

def Semaphore.signal (sem : Semaphore) : Semaphore × Option Process :=
  if sem.semcnt < 0 then
    ({ semcnt := sem.semcnt + 1, queue := sem.queue.tail }, sem.queue.head?)
  else ({ sem with semcnt := sem.semcnt + 1 }, none)

/-- Where a process is inside `ctci_write`. `first` tells the two calls of `ctwfresh`
apart: for a missing block, and for one that is full. -/
inductive WriterPc where
  /-- In `wait` at the head of `ctci_write`. -/
  | entry
  /-- In `ctwfresh`, with the device released. -/
  | fresh (first : Bool)
  /-- In `wait` for a free buffer, in `getbuf`. -/
  | getting (first : Bool)
  /-- In `wait` at the end of `ctwfresh`, with the new buffer. -/
  | holding (first : Bool) (pcih : Nat)
  | returned
  deriving DecidableEq, Repr

structure Writer where
  iplen : Nat
  pc : WriterPc
  ready : Bool
  deriving DecidableEq, Repr

inductive IowritePc where
  /-- Before the loop. -/
  | top
  /-- In `wait` at the head of the loop. -/
  | searching
  /-- In `suspend`, with nothing to write. -/
  | asleep
  /-- In `wait` behind it. -/
  | roused
  /-- In `suspend`, until the write is complete. -/
  | inflight
  /-- In `wait` behind it. -/
  | posting
  /-- In `freebuf`. -/
  | freed
  deriving DecidableEq, Repr

structure Iowrite where
  pc : IowritePc
  ready : Bool
  pbuf : Option Nat
  retry : Int
  iogood : Bool
  deriving DecidableEq, Repr

structure WriteDevice where
  stat : Ctwritestat Nat
  pidsleep : Bool
  sem : Semaphore
  bpsem : Semaphore
  bpnext : List Nat
  offset : Nat → Nat
  writers : List Writer
  io : Iowrite
  log : List (Deed Nat)

def WriteDevice.setWriter (dev : WriteDevice) (pid : Nat) (pc : WriterPc) (ready : Bool) :
    WriteDevice :=
  { dev with
    writers := dev.writers.modify pid fun writer => { writer with pc := pc, ready := ready } }

def WriteDevice.setIowrite (dev : WriteDevice) (pc : IowritePc) (ready : Bool) : WriteDevice :=
  { dev with io := { dev.io with pc := pc, ready := ready } }

/-- `ready` does not look at what the process waits for. -/
def WriteDevice.makeReady (dev : WriteDevice) : Process → WriteDevice
  | .iowrite => { dev with io := { dev.io with ready := true } }
  | .writer pid =>
      { dev with writers := dev.writers.modify pid fun writer => { writer with ready := true } }

def WriteDevice.wake (dev : WriteDevice) : Option Process → WriteDevice
  | none => dev
  | some process => dev.makeReady process

def WriteDevice.signalDevice (dev : WriteDevice) : WriteDevice :=
  ({ dev with sem := dev.sem.signal.1 }).wake dev.sem.signal.2

def WriteDevice.signalPool (dev : WriteDevice) : WriteDevice :=
  ({ dev with bpsem := dev.bpsem.signal.1 }).wake dev.bpsem.signal.2

def WriteDevice.record (dev : WriteDevice) (act : Act) (buffer : Nat) : WriteDevice :=
  { dev with log := dev.log ++ [⟨act, buffer⟩] }

/-- `ctwfresh` up to its `signal`. -/
def enterFresh (dev : WriteDevice) (pid : Nat) (first : Bool) : WriteDevice :=
  (dev.setWriter pid (.fresh first) true).signalDevice

/-- The end of `ctci_write`: the segment at `pseg`, the wakeup and the `signal`. -/
def finishWrite (dev : WriteDevice) (pid iplen pcih pseg : Nat) : WriteDevice :=
  let filled := { (dev.record .fill pcih) with
    offset := Function.update dev.offset pcih (pseg + ctcseghdrSize + iplen) }
  let woken := if filled.pidsleep then filled.makeReady .iowrite else filled
  (woken.setWriter pid .returned true).signalDevice

def roomFor (dev : WriteDevice) (pcih iplen : Nat) : Prop :=
  ¬ ((ctcBuflen : Int) - dev.offset pcih - ctcseghdrSize - ctcihdrSize < iplen)

instance (dev : WriteDevice) (pcih iplen : Nat) : Decidable (roomFor dev pcih iplen) :=
  inferInstanceAs (Decidable (¬ _))

/-- `ctci_write` with a block at hand. -/
def useBlock (dev : WriteDevice) (pid iplen pcih : Nat) : WriteDevice :=
  if roomFor dev pcih iplen then finishWrite dev pid iplen pcih (dev.offset pcih)
  else
    enterFresh
      { dev with stat := { dev.stat with filled := queueFilled dev.stat.filled pcih } } pid false

/-- A process inside `ctci_write` runs up to its next switch. -/
def runWriter (dev : WriteDevice) (pid : Nat) (writer : Writer) : WriteDevice :=
  match writer.pc with
  | .entry =>
      match dev.stat.fillbuf with
      | none => enterFresh dev pid true
      | some pcih => useBlock dev pid writer.iplen pcih
  | .fresh first =>
      let result := dev.bpsem.wait (.writer pid)
      ({ dev with bpsem := result.1 }).setWriter pid (.getting first) result.2
  | .getting first =>
      match dev.bpnext with
      | [] => dev
      | pcih :: rest =>
          let taken := { (dev.record .get pcih) with
            bpnext := rest
            offset := Function.update dev.offset pcih ctcihdrSize }
          let result := taken.sem.wait (.writer pid)
          ({ taken with sem := result.1 }).setWriter pid (.holding first pcih) result.2
  | .holding first pcih =>
      let updated := { dev with stat := { dev.stat with fillbuf := some pcih } }
      if first then useBlock updated pid writer.iplen pcih
      else if (ctcBuflen : Int) - 2 * ctcihdrSize - ctcseghdrSize < writer.iplen then
        (updated.setWriter pid .returned true).signalDevice
      else finishWrite updated pid writer.iplen pcih ctcihdrSize
  | .returned => dev

/-- `freebuf`: in front of a free buffer there is a link and no pool number. -/
def freebuf (dev : WriteDevice) (pbuf : Nat) : WriteDevice :=
  if pbuf ∈ dev.bpnext then dev
  else ({ (dev.record .release pbuf) with bpnext := pbuf :: dev.bpnext }).signalPool

/-- The search of `ctci_iowrite`. A buffer kept for a retry is replaced by `filled[0]`. -/
def findBuffer (dev : WriteDevice) : WriteDevice :=
  match dev.io.pbuf.or dev.stat.filled.head? with
  | none =>
      { dev with
        stat := { dev.stat with fillbuf := none }
        io := { dev.io with pbuf := dev.stat.fillbuf } }
  | some _ =>
      { dev with
        stat := { dev.stat with filled := dev.stat.filled.tail }
        io := { dev.io with pbuf := dev.stat.filled.head? } }

/-- Write the buffer that was found, or sleep, up to the `suspend`. -/
def writeOrSleep (dev : WriteDevice) : WriteDevice :=
  match dev.io.pbuf with
  | none => ({ dev with pidsleep := true }).signalDevice.setIowrite .asleep false
  | some pbuf => (dev.record .send pbuf).signalDevice.setIowrite .inflight false

def search (dev : WriteDevice) : WriteDevice := writeOrSleep (findBuffer dev)

/-- `ctci_iowrite` after a write: free the buffer, or go on with it. -/
def postWrite (dev : WriteDevice) (pbuf : Nat) : WriteDevice :=
  let retry := if dev.io.iogood then dev.io.retry else dev.io.retry - 1
  if dev.io.iogood ∨ retry < 0 then
    let cleared := { dev with io := { dev.io with pbuf := none, retry := ctcRetry } }
    (freebuf cleared pbuf).setIowrite .freed true
  else search { dev with io := { dev.io with retry := retry } }

def waitIowrite (dev : WriteDevice) (pc : IowritePc) : WriteDevice :=
  let result := dev.sem.wait .iowrite
  ({ dev with sem := result.1 }).setIowrite pc result.2

/-- The process `ctci_iowrite` runs up to its next switch. -/
def runIowrite (dev : WriteDevice) : WriteDevice :=
  match dev.io.pc with
  | .top => waitIowrite dev .searching
  | .searching => search dev
  | .asleep => waitIowrite dev .roused
  | .roused => search { dev with pidsleep := false }
  | .inflight => waitIowrite dev .posting
  | .posting =>
      match dev.io.pbuf with
      | none => dev
      | some pbuf => postWrite dev pbuf
  | .freed => search dev

inductive WriteEvent where
  /-- A process calls `ctci_write` with a frame of this length. -/
  | call (iplen : Nat)
  | writer (pid : Nat)
  | iowrite
  /-- The channel ends a write; `iohook` resumes `ctci_iowrite`. -/
  | complete (good : Bool)
  deriving DecidableEq, Repr

def writeStep (dev : WriteDevice) : WriteEvent → WriteDevice
  | .call iplen =>
      let result := dev.sem.wait (.writer dev.writers.length)
      { dev with
        sem := result.1
        writers := dev.writers ++ [{ iplen := iplen, pc := .entry, ready := result.2 }] }
  | .writer pid =>
      match dev.writers[pid]? with
      | none => dev
      | some writer => if writer.ready then runWriter dev pid writer else dev
  | .iowrite => if dev.io.ready then runIowrite dev else dev
  | .complete good =>
      if dev.io.pc = .inflight then { dev with io := { dev.io with ready := true, iogood := good } }
      else dev

/-- After the initialisation of `ctci_iowrite`: the device is free and so are the
buffers of the pool. -/
def writeStart : WriteDevice where
  stat := { fillbuf := none, filled := [] }
  pidsleep := false
  sem := { semcnt := 1, queue := [] }
  bpsem := { semcnt := ctcWritebufs, queue := [] }
  bpnext := List.range ctcWritebufs
  offset := fun _ => 0
  writers := []
  io := { pc := .top, ready := true, pbuf := none, retry := ctcRetry, iogood := false }
  log := []

end MvsXinu.Ctc
