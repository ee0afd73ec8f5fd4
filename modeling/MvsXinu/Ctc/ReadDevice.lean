import MvsXinu.Ctc.Block
import MvsXinu.Lib.Mutex
import MvsXinu.Lib.Runs

/-!
# The read device (`ctci_read.c`, `ctci_ioread.c`)

One process runs `ctci_ioread`, any number of them are inside `ctci_read`. A process runs
from one call of `wait`, `signal`, `suspend`, `resume`, `getbuf` or `freebuf` to the next, and
which one runs is up to the events. `read` and `used` are the blocks that have been read and
the ones whose frames have all been returned; `given` has for each frame that was returned
the number of its block. Nothing reads these three.
-/

namespace MvsXinu.CtcRead

open MvsXinu.Octets MvsXinu.Ctc MvsXinu.Mutex

set_option autoImplicit false

inductive Party where
  | ioread
  | reader (pid : Nat)
  deriving DecidableEq

/-- Where a process is in `ctci_read`. -/
inductive ReaderPc where
  | outside
  /-- In `wait` at its head. -/
  | entry
  /-- Behind the `signal`, with `userpid` set. -/
  | published
  | suspended
  /-- Resumed. -/
  | woken
  /-- In `wait` behind the `suspend`. -/
  | back
  /-- In `freebuf`. -/
  | freeing
  deriving DecidableEq

/-- `len` is the caller's length, less the header of `struct ep`. -/
structure Reader where
  pc : ReaderPc
  len : Nat

inductive IoreadPc where
  /-- In `getbuf`, at the head of the loop. -/
  | getting
  /-- In the `wait` behind it. -/
  | hanging
  /-- In `suspend`, until the read is complete. -/
  | inflight
  /-- In the `wait` behind it. -/
  | posting
  /-- Behind the `signal`, with the length in its slot. -/
  | posted
  /-- Behind `resume`. -/
  | stepping
  deriving DecidableEq

structure Ioread where
  pc : IoreadPc
  bufndx : Fin ctcReadbufs
  iostat : Nat

structure ReadDevice where
  stat : Ctreadstat
  userpid : Option Nat
  sem : Mutex Party
  readers : Nat → Reader
  io : Ioread
  panicked : Bool
  read : List Storage
  used : List Storage
  given : List Nat

def ReadDevice.setPc (dev : ReadDevice) (pid : Nat) (pc : ReaderPc) : ReadDevice :=
  { dev with readers := Function.update dev.readers pid { dev.readers pid with pc := pc } }

def ReadDevice.setIo (dev : ReadDevice) (pc : IoreadPc) : ReadDevice :=
  { dev with io := { dev.io with pc := pc } }

def ReadDevice.wait (dev : ReadDevice) (party : Party) : ReadDevice :=
  { dev with sem := dev.sem.wait party }

def ReadDevice.signal (dev : ReadDevice) : ReadDevice := { dev with sem := dev.sem.signal }

def ReadDevice.panic (dev : ReadDevice) : ReadDevice := { dev with panicked := true }

/-- The end of `ctci_read`, from the copy of the frame at `pseg` on. The caller keeps the
device while it frees a buffer. -/
def deliver (dev : ReadDevice) (pid : Nat) (pbuf : Storage) (pseg : Int) : ReadDevice :=
  let seglen := signedHalfword pbuf pseg
  let dl : Nat := ((seglen - ctcseghdrSize) % 2 ^ 32).toNat
  if (dev.readers pid).len < dl then (dev.setPc pid .outside).signal
  else
    let returned :=
      { dev with
        stat := afterFrame dev.stat pbuf pseg seglen
        given := dev.given ++ [dev.used.length] }
    if (halfword pbuf 0 : Int) ≤ nextSegment pseg seglen then
      { returned.setPc pid .freeing with used := dev.used ++ [pbuf] }
    else (returned.setPc pid .outside).signal

/-- A block that no frame has been returned from yet. -/
def newBuffer (dev : ReadDevice) (pid : Nat) : ReadDevice :=
  match dev.stat.buf dev.stat.avail with
  | none => dev.panic
  | some pbuf => deliver dev pid pbuf ctcihdrSize

/-- `ctci_read` with the device at hand. A caller whose buffer has just the size of the
header returns without a `signal`. -/
def haveDevice (dev : ReadDevice) (pid : Nat) : ReadDevice :=
  if (dev.readers pid).len = 0 then dev.setPc pid .outside
  else
    match dev.stat.pseg, dev.stat.buf dev.stat.avail with
    | some pseg, some pbuf => deliver dev pid pbuf pseg
    | some _, none => dev.panic
    | none, _ =>
        if dev.stat.len dev.stat.avail = 0 then
          ({ dev with userpid := some pid }.setPc pid .published).signal
        else newBuffer dev pid

def runReader (dev : ReadDevice) (pid : Nat) : ReadDevice :=
  match (dev.readers pid).pc with
  | .entry => haveDevice dev pid
  | .published => dev.setPc pid .suspended
  | .woken => ({ dev with userpid := none }.setPc pid .back).wait (.reader pid)
  | .back =>
      if dev.stat.len dev.stat.avail = 0 then dev.panic else newBuffer dev pid
  | .freeing => (dev.setPc pid .outside).signal
  | .outside | .suspended => dev

/-- `resume`, which fails unless the process is suspended. -/
def resume (dev : ReadDevice) (pid : Nat) : ReadDevice :=
  if (dev.readers pid).pc = .suspended then dev.setPc pid .woken else dev

def runIoread (dev : ReadDevice) : ReadDevice :=
  let bufndx := dev.io.bufndx
  match dev.io.pc with
  | .getting =>
      ({ dev with stat := { dev.stat with freebufs := dev.stat.freebufs - 1 } }.setIo
        .hanging).wait .ioread
  | .hanging =>
      if (dev.stat.buf bufndx).isSome then dev.panic
      else
        ({ dev with
          stat := { dev.stat with
            len := Function.update dev.stat.len bufndx 0
            buf := Function.update dev.stat.buf bufndx (some fun _ => 0xcc) } }.setIo
          .inflight).signal
  | .posting =>
      ({ dev with
        stat := { dev.stat with len := Function.update dev.stat.len bufndx dev.io.iostat }
        read := dev.read ++ ((dev.stat.buf bufndx).toList) }.setIo .posted).signal
  | .posted =>
      (match dev.userpid with
        | none => dev
        | some pid => resume dev pid).setIo .stepping
  | .stepping => { dev with io := { dev.io with bufndx := nextIndex bufndx, pc := .getting } }
  | .inflight => dev

inductive ReadEvent where
  /-- A process calls `ctci_read`. -/
  | call (pid room : Nat)
  | reader (pid : Nat)
  | ioread
  /-- The read in flight is complete, and `iohook` resumes `ctci_ioread`. -/
  | complete (block : Storage) (iostat : Nat)

def readStep (dev : ReadDevice) (event : ReadEvent) : ReadDevice :=
  if dev.panicked then dev
  else
    match event with
    | .call pid room =>
        { dev with
          readers := Function.update dev.readers pid
            { pc := .entry, len := (room + 2 ^ 32 - epHlen) % 2 ^ 32 } }.wait (.reader pid)
    | .reader pid => runReader dev pid
    | .ioread => runIoread dev
    | .complete block iostat =>
        ({ dev with
          stat := { dev.stat with
            buf := Function.update dev.stat.buf dev.io.bufndx (some block) }
          io := { dev.io with iostat := iostat } }.setIo .posting).wait .ioread

/-- The process holds the device or waits for it. -/
def ReaderPc.Queued (pc : ReaderPc) : Prop := pc = .entry ∨ pc = .back ∨ pc = .freeing

def IoreadPc.Queued (pc : IoreadPc) : Prop := pc = .hanging ∨ pc = .posting

instance (pc : ReaderPc) : Decidable pc.Queued := inferInstanceAs (Decidable (_ ∨ _))
instance (pc : IoreadPc) : Decidable pc.Queued := inferInstanceAs (Decidable (_ ∨ _))

/-- A process that is in a `wait` runs when it has the device; `getbuf` returns when there is
a free buffer; a read is complete while it is in flight, and is not empty. -/
def Runs (dev : ReadDevice) : ReadEvent → Prop
  | .call pid room => (dev.readers pid).pc = .outside ∧ room < 2 ^ 32
  | .reader pid => (dev.readers pid).pc ≠ .outside ∧ (dev.readers pid).pc ≠ .suspended ∧
      ((dev.readers pid).pc.Queued → dev.sem.owner = some (.reader pid))
  | .ioread => dev.io.pc ≠ .inflight ∧ (dev.io.pc = .getting → 0 < dev.stat.freebufs) ∧
      (dev.io.pc.Queued → dev.sem.owner = some .ioread)
  | .complete _ iostat => dev.io.pc = .inflight ∧ 0 < iostat

instance (dev : ReadDevice) (event : ReadEvent) : Decidable (Runs dev event) :=
  match event with
  | .call _ _ => inferInstanceAs (Decidable (_ ∧ _))
  | .reader _ => inferInstanceAs (Decidable (_ ∧ _))
  | .ioread => inferInstanceAs (Decidable (_ ∧ _))
  | .complete _ _ => inferInstanceAs (Decidable (_ ∧ _))

/-- The slot of the block with this number. -/
def slotOf (number : Nat) : Fin ctcReadbufs := ⟨number % ctcReadbufs, Nat.mod_lt _ (by decide)⟩

/-- The device before the first read, with the buffers of the pool free. -/
def readStart : ReadDevice where
  stat := { avail := slotOf 0, pseg := none, buf := fun _ => none, len := fun _ => 0,
            freebufs := ctcReadbufs }
  userpid := none
  sem := unowned
  readers := fun _ => { pc := .outside, len := 0 }
  io := { pc := .getting, bufndx := slotOf 0, iostat := 0 }
  panicked := false
  read := []
  used := []
  given := []

end MvsXinu.CtcRead
