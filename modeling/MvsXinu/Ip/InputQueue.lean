import MvsXinu.Lib.Runs
import MvsXinu.Lib.Ranks
import MvsXinu.Kernel.Gpq
import MvsXinu.Kernel.ProcessTable

/-!
# IP input queues and the process that empties them

`ip_in` puts a packet on the queue of its interface and sends the index of the interface to
`ipproc`, whose one message slot stands for all the packets on all the queues. `ipgetp` clears
the slot, looks at each interface once, and then waits for a message to look again. The queues
are made with `QF_NOWAIT`: `enq` and `deq` do not block.
-/

namespace MvsXinu.IpInput

open MvsXinu.Runs MvsXinu.Ranks MvsXinu.Gpq
open MvsXinu.Kernel (Pentry Pstate)

set_option autoImplicit false

variable {Packet : Type*}

/-- The interfaces as `netup_nif` leaves them, before `ipproc` starts. -/
structure Interfaces where
  nif : Nat
  small : nif < 2 ^ 31
  down : Nat → Bool
  ipinq : Nat → Nat

/-- A packet with its precedence, and its number among those that were accepted. -/
structure Arrival (Packet : Type*) where
  number : Nat
  key : Int
  packet : Packet
  deriving DecidableEq

/-- Where `ipproc` is: outside `ipgetp`, before the look at the `i`-th interface in a row, or
in `receive`. -/
inductive Phase where
  | away
  | scan (i : Nat)
  | receiving
  deriving DecidableEq

/-- `entry` is the process table entry of `ipproc`. -/
structure Input (Packet : Type*) where
  queues : Nat → Queue (Arrival Packet)
  entry : Pentry
  phase : Phase
  ifnext : Int
  arrivals : Nat
  accepted : Nat → List (Arrival Packet)
  returned : Nat → List (Arrival Packet)

inductive InputEvent (Packet : Type*) where
  | ipIn (iface : Nat) (tos : BitVec 8) (packet : Packet)
  | ipsend (packet : Packet)
  | ipproc

def niInqsz : Nat := 30
def niLocal : Nat := 0
def ipPrec : BitVec 8 := 0xe0

/-- What `xsend` makes of the entry of its target. -/
def sentTo (entry : Pentry) (msg : BitVec 32) : Pentry :=
  if entry.pstate = .free ∨ entry.phasmsg ≠ 0 then entry
  else { entry with pmsg := msg, phasmsg := 1, pstate := entry.pstate.notified false }

theorem xsend_entry {k : Kernel.Xinu} {pid : Int} (good : ¬ Kernel.isbadpid pid)
    (msg : BitVec 32) :
    Kernel.edited k (.xsend pid msg) pid = sentTo (k.proctab pid) msg := by
  simp only [Kernel.edited, sentTo, good, false_or]
  split
  · rfl
  · exact Function.update_self _ _ _

/-- `enq` of a packet; `none` when the queue is full. -/
def Input.enqueue (w : Input Packet) (q : Nat) (key : Int) (packet : Packet) :
    Option (Input Packet) :=
  let arrival : Arrival Packet := { number := w.arrivals, key := key, packet := packet }
  match enq (w.queues q) arrival key with
  | none => none
  | some (_, queue) =>
      some { w with
             queues := Function.update w.queues q queue
             arrivals := w.arrivals + 1
             accepted := Function.update w.accepted q (w.accepted q ++ [arrival]) }

def Input.send (w : Input Packet) (iface : Nat) : Input Packet :=
  { w with entry := sentTo w.entry (BitVec.ofNat 32 iface) }

def ipIn (net : Interfaces) (w : Input Packet) (iface : Nat) (tos : BitVec 8) (packet : Packet) :
    Input Packet :=
  match w.enqueue (net.ipinq iface) (tos &&& ipPrec).toNat packet with
  | none => w
  | some queued => queued.send iface

/-- `ipsend` sends its message also when the queue was full. -/
def ipsend (net : Interfaces) (w : Input Packet) (packet : Packet) : Input Packet :=
  ((w.enqueue (net.ipinq niLocal) 0 packet).getD w).send niLocal

/-- The interface that the scan looks at. -/
def visited (net : Interfaces) (ifnext : Int) : Int := if ifnext ≥ net.nif then 0 else ifnext

/-- `NIGET`, unless the interface is down. -/
def niget (net : Interfaces) (w : Input Packet) :
    Option (Arrival Packet × Queue (Arrival Packet)) :=
  let iface := (visited net w.ifnext).toNat
  if net.down iface then none else deq (w.queues (net.ipinq iface))

/-- `receive` returns the index of an interface. -/
def Input.received (w : Input Packet) : Input Packet :=
  { w with
    entry := { w.entry with phasmsg := 0 }
    phase := .scan 0
    ifnext := w.entry.pmsg.toInt }

/-- `ipproc` runs until it may lose control: a part of `ipgetp`, or its call. -/
def ipgetp (net : Interfaces) (w : Input Packet) : Input Packet :=
  match w.phase with
  | .away => { w with entry := { w.entry with phasmsg := 0 }, phase := .scan 0 }
  | .scan i =>
      if i < net.nif then
        let iface := visited net w.ifnext
        match niget net w with
        | none => { w with phase := .scan (i + 1), ifnext := iface + 1 }
        | some (arrival, queue) =>
            let q := net.ipinq iface.toNat
            { w with
              queues := Function.update w.queues q queue
              phase := .away
              ifnext := iface
              returned := Function.update w.returned q (w.returned q ++ [arrival]) }
      else if w.entry.phasmsg = 0 then
        { w with entry := { w.entry with pstate := .recv }, phase := .receiving }
      else w.received
  | .receiving => w.received

/-- A process that waits in `receive` gets no turn. -/
def Input.blocked (w : Input Packet) : Prop := w.entry.pstate = .recv

instance (w : Input Packet) : Decidable w.blocked := inferInstanceAs (Decidable (_ = _))

def inputStep (net : Interfaces) (w : Input Packet) : InputEvent Packet → Input Packet
  | .ipIn iface tos packet => ipIn net w iface tos packet
  | .ipsend packet => ipsend net w packet
  | .ipproc =>
      if w.blocked then w else ipgetp net { w with entry := { w.entry with pstate := .curr } }

/-- What `ipgetp` returns in this turn: the interface and the packet. -/
def handed (net : Interfaces) (w : Input Packet) : Option (Nat × Arrival Packet) :=
  match w.phase with
  | .scan i =>
      if i < net.nif ∧ ¬ w.blocked then
        (niget net w).map fun found => ((visited net w.ifnext).toNat, found.1)
      else none
  | _ => none

def emptyInput : Input Packet where
  queues := fun _ => newq niInqsz
  entry := { pstate := .curr, pprio := 1, psem := 0, phasmsg := 0, pmsg := 0 }
  phase := .away
  ifnext := niLocal
  arrivals := 0
  accepted := fun _ => []
  returned := fun _ => []

/-- The packet comes from one of the interfaces. -/
def FromInterface (net : Interfaces) (_ : Input Packet) : InputEvent Packet → Prop
  | .ipIn iface _ _ => iface < net.nif
  | _ => True

/-- `later` has to wait for `first`: it has a lower precedence, or the same and came later. -/
def Waits (first later : Arrival Packet) : Prop :=
  later.key < first.key ∨ later.key = first.key ∧ first.number < later.number

/-- The turns of `ipproc` alone. -/
def alone (net : Interfaces) (turns : Nat) (w : Input Packet) : Input Packet :=
  (List.replicate turns InputEvent.ipproc).foldl (inputStep net) w

structure InputLaw (net : Interfaces) (w : Input Packet) : Prop where
  notStranded : w.phase = .receiving → w.blocked → w.entry.phasmsg = 0 ∧
    ∀ iface < net.nif, net.down iface = false → (w.queues (net.ipinq iface)).items = []
  once : ∀ q, (w.accepted q).Perm (w.returned q ++ elements (w.queues q))
  distinct : ∀ q, ((w.accepted q).map Arrival.number).Nodup
  order : ∀ iface arrival, handed net w = some (iface, arrival) →
    iface < net.nif ∧ net.down iface = false ∧
    (inputStep net w .ipproc).returned (net.ipinq iface) =
      w.returned (net.ipinq iface) ++ [arrival] ∧
    elements (w.queues (net.ipinq iface)) =
      arrival :: elements ((inputStep net w .ipproc).queues (net.ipinq iface)) ∧
    ∀ other ∈ elements ((inputStep net w .ipproc).queues (net.ipinq iface)), Waits arrival other
  drains : ∃ turns, ∀ iface < net.nif, net.down iface = false →
    ((alone net turns w).queues (net.ipinq iface)).items = [] ∧
    (w.accepted (net.ipinq iface)).Perm ((alone net turns w).returned (net.ipinq iface))

end MvsXinu.IpInput
