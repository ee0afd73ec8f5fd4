import Mathlib.Data.BitVec
import Mathlib.Data.List.Range
import MvsXinu.Lib.Runs

/-!
# UDP port numbers and the datagram devices

`dgmopen` looks under `udpmutex` whether its port number is in use, or picks one, and releases
the mutex. It then parses the remote address, which may block, gets an entry from `upalloc`,
and stores the number in the entry without the mutex. `udp_in` searches the numbers under the
mutex and does not look at `up_valid`.
-/

namespace MvsXinu.Datagrams

open MvsXinu.Runs

set_option autoImplicit false

variable {Body : Type*}

structure Datagram (Body : Type*) where
  dst : BitVec 16
  intact : Bool
  body : Body
  deriving DecidableEq

structure Upq where
  valid : Bool
  port : BitVec 16
  pid : Int
  xport : Int
  deriving DecidableEq

structure Dgblk where
  lport : BitVec 16
  xport : Int
  upq : Nat
  deriving DecidableEq

def ndg : Nat := 16
def upps : Nat := ndg
def upplen : Nat := 50
def nports : Int := 100
def ulport : BitVec 16 := 2050
def anylport : BitVec 32 := 0
def syserr : Int := -1
def badpid : Int := -1

def isbadport (portid : Int) : Prop := portid < 0 ∨ nports ≤ portid
def isbadpid (pid : Int) : Prop := pid ≤ 0 ∨ 50 ≤ pid

instance (portid : Int) : Decidable (isbadport portid) := inferInstanceAs (Decidable (_ ∨ _))
instance (pid : Int) : Decidable (isbadpid pid) := inferInstanceAs (Decidable (_ ∨ _))

/-- How far the open or the close of a device is; `free` is `DGS_FREE`. `overtaken` is set when
another open stores the same port number between the check and the store of this one. -/
inductive Phase where
  | free
  | opening (lport : BitVec 32)
  | checked (lport : BitVec 32) (overtaken : Bool)
  | allocated (lport : BitVec 32) (upi : Nat) (overtaken : Bool)
  | opened
  | closing
  | freeing
  deriving DecidableEq

/-- Who loses control while it has `udpmutex`: `dgclose` in `pdelete`, `udp_in` in `psend`. -/
inductive Owner where
  | nobody
  | deleting (dev : Nat)
  | delivering (pup : Nat)
  deriving DecidableEq

/-- `ports` has the messages of each allocated Xinu port. -/
structure Udp (Body : Type*) where
  upqs : Nat → Upq
  dgtab : Nat → Dgblk
  phase : Nat → Phase
  ports : Int → Option (List (Datagram Body))
  ptnextp : Int
  lastport : BitVec 16
  udpmutex : Owner

inductive UdpEvent (Body : Type*) where
  | dgmopen (lport : BitVec 32)
  | check (dev : Nat)
  | parseFails (dev : Nat)
  | upalloc (dev : Nat)
  | store (dev : Nat)
  | dgclose (dev : Nat)
  | delete (dev : Nat)
  | release
  | free (dev : Nat)
  | udpIn (datagram : Datagram Body)
  | sent
  | dgread (dev : Nat) (pid : Int)
  | pcreate
  | pdelete (portid : Int)

section Operations

variable (s : Udp Body)

def Udp.setUpq (i : Nat) (entry : Upq) : Udp Body :=
  { s with upqs := Function.update s.upqs i entry }

def Udp.setPhase (dev : Nat) (phase : Phase) : Udp Body :=
  { s with phase := Function.update s.phase dev phase }

/-! ## Xinu ports -/

def pcreateLoop : Nat → Udp Body → Int × Udp Body
  | 0, s => (syserr, s)
  | tries + 1, s =>
      let passed := { s with ptnextp := if s.ptnextp ≤ 0 then nports - 1 else s.ptnextp - 1 }
      if s.ports s.ptnextp = none then
        (s.ptnextp, { passed with ports := Function.update s.ports s.ptnextp (some []) })
      else pcreateLoop tries passed

def pcreate : Int × Udp Body := pcreateLoop nports.toNat s

def pdelete (portid : Int) : Udp Body :=
  if isbadport portid then s else { s with ports := Function.update s.ports portid none }

/-! ## Opening -/

def dgalloc : Option Nat := (List.range ndg).find? fun i => s.phase i = .free

def inuse (port : BitVec 16) : Prop := ∃ i < upps, (s.upqs i).valid = true ∧ (s.upqs i).port = port

instance (port : BitVec 16) : Decidable (inuse s port) :=
  inferInstanceAs (Decidable (∃ i < upps, _))

def nextport (lastport : BitVec 16) : BitVec 16 :=
  if lastport + 1 = 0 then ulport else lastport + 1

/-- The loop of `udpnxtp`; one more pass than there are entries ends it. -/
def udpnxtp : Nat → BitVec 16 → BitVec 16
  | 0, lastport => lastport
  | passes + 1, lastport =>
      if inuse s (nextport lastport) then udpnxtp passes (nextport lastport)
      else nextport lastport

/-- The first part of `dgmopen`, under the mutex. -/
def check (dev : Nat) (lport : BitVec 32) : Udp Body :=
  if lport = anylport then
    let port := udpnxtp s (upps + 1) s.lastport
    { s.setPhase dev (.checked (port.setWidth 32) false) with lastport := port }
  else if ∃ i < upps, (s.upqs i).valid = true ∧ (s.upqs i).port.setWidth 32 = lport then
    s.setPhase dev .free
  else s.setPhase dev (.checked lport false)

def freeUpq : Option Nat := (List.range upps).find? fun i => (s.upqs i).valid = false

def freshUpq (xport : Int) : Upq where
  valid := true
  port := 0
  pid := badpid
  xport := xport

def upalloc (dev : Nat) (lport : BitVec 32) (overtaken : Bool) : Udp Body :=
  match freeUpq s with
  | none => s.setPhase dev .free
  | some i =>
      let created := pcreate s
      (created.2.setUpq i (freshUpq created.1)).setPhase dev (.allocated lport i overtaken)

/-- An open of this port that is between its check and its store. -/
def Phase.overtake (port : BitVec 16) : Phase → Phase
  | .checked lport overtaken =>
      .checked lport (overtaken || decide (lport.setWidth 16 = port))
  | .allocated lport upi overtaken =>
      .allocated lport upi (overtaken || decide (lport.setWidth 16 = port))
  | phase => phase

/-- The end of `dgmopen`, after `upalloc` has released the mutex. -/
def store (dev : Nat) (lport : BitVec 32) (upi : Nat) : Udp Body :=
  let port : BitVec 16 := lport.setWidth 16
  { s.setUpq upi { s.upqs upi with port := port } with
    dgtab := Function.update s.dgtab dev
      { lport := port, xport := (s.upqs upi).xport, upq := upi }
    phase := Function.update (fun other => (s.phase other).overtake port) dev .opened }

/-! ## Closing -/

def deletes (dev : Nat) : Udp Body :=
  let pup := (s.dgtab dev).upq
  let entry := s.upqs pup
  let cleared := s.setUpq pup { entry with port := 0 }
  { (if entry.xport ≥ 0 then pdelete cleared entry.xport else cleared) with
    udpmutex := .deleting dev }

def releases (dev : Nat) : Udp Body :=
  let pup := (s.dgtab dev).upq
  { (s.setUpq pup { s.upqs pup with valid := false }).setPhase dev .freeing with
    udpmutex := .nobody }

/-! ## Input -/

inductive Verdict where
  | badChecksum
  | unreachable
  | full
  | queued (pup : Nat)
  | lost (pup : Nat)
  deriving DecidableEq

def findUpq (port : BitVec 16) : Option Nat := (List.range upps).find? fun i => (s.upqs i).port = port

def portOf (portid : Int) : Option (List (Datagram Body)) :=
  if isbadport portid then none else s.ports portid

/-- `pcount` and `psend` return `SYSERR` for a port that is not allocated, and `udp_in` takes
that for an empty port and for success. -/
def verdict (datagram : Datagram Body) : Verdict :=
  if datagram.intact = false then .badChecksum
  else
    match findUpq s datagram.dst with
    | none => .unreachable
    | some pup =>
        match portOf s (s.upqs pup).xport with
        | none => .lost pup
        | some msgs => if msgs.length ≥ upplen then .full else .queued pup

def udpIn (datagram : Datagram Body) : Udp Body :=
  match verdict s datagram with
  | .queued pup =>
      let xport := (s.upqs pup).xport
      { s with
        ports := Function.update s.ports xport
          ((s.ports xport).map fun msgs => msgs ++ [datagram])
        udpmutex := .delivering pup }
  | .lost pup => { s with udpmutex := .delivering pup }
  | _ => s

/-- The waiting reader is told, and the mutex released. -/
def sent (pup : Nat) : Udp Body :=
  { (if isbadpid (s.upqs pup).pid then s
      else s.setUpq pup { s.upqs pup with pid := badpid }) with
    udpmutex := .nobody }

/-- A datagram is taken, or the reader waits for one. -/
def dgread (dev : Nat) (pid : Int) : Udp Body :=
  let block := s.dgtab dev
  match portOf s block.xport with
  | some (_ :: rest) => { s with ports := Function.update s.ports block.xport (some rest) }
  | _ =>
      if isbadpid (s.upqs block.upq).pid then
        s.setUpq block.upq { s.upqs block.upq with pid := pid }
      else s

end Operations

/-- A process that would have to wait for the mutex does not go on. -/
def udpStep (s : Udp Body) (event : UdpEvent Body) : Udp Body :=
  match event with
  | .dgmopen lport =>
      match dgalloc s with
      | none => s
      | some dev => s.setPhase dev (.opening lport)
  | .check dev =>
      match s.phase dev, s.udpmutex with
      | .opening lport, .nobody => check s dev lport
      | _, _ => s
  | .parseFails dev =>
      match s.phase dev with
      | .checked _ _ => s.setPhase dev .free
      | _ => s
  | .upalloc dev =>
      match s.phase dev, s.udpmutex with
      | .checked lport overtaken, .nobody => upalloc s dev lport overtaken
      | _, _ => s
  | .store dev =>
      match s.phase dev with
      | .allocated lport upi _ => store s dev lport upi
      | _ => s
  | .dgclose dev => if s.phase dev = .opened then s.setPhase dev .closing else s
  | .delete dev =>
      match s.phase dev, s.udpmutex with
      | .closing, .nobody => deletes s dev
      | _, _ => s
  | .release =>
      match s.udpmutex with
      | .deleting dev => releases s dev
      | _ => s
  | .free dev => if s.phase dev = .freeing then s.setPhase dev .free else s
  | .udpIn datagram => if s.udpmutex = .nobody then udpIn s datagram else s
  | .sent =>
      match s.udpmutex with
      | .delivering pup => sent s pup
      | _ => s
  | .dgread dev pid => dgread s dev pid
  | .pcreate => (pcreate s).2
  | .pdelete portid => pdelete s portid

/-- As `udpinit` leaves the tables, with no Xinu port in use. -/
def udpinit : Udp Body where
  upqs := fun _ => { valid := false, port := 0, pid := 0, xport := 0 }
  dgtab := fun _ => { lport := 0, xport := 0, upq := 0 }
  phase := fun _ => .free
  ports := fun _ => none
  ptnextp := nports - 1
  lastport := ulport
  udpmutex := .nobody

/-- The Xinu port of a valid entry that `dgclose` has not deleted. -/
def Live (s : Udp Body) (i : Nat) : Prop :=
  (s.upqs i).valid = true ∧
    match s.udpmutex with
    | .deleting dev => (s.dgtab dev).upq ≠ i
    | _ => True

instance (s : Udp Body) (i : Nat) : Decidable (Live s i) := by
  dsimp only [Live]
  cases s.udpmutex <;> dsimp only <;> infer_instance

/-- What the rest of the system promises: only an open device is closed, and nobody else
deletes the port of an entry. -/
def Promised (s : Udp Body) : UdpEvent Body → Prop
  | .dgclose dev => s.phase dev = .opened
  | .pdelete portid => ∀ i < upps, Live s i → (s.upqs i).xport ≠ portid
  | _ => True

/-- No other open stores the same port between the check and the store of this one, an explicit
port fits its field, and no datagram for port 0 finds a closed entry whose Xinu port number is in
use again. -/
def Untangled (s : Udp Body) : UdpEvent Body → Prop
  | .store dev =>
      match s.phase dev with
      | .allocated lport _ overtaken => overtaken = false ∧ lport.toNat < 2 ^ 16
      | _ => True
  | .udpIn datagram =>
      datagram.dst = 0 → ∀ i < upps, (s.upqs i).port = 0 → (∀ j < i, (s.upqs j).port ≠ 0) →
        (s.upqs i).valid = true ∨ portOf s (s.upqs i).xport = none
  | _ => True

def Guarded (s : Udp Body) (event : UdpEvent Body) : Prop :=
  Promised s event ∧ Untangled s event

instance (s : Udp Body) (event : UdpEvent Body) : Decidable (Promised s event) := by
  cases event <;> dsimp only [Promised] <;> infer_instance

instance (s : Udp Body) (event : UdpEvent Body) : Decidable (Untangled s event) := by
  cases event with
  | store dev =>
      dsimp only [Untangled]
      cases s.phase dev <;> dsimp only <;> infer_instance
  | _ => dsimp only [Untangled]; infer_instance

instance (s : Udp Body) (event : UdpEvent Body) : Decidable (Guarded s event) :=
  inferInstanceAs (Decidable (_ ∧ _))

def Unique (s : Udp Body) : Prop :=
  ∀ i < upps, ∀ j < upps, (s.upqs i).valid = true → (s.upqs j).valid = true →
    (s.upqs i).port = (s.upqs j).port → (s.upqs i).port ≠ 0 → i = j

/-- The datagram is queued for one valid entry that has its port, or nothing is queued. -/
def Delivered (s : Udp Body) (datagram : Datagram Body) : Prop :=
  match verdict s datagram with
  | .queued pup =>
      pup < upps ∧ (s.upqs pup).valid = true ∧ (s.upqs pup).port = datagram.dst ∧
      (∀ i < upps, (s.upqs i).valid = true → (s.upqs i).xport = (s.upqs pup).xport → i = pup) ∧
      ∃ msgs, s.ports (s.upqs pup).xport = some msgs ∧
        (udpIn s datagram).ports =
          Function.update s.ports (s.upqs pup).xport (some (msgs ++ [datagram]))
  | .unreachable =>
      (∀ i < upps, (s.upqs i).valid = true → (s.upqs i).port ≠ datagram.dst) ∧
      (udpIn s datagram).ports = s.ports
  | _ => (udpIn s datagram).ports = s.ports

structure UdpLaw (s : Udp Body) (event : UdpEvent Body) : Prop where
  unique : Unique (udpStep s event)
  delivered : ∀ datagram, event = .udpIn datagram → s.udpmutex = .nobody → Delivered s datagram

end MvsXinu.Datagrams
