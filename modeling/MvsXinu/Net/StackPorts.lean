import MvsXinu.Memory.Ports

/-!
# The ports of the protocol stack

`upalloc`, `tcpserver`, `tcplq` and the processes `tcpinp`, `tcpout` and `igmp_update` create
ports. `udp_in`, `tcp_in`, `tcpkick`, `tcptimer` and `tcpsynrcvd` send to them what arrives or
comes due. `dgclose`, `tcplq` and `tcbdealloc` may lose control in `pdelete`, and what they do
behind it is a step of its own. The mutexes that order some of the calls are left out.
-/

namespace MvsXinu.StackPorts

open MvsXinu.Kernel MvsXinu.Ports

set_option autoImplicit false

def upps : Nat := 16
def upplen : Word := 50
def tcpqlen : Word := 20
def hgTsize : Word := 15

structure Upq where
  upValid : Bool
  upPort : BitVec 16
  upXport : Int

/-- A TCB. `server` is type `TCPT_SERVER` in a state that is not `TCPS_FREE`. -/
structure Tcb where
  server : Bool
  tcbLqsize : Word
  tcbListenq : Int

/-- What a process has to do when `pdelete` returns. -/
inductive Behind where
  | nothing
  | dgclose (slot : Nat)
  | tcplq (slot : Nat)
  | tcbdealloc (slot : Nat)
  deriving DecidableEq

structure Stack where
  ports : Ports
  upqs : Nat → Upq
  tcbtab : Nat → Tcb
  tcpsIport : Int
  tcpsOport : Int
  hiUport : Int
  tcpsLqsize : Word
  behind : Int → Behind

/-- Who waits for the messages of a port. -/
inductive Reader where
  | tcpinp
  | tcpout
  | igmpUpdate
  | dgread (slot : Nat)
  | accept (slot : Nat)

inductive StackEvent where
  | tcpinp (ssem rsem : Int)
  | tcpout (ssem rsem : Int)
  | igmpUpdate (ssem rsem : Int)
  | upalloc (ssem rsem : Int)
  /-- The end of `dgmopen`. -/
  | dgmopen (slot : Nat) (lport : BitVec 16)
  | dgclose (pid : Int) (slot : Nat)
  | tcpmcntl (lqsize : Word)
  | tcpserver (slot : Nat) (ssem rsem : Int)
  | tcplq (pid : Int) (slot : Nat) (lqsize : Word)
  | tcbdealloc (pid : Int) (slot : Nat)
  | returns (pid ssem rsem : Int)
  | udpIn (pid : Int) (dst : BitVec 16) (pep : Word)
  | tcpIn (pid : Int) (pep : Word)
  | tcpkick (pid : Int) (event : Word)
  | tcptimer (pid tqPort tqPortlen : Int) (tqMsg : Word)
  | tcpsynrcvd (pid : Int) (slot : Nat) (dvnum : Word)
  | reads (pid : Int) (reader : Reader)
  | go (pid : Int)
  | elsewhere (sems : Sems)

/-- The messages of a port, and the senders that wait. -/
def pcount (s : Ports) (portid : Int) : Int :=
  let scnt := scount s.sems (s.ports portid).ptssem
  if s.closed portid then Ports.syserr
  else if scnt < 0 then scount s.sems (s.ports portid).ptrsem - scnt
  else scount s.sems (s.ports portid).ptrsem

/-- What `pcreate` returns. -/
def pcreateFinds : Nat → Ports → Int
  | 0, _ => Ports.syserr
  | tries + 1, s =>
      if (s.ports s.ptnextp).ptstate = .free then s.ptnextp
      else pcreateFinds tries
        { s with ptnextp := if s.ptnextp ≤ 0 then nports - 1 else s.ptnextp - 1 }

namespace Stack

variable (s : Stack)

def call (call : PortCall) : Stack := { s with ports := portStep s.ports call }

def setUpq (slot : Nat) (upq : Upq) : Stack :=
  { s with upqs := Function.update s.upqs slot upq }

def setTcb (slot : Nat) (tcb : Tcb) : Stack :=
  { s with tcbtab := Function.update s.tcbtab slot tcb }

def put (pid : Int) (behind : Behind) : Stack :=
  { s with behind := Function.update s.behind pid behind }

/-- The port that `pcreate` returns now. -/
def created : Int := pcreateFinds nports.toNat s.ports

/-! ## Creating -/

def tcpinp (ssem rsem : Int) : Stack :=
  { s.call (.pcreate tcpqlen ssem rsem) with tcpsIport := s.created }

def tcpout (ssem rsem : Int) : Stack :=
  { s.call (.pcreate tcpqlen ssem rsem) with tcpsOport := s.created }

def igmpUpdate (ssem rsem : Int) : Stack :=
  { s.call (.pcreate hgTsize ssem rsem) with hiUport := s.created }

def upalloc (ssem rsem : Int) : Stack :=
  match (List.range upps).find? fun slot => (s.upqs slot).upValid = false with
  | none => s
  | some slot =>
      (s.call (.pcreate upplen ssem rsem)).setUpq slot
        { upValid := true, upPort := 0, upXport := s.created }

/-- `dgmopen` stores the number of the port behind `upalloc`. -/
def dgmopen (slot : Nat) (lport : BitVec 16) : Stack :=
  s.setUpq slot { s.upqs slot with upPort := lport }

def tcpserver (slot : Nat) (ssem rsem : Int) : Stack :=
  if (s.tcbtab slot).server then s
  else (s.call (.pcreate s.tcpsLqsize ssem rsem)).setTcb slot
    { server := true, tcbLqsize := s.tcpsLqsize, tcbListenq := s.created }

/-! ## Deleting -/

def dgclose (pid : Int) (slot : Nat) : Stack :=
  let pup := s.upqs slot
  let unnamed := s.setUpq slot { pup with upPort := 0 }
  (if 0 ≤ pup.upXport then unnamed.call (.pdelete pid pup.upXport true) else unnamed).put pid
    (.dgclose slot)

def tcplq (pid : Int) (slot : Nat) (lqsize : Word) : Stack :=
  let ptcb := s.tcbtab slot
  if ptcb.server then
    ((s.setTcb slot { ptcb with tcbLqsize := lqsize }).call
      (.pdelete pid ptcb.tcbListenq false)).put pid (.tcplq slot)
  else s

def tcbdealloc (pid : Int) (slot : Nat) : Stack :=
  let ptcb := s.tcbtab slot
  if ptcb.server then
    (s.call (.pdelete pid ptcb.tcbListenq false)).put pid (.tcbdealloc slot)
  else s

/-- `pdelete` has returned. -/
def returns (pid ssem rsem : Int) : Stack :=
  let back := s.put pid .nothing
  match s.behind pid with
  | .nothing => s
  | .dgclose slot => back.setUpq slot { s.upqs slot with upValid := false }
  | .tcplq slot =>
      (back.call (.pcreate (s.tcbtab slot).tcbLqsize ssem rsem)).setTcb slot
        { s.tcbtab slot with tcbListenq := s.created }
  | .tcbdealloc slot => back.setTcb slot { s.tcbtab slot with server := false }

/-! ## Sending and receiving -/

def udpIn (pid : Int) (dst : BitVec 16) (pep : Word) : Stack :=
  match (List.range upps).find? fun slot => (s.upqs slot).upPort = dst with
  | none => s
  | some slot =>
      let xport := (s.upqs slot).upXport
      if upplen.toInt ≤ pcount s.ports xport then s else s.call (.psend pid xport pep)

def tcpIn (pid : Int) (pep : Word) : Stack :=
  if tcpqlen.toInt ≤ pcount s.ports s.tcpsIport then s
  else s.call (.psend pid s.tcpsIport pep)

/-- `tcpkick` without a delay. -/
def tcpkick (pid : Int) (event : Word) : Stack :=
  if pcount s.ports s.tcpsOport < tcpqlen.toInt then s.call (.psend pid s.tcpsOport event) else s

/-- A timer is due. -/
def tcptimer (pid tqPort tqPortlen : Int) (tqMsg : Word) : Stack :=
  if pcount s.ports tqPort ≤ tqPortlen then s.call (.psend pid tqPort tqMsg) else s

/-- The connection of a server is established. -/
def tcpsynrcvd (pid : Int) (slot : Nat) (dvnum : Word) : Stack :=
  let pptcb := s.tcbtab slot
  if pptcb.server = false ∨ pptcb.tcbLqsize.toInt ≤ pcount s.ports pptcb.tcbListenq then s
  else s.call (.psend pid pptcb.tcbListenq dvnum)

def readBy : Reader → Int
  | .tcpinp => s.tcpsIport
  | .tcpout => s.tcpsOport
  | .igmpUpdate => s.hiUport
  | .dgread slot => (s.upqs slot).upXport
  | .accept slot => (s.tcbtab slot).tcbListenq

end Stack

def stackStep (s : Stack) : StackEvent → Stack
  | .tcpinp ssem rsem => s.tcpinp ssem rsem
  | .tcpout ssem rsem => s.tcpout ssem rsem
  | .igmpUpdate ssem rsem => s.igmpUpdate ssem rsem
  | .upalloc ssem rsem => s.upalloc ssem rsem
  | .dgmopen slot lport => s.dgmopen slot lport
  | .dgclose pid slot => s.dgclose pid slot
  | .tcpmcntl lqsize => { s with tcpsLqsize := lqsize }
  | .tcpserver slot ssem rsem => s.tcpserver slot ssem rsem
  | .tcplq pid slot lqsize => s.tcplq pid slot lqsize
  | .tcbdealloc pid slot => s.tcbdealloc pid slot
  | .returns pid ssem rsem => s.returns pid ssem rsem
  | .udpIn pid dst pep => s.udpIn pid dst pep
  | .tcpIn pid pep => s.tcpIn pid pep
  | .tcpkick pid event => s.tcpkick pid event
  | .tcptimer pid tqPort tqPortlen tqMsg => s.tcptimer pid tqPort tqPortlen tqMsg
  | .tcpsynrcvd pid slot dvnum => s.tcpsynrcvd pid slot dvnum
  | .reads pid reader => s.call (.preceive pid (s.readBy reader))
  | .go pid => s.call (.go pid)
  | .elsewhere sems => s.call (.elsewhere sems)

/-- What `netstart` finds. -/
def Stack.start (sems : Sems) (place : Int) : Stack where
  ports := Ports.start sems place
  upqs := fun _ => { upValid := false, upPort := 0, upXport := 0 }
  tcbtab := fun _ => { server := false, tcbLqsize := 0, tcbListenq := 0 }
  tcpsIport := 0
  tcpsOport := 0
  hiUport := 0
  tcpsLqsize := 5
  behind := fun _ => .nothing

end MvsXinu.StackPorts
