import MvsXinu.Lib.Checksum
import MvsXinu.Lib.Stocks
import MvsXinu.Lib.Runs
import MvsXinu.Ip.Fragment
import MvsXinu.Ip.Reassembly

/-!
# The paths of a packet buffer (`ipsend.c`, `ipputp.c`, `netwrite.c`, `local_out.c`, `udp_in.c`,
`icmp.c`, `arpdq.c`, `arpqsend.c`)

A buffer has one number from the `getbuf` that returns it to the `freebuf` that gives it back;
taken again it has another one. Of each function the model keeps where it leaves the buffers
and the fields that it branches on. A function that takes a buffer over has it in its hands
alone: what it neither frees nor puts anywhere has no owner when it returns.

Frames of other types than `EPT_IP` take no part, and neither do the requests of `arpsend`,
which none of these functions sees. What other processes decide is in `Setting` and in the
events: interfaces, the UDP table, the semaphores of the ports and the moments when a blocked
process runs again.
-/

namespace MvsXinu.Net

open MvsXinu.Octets MvsXinu.Ip

set_option autoImplicit false

abbrev Buf := Nat
abbrev IPaddr := List Octet

def ok : Int := 1
def syserr : Int := -1
def niLocal : Nat := 0
def arpTsize : Nat := 50
def arpQsize : Nat := 10
def nports : Nat := 100
def upplen : Int := 50
def tcpqlen : Int := 20

def ictEchorp : Nat := 0
def ictDestur : Nat := 3
def ictSrcq : Nat := 4
def ictRedirect : Nat := 5
def ictEchorq : Nat := 8
def ictTimex : Nat := 11
def ictParamp : Nat := 12
def ictTimerq : Nat := 13
def ictTimerp : Nat := 14
def ictInforq : Nat := 15
def ictInforp : Nat := 16
def ictMaskrq : Nat := 17
def ictMaskrp : Nat := 18

def iptIcmp : Octet := 1
def iptIgmp : Octet := 2
def iptTcp : Octet := 6
def iptUdp : Octet := 17

/-! ## The tables -/

inductive NiState where
  | up
  | down
  | testing
deriving DecidableEq

structure Netif where
  niState : NiState
  niMtu : Nat
  niNet : IPaddr
  niSubnet : IPaddr
  niBrc : IPaddr
  niNbrc : IPaddr

inductive AeState where
  | free
  | pending
  | resolved
deriving DecidableEq

/-- `none` is the queue `EMPTY`; packets wait only for an entry that is pending. -/
structure Arpentry where
  aeState : AeState
  aePni : Nat
  aePra : IPaddr
  aeQueue : Option (Gpq.Queue Buf)
  idle : aeState ≠ AeState.pending → aeQueue = none

/-- An entry of `ipfqt`; the queue of one that is not valid has been given back. -/
structure Fragq where
  ipfState : IpfState
  ipfSrc : IPaddr
  ipfId : Nat
  ipfQ : Gpq.Queue Buf
  idle : ipfState ≠ IpfState.valid → ipfQ.items = []

structure Upq where
  upPort : Nat
  upXport : Int
deriving DecidableEq

/-- A port with the counts of `ptrsem` and `ptssem`; `alloc` is the state `PTALLOC`. -/
structure Port where
  alloc : Bool
  ptseq : BitVec 32
  rcount : Int
  scount : Int
  msgs : List Buf
  idle : alloc = false → msgs = []

/-- What the rest of the system has set up. `queues` tells that `newq` finds a queue and
`accepts` that `send` to a process does not fail. -/
structure Setting where
  gateway : Bool
  nif : List Netif
  queues : Bool
  upqs : List Upq
  tcpsIport : Int
  accepts : Nat → Bool

/-- A process that stopped inside a function with a buffer. -/
inductive Task where
  /-- In the loop of `ipputp`. -/
  | fragmenting (ifn : Nat) (nh : IPaddr) (pep : Buf) (maxdlen tosend offset offindg : Int)
  /-- In `wait(ptssem)` of `psend`. -/
  | sending (port : Nat) (seq : BitVec 32) (pep : Buf)

def Task.pep : Task → Buf
  | .fragmenting _ _ pep _ _ _ _ => pep
  | .sending _ _ pep => pep

structure Stack where
  setting : Setting
  ep : Buf → Packet
  nexthop : Buf → IPaddr
  arptable : List Arpentry
  aenext : Nat
  ipfqt : List Fragq
  ports : List Port
  next : Buf
  freed : List Buf
  hands : List Buf
  mail : List Buf
  tasks : List Task
  /-- The buffers whose frames the CTC driver has copied. -/
  written : List Buf

def Arpentry.held (pae : Arpentry) : List Buf := (pae.aeQueue.map Gpq.elements).getD []

def Fragq.held (iq : Fragq) : List Buf := Gpq.elements iq.ipfQ

def Stack.owned (s : Stack) : List Buf :=
  s.freed ++ s.hands ++ s.mail ++ s.tasks.flatMap (fun task => [task.pep]) ++
    s.arptable.flatMap Arpentry.held ++ s.ipfqt.flatMap Fragq.held ++ s.ports.flatMap Port.msgs

/-! ## Buffers, `write` and `ipsend` -/

def Stack.freebuf (s : Stack) (pep : Buf) : Stack := { s with freed := pep :: s.freed }

def Stack.freeAll (s : Stack) (peps : List Buf) : Stack := { s with freed := peps ++ s.freed }

def Stack.setEp (s : Stack) (pep : Buf) (pip : Packet) : Stack :=
  { s with ep := Function.update s.ep pep pip }

/-- The packet as it is, with the address that it is sent to. -/
def Stack.addressed (s : Stack) (pep : Buf) (pip : Packet) (nh : IPaddr) : Stack :=
  { s.setEp pep pip with nexthop := Function.update s.nexthop pep nh }

/-- The buffer that `getbuf` returns, as its last user left it. -/
def Stack.getbuf (s : Stack) : Buf × Stack := (s.next, { s with next := s.next + 1 })

/-- `ctci_write`: the frame is copied into the block that is being filled. -/
def Stack.write (s : Stack) (pep : Buf) : Stack := { s with written := pep :: s.written }

def ipsendHeader (pip : Packet) (faddr : IPaddr) (datalen : Nat) (proto : Octet) : Packet :=
  let sized := putHalfword (memcpy pip 0 [0x45]) 2 (datalen + 20)
  let head := memcpy (putHalfword sized 6 0) 9 [proto]
  memcpy (if proto = iptIcmp then head else memcpy head 12 [0, 0, 0, 0]) 16 faddr

def Stack.ipsend (s : Stack) (faddr : IPaddr) (pep : Buf) (datalen : Nat) (proto : Octet) : Stack :=
  (s.setEp pep (ipsendHeader (s.ep pep) faddr datalen proto)).write pep

/-! ## `icmp` -/

def classD (addr : IPaddr) : Bool := (addr.headD 0).toNat / 16 == 14

def isbrc (nif : List Netif) (dest : IPaddr) : Bool :=
  dest == [0, 0, 0, 0] || dest == [255, 255, 255, 255] ||
    nif.any fun ni =>
      dest == ni.niBrc || dest == ni.niNbrc || dest == ni.niSubnet || dest == ni.niNet

def icType (pip : Packet) : Nat := (pip 20).toNat
def icId (pip : Packet) : Nat := halfword pip 24

def isErrorType (type : Nat) : Bool :=
  type == ictDestur || type == ictRedirect || type == ictSrcq || type == ictTimex ||
    type == ictParamp

def icerrok (nif : List Netif) (pip : Packet) : Bool :=
  if ipProto pip = iptIcmp ∧ isErrorType (icType pip) then false
  else if fragOffset pip ≠ 0 then false
  else if isbrc nif (ipDst pip) || classD (ipDst pip) then false
  else true

def isReplyType (type : Nat) : Bool :=
  type == ictEchorp || type == ictInforp || type == ictMaskrp

def isRequestType (type : Nat) : Bool :=
  type == ictEchorq || type == ictTimerq || type == ictInforq || type == ictMaskrq

/-- `pa1` of a message of this type is a buffer that `icmp` takes over. -/
def takesBuffer (type : Nat) : Bool := !(type == ictRedirect || isRequestType type)

/-- The end of `icmp`: an error message only if the packet may have one. -/
def Stack.icmpSend (s : Stack) (type : Nat) (pep : Buf) (dst : IPaddr) (datalen : Nat) : Stack :=
  if isErrorType type && !icerrok s.setting.nif (s.ep pep) then s.freebuf pep
  else s.ipsend dst pep datalen iptIcmp

def Stack.icmp (s : Stack) (type : Nat) (dst : IPaddr) (pa1 : Buf) (datalen : Nat) : Stack :=
  if type = ictRedirect then
    let (pep, s) := s.getbuf
    (s.setEp pep (s.ep pa1)).icmpSend type pep dst datalen
  else if isErrorType type || isReplyType type then s.icmpSend type pa1 dst datalen
  else if isRequestType type then
    let (pep, s) := s.getbuf
    s.icmpSend type pep dst datalen
  else if type = ictTimerp then s.freebuf pa1
  else s

/-- An error message about the packet, to its source. -/
def Stack.icmpError (s : Stack) (type : Nat) (pep : Buf) : Stack :=
  s.icmp type (ipSrc (s.ep pep)) pep (8 + (ipHlen (s.ep pep)).toNat + 8)

/-! ## Ports -/

def Stack.port (s : Stack) (portid : Int) : Option Port :=
  if 0 ≤ portid ∧ portid < nports then (s.ports[portid.toNat]?).filter Port.alloc else none

def Stack.setPort (s : Stack) (portid : Nat) (port : Port) : Stack :=
  { s with ports := s.ports.set portid port }

def Stack.pcount (s : Stack) (portid : Int) : Int :=
  match s.port portid with
  | none => syserr
  | some port => if port.scount < 0 then port.rcount - port.scount else port.rcount

/-- A message joins the queue of an allocated port. -/
def Port.accept (port : Port) (pep : Buf) : Port where
  alloc := true
  ptseq := port.ptseq
  rcount := port.rcount + 1
  scount := port.scount
  msgs := port.msgs ++ [pep]
  idle := fun isFree => absurd isFree (by decide)

def Port.emptied (port : Port) (alloc : Bool) : Port where
  alloc := alloc
  ptseq := port.ptseq + 1
  rcount := port.rcount
  scount := port.scount
  msgs := []
  idle := fun _ => rfl

def Port.dropHead (port : Port) : Port where
  alloc := port.alloc
  ptseq := port.ptseq
  rcount := port.rcount
  scount := port.scount
  msgs := port.msgs.tail
  idle := fun isFree => by rw [port.idle isFree]; rfl

/-- The callers here do not look at the result. -/
def Stack.psend (s : Stack) (portid : Int) (pep : Buf) : Stack :=
  match s.port portid with
  | none => s
  | some port =>
      let waited := { port with scount := port.scount - 1 }
      if waited.scount < 0 then
        { s.setPort portid.toNat waited with
          tasks := s.tasks ++ [.sending portid.toNat port.ptseq pep] }
      else s.setPort portid.toNat (waited.accept pep)

/-- A blocked sender runs again. -/
def Stack.resume (s : Stack) (portid : Nat) (seq : BitVec 32) (pep : Buf) : Stack :=
  match s.ports[portid]? with
  | none => s
  | some port =>
      if port.alloc ∧ port.ptseq = seq then s.setPort portid (port.accept pep) else s

/-! ## `udp_in`, `tcp_in`, `icmp_in` and `igmp_in` -/

def udpDst (pip : Packet) : Nat := halfword pip 22
def udpLen (pip : Packet) : Nat := halfword pip 24

def udpcksum (pip : Packet) (len : Nat) : Nat :=
  Checksum.cksum (Checksum.sum16 (fetch pip 12 8) + (iptUdp.toNat + len) +
    Checksum.sum16 (fetch pip 20 len))

def Stack.udpPort (s : Stack) (pep : Buf) : Option Upq :=
  s.setting.upqs.find? fun pup => pup.upPort == udpDst (s.ep pep)

def Stack.udpIn (s : Stack) (pep : Buf) : Int × Stack :=
  let pip := s.ep pep
  if halfword pip 26 ≠ 0 ∧ udpcksum pip (udpLen pip) ≠ 0 then (syserr, s.freebuf pep)
  else
    match s.udpPort pep with
    | some pup =>
        if upplen ≤ s.pcount pup.upXport then (syserr, s.freebuf pep)
        else (ok, s.psend pup.upXport pep)
    | none => (ok, s.icmpError ictDestur pep)

def Stack.tcpIn (s : Stack) (pep : Buf) : Int × Stack :=
  if tcpqlen ≤ s.pcount s.setting.tcpsIport then (syserr, s.freebuf pep)
  else (ok, s.psend s.setting.tcpsIport pep)

def Stack.icmpIn (s : Stack) (pep : Buf) : Int × Stack :=
  let pip := s.ep pep
  let len := (ipLen pip - ipHlen pip).toNat
  if icType pip = ictEchorq then (ok, s.icmp ictEchorp (ipSrc pip) pep len)
  else if icType pip = ictMaskrq then
    if s.setting.gateway then (ok, s.ipsend (ipDst pip) pep len iptIcmp) else (ok, s.freebuf pep)
  else if icType pip = ictEchorp then
    if s.setting.accepts (icId pip) then (ok, { s with mail := pep :: s.mail })
    else (ok, s.freebuf pep)
  else (ok, s.freebuf pep)

/-- The length, the version, the checksum and the type decide the result alone. -/
def Stack.igmpIn (s : Stack) (pep : Buf) : Int × Stack :=
  let pip := s.ep pep
  let len := ipLen pip - ipHlen pip
  let bad := len ≠ 8 ∨ (pip 20).toNat / 16 ≠ 1 ∨
    Checksum.cksum (Checksum.sum16 (fetch pip 20 (len / 2).toNat)) ≠ 0
  (if bad then syserr else ok, s.freebuf pep)

/-! ## Reassembly of buffers -/

def Fragq.keyed (pip : Packet) (iq : Fragq) : Bool :=
  decide (iq.ipfState ≠ IpfState.free) && decide (iq.ipfId = ipId pip) &&
    decide (iq.ipfSrc = ipSrc pip)

/-- The packets have been taken off the queue and the queue is given back. -/
def Fragq.release (iq : Fragq) (state : IpfState) : Fragq where
  ipfState := state
  ipfSrc := iq.ipfSrc
  ipfId := iq.ipfId
  ipfQ := { iq.ipfQ with items := [] }
  idle := fun _ => rfl

def Fragq.withQueue (iq : Fragq) (queue : Gpq.Queue Buf) : Fragq where
  ipfState := IpfState.valid
  ipfSrc := iq.ipfSrc
  ipfId := iq.ipfId
  ipfQ := queue
  idle := fun invalid => absurd rfl invalid

def Fragq.start (pip : Packet) : Fragq where
  ipfState := IpfState.valid
  ipfSrc := ipSrc pip
  ipfId := ipId pip
  ipfQ := Gpq.newq ipFqsize
  idle := fun _ => rfl

def Stack.setFragq (s : Stack) (index : Nat) (iq : Fragq) : Stack :=
  { s with ipfqt := s.ipfqt.set index iq }

/-- The entry that the fragment was added to, or nothing. -/
def Stack.ipfadd (s : Stack) (index : Nat) (iq : Fragq) (pep : Buf) : Option Fragq × Stack :=
  if iq.ipfState ≠ IpfState.valid then (none, s.freebuf pep)
  else
    match Gpq.enq iq.ipfQ pep (-(fragOffset (s.ep pep) : Int)) with
    | none =>
        (none, ((s.freebuf pep).freeAll iq.held).setFragq index (iq.release IpfState.bogus))
    | some (_, queue) => (some (iq.withQueue queue), s.setFragq index (iq.withQueue queue))

/-- The datagram is made in a new large buffer, and its fragments are freed. -/
def Stack.ipfcons (s : Stack) (index : Nat) (iq : Fragq) : Buf × Stack :=
  let (pep, s) := s.getbuf
  let datagram := (Ip.ipfcons (s.ep pep) (iq.held.map s.ep)).getD (s.ep pep)
  (pep, ((s.setEp pep datagram).freeAll iq.held).setFragq index (iq.release IpfState.free))

def Stack.ipfjoin (s : Stack) (index : Nat) (iq : Fragq) : Option Buf × Stack :=
  match joinVerdict (iq.held.map s.ep) with
  | Verdict.wait => (none, s)
  | Verdict.tooBig => (none, (s.freeAll iq.held).setFragq index (iq.release IpfState.free))
  | Verdict.construct =>
      let (pep, s) := s.ipfcons index iq
      (some pep, s)

def Stack.addAndJoin (s : Stack) (index : Nat) (iq : Fragq) (pep : Buf) : Option Buf × Stack :=
  match s.ipfadd index iq pep with
  | (none, s) => (none, s)
  | (some iq, s) => s.ipfjoin index iq

/-- The first entry of a table that fits, with its place. -/
def locate {Entry : Type} (table : List Entry) (fits : Entry → Bool) : Option (Nat × Entry) :=
  (table.findIdx? fits).bind fun index => (table[index]?).map fun entry => (index, entry)

def Stack.ipreass (s : Stack) (pep : Buf) : Option Buf × Stack :=
  let pip := s.ep pep
  if isFragment pip then
    match locate s.ipfqt (Fragq.keyed pip) with
    | some (index, iq) => s.addAndJoin index iq pep
    | none =>
        match locate s.ipfqt fun iq => decide (iq.ipfState = IpfState.free) with
        | none => (none, s.freebuf pep)
        | some (index, _) =>
            if s.setting.queues then (none, (s.ipfadd index (Fragq.start pip) pep).2)
            else (none, s.freebuf pep)
  else (some pep, s)

/-! ## `local_out` -/

def ipdstopts (pip : Packet) : Packet :=
  if ipHlen pip = 20 then pip
  else
    let len := ipLen pip - ipHlen pip
    let cut := memcpy pip 20 (fetch pip (ipHlen pip) len.toNat)
    memcpy (putHalfword cut 2 (20 + len).toNat) 0
      [BitVec.ofNat 8 (ipVerlen pip / 16 * 16 + 5)]

/-- The input handler of the protocol. -/
def Stack.deliver (s : Stack) (pep : Buf) : Int × Stack :=
  let proto := ipProto (s.ep pep)
  if proto = iptIcmp then s.icmpIn pep
  else if proto = iptIgmp then s.igmpIn pep
  else if proto = iptTcp then s.tcpIn pep
  else if proto = iptUdp then s.udpIn pep
  else (ok, s.icmpError ictDestur pep)

def Stack.localOut (s : Stack) (pep : Buf) : Int × Stack :=
  match s.ipreass pep with
  | (none, s) => (ok, s)
  | (some pep, s) => (s.setEp pep (ipdstopts (s.ep pep))).deliver pep

/-! ## The ARP table -/

def Stack.setArp (s : Stack) (index : Nat) (pae : Arpentry) : Stack :=
  { s with arptable := s.arptable.set index pae }

def Stack.arpfind (s : Stack) (pra : IPaddr) (ifn : Nat) : Option (Nat × Arpentry) :=
  locate s.arptable fun pae =>
    decide (pae.aeState ≠ AeState.free) && (pae.aePni == ifn) && (pae.aePra == pra)

/-- One packet of a queue that is destroyed. -/
def Stack.discard (s : Stack) (pep : Buf) : Stack :=
  if s.setting.gateway then s.icmpError ictDestur pep else s.freebuf pep

/-- The entry without its queue. -/
def Arpentry.dequeued (pae : Arpentry) : Arpentry :=
  { pae with aeQueue := none, idle := fun _ => rfl }

def Stack.arpdq (s : Stack) (index : Nat) (pae : Arpentry) : Stack :=
  pae.held.foldl Stack.discard (s.setArp index pae.dequeued)

/-- The loop of `arpalloc`. -/
def arpScan (table : List Arpentry) : Nat → Nat → Nat
  | 0, aenext => aenext
  | fuel + 1, aenext =>
      if (table[aenext]?).any fun pae => decide (pae.aeState = AeState.free) then aenext
      else arpScan table fuel ((aenext + 1) % arpTsize)

/-- The entry that is given out is written by the caller. -/
def Stack.arpalloc (s : Stack) : Nat × Stack :=
  let index := arpScan s.arptable arpTsize s.aenext
  let s := { s with aenext := (index + 1) % arpTsize }
  match s.arptable[index]? with
  | none => (index, s)
  | some pae => (index, s.arpdq index pae)

def Arpentry.pendingFor (ifn : Nat) (pra : IPaddr) (queue : Option (Gpq.Queue Buf)) : Arpentry where
  aeState := AeState.pending
  aePni := ifn
  aePra := pra
  aeQueue := queue
  idle := fun settled => absurd rfl settled

def Arpentry.resolvedFor (ifn : Nat) (pra : IPaddr) : Arpentry where
  aeState := AeState.resolved
  aePni := ifn
  aePra := pra
  aeQueue := none
  idle := fun _ => rfl

/-- The packet joins the queue of a pending entry, which may have to be made. -/
def Stack.arpEnqueue (s : Stack) (index : Nat) (pae : Arpentry) (pep : Buf) : Stack :=
  match pae.aeQueue.or (if s.setting.queues then some (Gpq.newq arpQsize) else none) with
  | none => s.freebuf pep
  | some queue =>
      match Gpq.enq queue pep 0 with
      | none => (s.setArp index (.pendingFor pae.aePni pae.aePra (some queue))).freebuf pep
      | some (_, queue) => s.setArp index (.pendingFor pae.aePni pae.aePra (some queue))

/-! ## `netwrite` and `ipputp` -/

def Stack.netwrite (s : Stack) (ifn : Nat) (pni : Netif) (pep : Buf) (len : Int) : Int × Stack :=
  let nh := s.nexthop pep
  if pni.niState ≠ NiState.up then (syserr, s.freebuf pep)
  else if ifn = niLocal then s.localOut pep
  else if isbrc s.setting.nif nh then (ok, s.write pep)
  else
    match s.arpfind nh ifn with
    | some (index, pae) =>
        if pae.aeState = AeState.resolved then (len, s.write pep)
        else if classD nh then (syserr, s)
        else (ok, s.arpEnqueue index pae pep)
    | none =>
        if classD nh then (syserr, s)
        else
          let (index, s) := s.arpalloc
          let pae := Arpentry.pendingFor ifn nh none
          (ok, (s.setArp index pae).arpEnqueue index pae pep)

def epHlen : Int := 24

def Stack.ipputp (s : Stack) (ifn : Nat) (pni : Netif) (nh : IPaddr) (pep : Buf) : Stack :=
  let pip := s.ep pep
  if pni.niState = NiState.down then s.freebuf pep
  else if ipLen pip ≤ pni.niMtu then
    let sent := putHalfword pip 10 0
    let s := s.addressed pep (putHalfword sent 10 (ipcksum sent)) nh
    (s.netwrite ifn pni pep (epHlen + ipLen pip)).2
  else if dontFragment pip then s.icmpError ictDestur pep
  else
    let room := (pni.niMtu : Int) - ipHlen pip
    { s with
      tasks := s.tasks ++
        [.fragmenting ifn nh pep (room - room % 8) (ipLen pip - ipHlen pip) 0 (packoff pip)] }

/-- One turn of the loop, or what follows it. -/
def Stack.fragment (s : Stack) (ifn : Nat) (pni : Netif) (nh : IPaddr) (pep : Buf)
    (maxdlen tosend offset offindg : Int) : Stack :=
  if maxdlen < tosend then
    let (pepnew, s) := s.getbuf
    let pip := Ip.ipfsend (s.ep pepnew) (s.ep pep) offset maxdlen offindg
    match (s.addressed pepnew pip nh).netwrite ifn pni pepnew (epHlen + ipLen pip) with
    | (rv, s) =>
        if rv ≠ ok then s.freebuf pep
        else
          { s with
            tasks := s.tasks ++ [.fragmenting ifn nh pep maxdlen (tosend - maxdlen)
              (offset + maxdlen) (offindg + maxdlen)] }
  else
    let pip := Ip.lastFragment (s.ep pep) offset tosend offindg
    ((s.addressed pep pip nh).netwrite ifn pni pep (epHlen + ipLen pip)).2

/-! ## Runs -/

inductive Event where
  | setting (setting : Setting)
  /-- A process has filled a buffer that it got. -/
  | getbuf (pip : Packet) (nexthop : IPaddr)
  | freebuf (pep : Buf)
  | ipsend (faddr : IPaddr) (pep : Buf) (datalen : Nat) (proto : Octet)
  | ipputp (ifn : Nat) (nh : IPaddr) (pep : Buf)
  | netwrite (ifn : Nat) (pep : Buf) (len : Int)
  | udpIn (pep : Buf)
  | icmp (type : Nat) (dst : IPaddr) (pa1 : Buf) (datalen : Nat)
  /-- The process in `ipputp` goes on. -/
  | fragment (task : Nat)
  /-- The process in `psend` goes on. -/
  | resume (task : Nat)
  /-- What is done to the semaphores of a port elsewhere. -/
  | counts (portid : Nat) (rcount scount : Int)
  | pcreate (portid : Nat)
  /-- `preset` and `pdelete`, with `freebuf` for the messages. -/
  | pclear (portid : Nat) (alloc : Bool)
  | preceive (portid : Nat)
  /-- A process takes the message that `icmp_in` sent it. -/
  | receive (pep : Buf)
  /-- `arp_in` for a frame from `spa`, with `forUs` if its target is this host. -/
  | arpIn (ifn : Nat) (spa : IPaddr) (forUs : Bool)
  /-- `arptimer` gives the entry up. -/
  | arpExpire (index : Nat)
  /-- `ipftimer` gives the entry up. -/
  | ipfExpire (index : Nat)

/-- The call takes the buffer from the hands of a process. -/
def Stack.taken (s : Stack) (pep : Buf) : Stack := { s with hands := s.hands.erase pep }

def Stack.call (s : Stack) (pep : Buf) (function : Stack → Stack) : Stack :=
  if pep ∈ s.hands then function (s.taken pep) else s

def Stack.withNetif (s : Stack) (ifn : Nat) (function : Netif → Stack) : Stack :=
  (s.setting.nif[ifn]?).elim s function

/-- The loop of `arpqsend`, over the packets of an entry that has been resolved. -/
def Stack.arpqsend (s : Stack) (ifn : Nat) (pni : Netif) (peps : List Buf) : Stack :=
  peps.foldl (fun s pep => (s.netwrite ifn pni pep (epHlen + ipLen (s.ep pep))).2) s

def Stack.arpIn (s : Stack) (ifn : Nat) (pni : Netif) (spa : IPaddr) (forUs : Bool) : Stack :=
  if forUs then
    match s.arpfind spa ifn with
    | none =>
        let (index, s) := s.arpalloc
        s.setArp index (.resolvedFor ifn spa)
    | some (index, pae) =>
        if pae.aeState = AeState.pending then
          (s.setArp index (.resolvedFor ifn spa)).arpqsend ifn pni pae.held
        else s
  else s

def Arpentry.freed (pae : Arpentry) : Arpentry :=
  { pae.dequeued with aeState := AeState.free, idle := fun _ => rfl }

def Stack.arpExpire (s : Stack) (index : Nat) (pae : Arpentry) : Stack :=
  pae.held.foldl Stack.discard (s.setArp index pae.freed)

/-- The first fragment goes back in a message, the others are freed. -/
def Stack.ipfExpire (s : Stack) (index : Nat) (iq : Fragq) : Stack :=
  let s := s.setFragq index (iq.release IpfState.free)
  match iq.held with
  | [] => s
  | first :: rest => (s.icmpError ictTimex first).freeAll rest

def step (s : Stack) : Event → Stack
  | .setting setting => { s with setting := setting }
  | .getbuf pip nexthop =>
      { s.addressed s.next pip nexthop with
        next := s.next + 1
        hands := s.next :: s.hands }
  | .freebuf pep => s.call pep fun s => s.freebuf pep
  | .ipsend faddr pep datalen proto => s.call pep fun s => s.ipsend faddr pep datalen proto
  | .ipputp ifn nh pep => s.withNetif ifn fun pni => s.call pep fun s => s.ipputp ifn pni nh pep
  | .netwrite ifn pep len =>
      s.withNetif ifn fun pni => s.call pep fun s => (s.netwrite ifn pni pep len).2
  | .udpIn pep => s.call pep fun s => (s.udpIn pep).2
  | .icmp type dst pa1 datalen =>
      if takesBuffer type then s.call pa1 fun s => s.icmp type dst pa1 datalen
      else s.icmp type dst pa1 datalen
  | .fragment task =>
      match s.tasks[task]? with
      | some (.fragmenting ifn nh pep maxdlen tosend offset offindg) =>
          s.withNetif ifn fun pni =>
            { s with tasks := s.tasks.eraseIdx task }.fragment ifn pni nh pep maxdlen tosend offset
              offindg
      | _ => s
  | .resume task =>
      match s.tasks[task]? with
      | some (.sending portid seq pep) =>
          { s with tasks := s.tasks.eraseIdx task }.resume portid seq pep
      | _ => s
  | .counts portid rcount scount =>
      (s.ports[portid]?).elim s fun port =>
        s.setPort portid { port with rcount := rcount, scount := scount }
  | .pcreate portid =>
      (s.ports[portid]?).elim s fun port =>
        if port.alloc then s else s.setPort portid (port.emptied true)
  | .pclear portid alloc =>
      (s.ports[portid]?).elim s fun port =>
        (s.freeAll port.msgs).setPort portid (port.emptied alloc)
  | .preceive portid =>
      (s.ports[portid]?).elim s fun port =>
        match port.msgs with
        | [] => s
        | pep :: _ => { s.setPort portid port.dropHead with hands := pep :: s.hands }
  | .receive pep =>
      if pep ∈ s.mail then { s with mail := s.mail.erase pep, hands := pep :: s.hands } else s
  | .arpIn ifn spa forUs => s.withNetif ifn fun pni => s.arpIn ifn pni spa forUs
  | .arpExpire index => (s.arptable[index]?).elim s fun pae => s.arpExpire index pae
  | .ipfExpire index => (s.ipfqt[index]?).elim s fun iq => s.ipfExpire index iq

def arpinit : List Arpentry :=
  List.replicate arpTsize ⟨AeState.free, 0, [], none, fun _ => rfl⟩

def ipfinit : List Fragq :=
  List.replicate ipFqsize ⟨IpfState.free, [], 0, Gpq.newq ipFqsize, fun _ => rfl⟩

def start (setting : Setting) (storage : Buf → Packet) : Stack where
  setting := setting
  ep := storage
  nexthop := fun _ => [0, 0, 0, 0]
  arptable := arpinit
  aenext := 0
  ipfqt := ipfinit
  ports := List.replicate nports ⟨false, 0, 0, 0, [], fun _ => rfl⟩
  next := 0
  freed := []
  hands := []
  mail := []
  tasks := []
  written := []

end MvsXinu.Net
