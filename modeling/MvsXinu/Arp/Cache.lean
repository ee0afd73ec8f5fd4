import Mathlib.Data.List.FinRange
import Mathlib.Logic.Function.Basic
import MvsXinu.Kernel.Gpq
import MvsXinu.Lib.Runs
import MvsXinu.Lib.Storage

/-!
# The ARP cache (`netwrite.c`, `arp_in.c`, `arpadd.c`, `arpalloc.c`, `arpdq.c`, `arpfind.c`,
`arpqsend.c`, `arpsend.c`, `arptimer.c`)

Interrupts are disabled in most of this code, but `getbuf`, `write`, `freebuf` and `icmp` let
other processes run. A process is a stack of frames, one for each call that is not finished, and
a turn of a process goes on to the next of these points. A turn is at most one round of a loop,
so that there are at least the interleavings of the code.

An ARP queue is made and given back by number, but only its entry knows the number, and the queue
calls themselves do not block (`QF_NOWAIT`): the queue is a part of the entry here. That a memory
copy stays within its array is left to the addresses' lengths (`Arp.Ethernet`).
-/

namespace MvsXinu.Arp

open MvsXinu.Octets (Octet)

set_option autoImplicit false

def arpTsize : Nat := 50
def arpQsize : Nat := 10
def arpTimeout : Int := 600
def arpInf : Int := 0x7fffffff
def arpResend : Int := 1
def arpMaxretry : Int := 4
def epAlen : Nat := 6
def ipAlen : Nat := 4
def eptIp : BitVec 16 := 0x0800
def arHardware : BitVec 16 := 1
def arRequest : BitVec 16 := 1
def arReply : BitVec 16 := 2
def niLocal : Nat := 0

instance : NeZero arpTsize := ⟨by decide⟩

abbrev Memory := Nat → Octet

def memcpy (dst src : Memory) (count : Nat) : Memory :=
  fun place => if place < count then src place else dst place

/-- Copy to an offset. -/
def store (dst : Memory) (offset : Nat) (src : Memory) (count : Nat) : Memory :=
  fun place => if offset ≤ place ∧ place < offset + count then src (place - offset) else dst place

/-- `memcmp` finds no difference. -/
def Same (count : Nat) (one other : Memory) : Prop := ∀ place < count, one place = other place

instance (count : Nat) (one other : Memory) : Decidable (Same count one other) :=
  inferInstanceAs (Decidable (∀ place < count, one place = other place))

/-! ## The data -/

/-- A buffer of the network pool, with the interface it is written on. -/
structure Packet where
  buf : Nat
  ifn : Nat
  nexthop : Memory
  type : BitVec 16
  len : Nat
  dst : Memory := fun _ => 0

structure Arp where
  hwtype : BitVec 16 := arHardware
  prtype : BitVec 16 := eptIp
  hwlen : Nat := epAlen
  prlen : Nat := ipAlen
  op : BitVec 16
  addrs : Memory

section Macros

variable (parp : Arp)

def Arp.sha : Memory := parp.addrs
def Arp.spa : Memory := fun place => parp.addrs (parp.hwlen + place)
def Arp.tha : Memory := fun place => parp.addrs (parp.hwlen + parp.prlen + place)
def Arp.tpa : Memory := fun place => parp.addrs (parp.hwlen * 2 + parp.prlen + place)

/-- The lengths of an Ethernet and an IP address. -/
def Arp.Ethernet : Prop := parp.hwlen = epAlen ∧ parp.prlen = ipAlen

instance : Decidable parp.Ethernet := inferInstanceAs (Decidable (_ ∧ _))

end Macros

inductive ArpState where
  | free
  | pending
  | resolved
deriving DecidableEq

structure Arpentry where
  state : ArpState := .free
  hwtype : BitVec 16 := 0
  prtype : BitVec 16 := 0
  hwlen : Nat := 0
  prlen : Nat := 0
  pni : Nat := 0
  queue : Option (Gpq.Queue Packet) := none
  attempts : Int := 0
  ttl : Int := 0
  hwa : Memory := fun _ => 0
  pra : Memory := fun _ => 0

/-- The packets that wait for the entry. -/
def Arpentry.waiting (pae : Arpentry) : List Packet := (pae.queue.map Gpq.elements).getD []

structure Netif where
  hwtype : BitVec 16 := arHardware
  hwa : Memory
  hwb : Memory
  ip : Memory
  net : Memory
  subnet : Memory
  brc : Memory
  nbrc : Memory

structure Setting where
  nif : Nat → Netif
  count : Nat
  gateway : Bool

/-- What became of a packet. `lost` is a buffer that nobody gave back. -/
inductive Fate where
  | sent (ifn : Nat)
  | broadcast (ifn : Nat)
  | localOut
  | freed
  | unreachable
  | lost
deriving DecidableEq

structure Deed where
  pep : Packet
  fate : Fate

/-- Who asked `arpalloc` for an entry, and with what. -/
inductive Claimant where
  | netwrite (ifn : Nat) (pep : Packet)
  | arpIn (ifn : Nat) (parp : Arp)

inductive Frame where
  /-- The loop of `arpdq`; `arpalloc` called it for a claimant, `arptimer` for none. -/
  | arpdq (index : Fin arpTsize) (claimant : Option Claimant)
  /-- `arpsend`, in `getbuf`. -/
  | arpsend (index : Fin arpTsize) (pni : Nat)
  /-- `netwrite`, behind `arpsend`. -/
  | enqueue (index : Fin arpTsize) (pep : Packet)
  /-- The loop of `arpqsend`, and the rest of `arp_in` behind it. -/
  | arpqsend (index : Fin arpTsize) (pni ifn : Nat) (parp : Arp)
  | arptimer (index : Nat) (gran : Int)

/-- `heard` and `said` are the ARP packets that came in and went out, and `taken` the entries
that were handed out, resolved or given up. -/
structure Cache where
  arptable : Fin arpTsize → Arpentry := fun _ => {}
  aenext : Fin arpTsize := 0
  up : Nat → Bool := fun _ => true
  log : List Deed := []
  heard : List (Nat × Arp) := []
  said : List (Nat × Arp) := []
  taken : List (Fin arpTsize) := []

abbrev Turn := Cache × List Frame

section Functions

variable (setting : Setting) (s : Cache)

def Cache.setEntry (index : Fin arpTsize) (pae : Arpentry) : Cache :=
  { s with arptable := Function.update s.arptable index pae }

def Cache.setQueue (index : Fin arpTsize) (queue : Option (Gpq.Queue Packet)) : Cache :=
  s.setEntry index { s.arptable index with queue := queue }

def Cache.done (pep : Packet) (fate : Fate) : Cache :=
  { s with log := s.log ++ [⟨pep, fate⟩] }

def Cache.take (index : Fin arpTsize) : Cache := { s with taken := s.taken ++ [index] }

def Cache.say (ifn : Nat) (parp : Arp) : Cache := { s with said := s.said ++ [(ifn, parp)] }

/-- The queue of an entry is overwritten with `EMPTY`. -/
def Cache.forget (index : Fin arpTsize) : Cache :=
  { s with log := s.log ++ (s.arptable index).waiting.map fun pep => ⟨pep, .lost⟩ }

def zeros : Memory := fun _ => 0

def isbrc (dest : Memory) : Bool :=
  decide (Same ipAlen dest zeros) || decide (Same ipAlen dest fun _ => 255) ||
    (List.range setting.count).any fun inum =>
      decide (Same ipAlen dest (setting.nif inum).brc) ||
        decide (Same ipAlen dest (setting.nif inum).nbrc) ||
        decide (Same ipAlen dest (setting.nif inum).subnet) ||
        decide (Same ipAlen dest (setting.nif inum).net)

def ipClassD (dest : Memory) : Bool := dest 0 &&& 0xf0 == 0xe0

/-! ## The table -/

def arpfind (table : Fin arpTsize → Arpentry) (pra : Memory) (prtype : BitVec 16) (pni : Nat) :
    Option (Fin arpTsize) :=
  (List.finRange arpTsize).find? fun index =>
    decide ((table index).state ≠ .free) && (table index).prtype == prtype &&
      (table index).pni == pni && decide (Same (table index).prlen (table index).pra pra)

/-- The loop of `arpalloc`. -/
def arpScan (table : Fin arpTsize → Arpentry) : Nat → Fin arpTsize → Fin arpTsize
  | 0, aenext => aenext
  | turns + 1, aenext =>
      if (table aenext).state = .free then aenext else arpScan table turns (aenext + 1)

/-! ## ARP packets -/

/-- The request that `arpsend` builds for an entry. -/
def request (pae : Arpentry) (ni : Netif) : Arp where
  hwtype := pae.hwtype
  prtype := pae.prtype
  hwlen := pae.hwlen
  prlen := pae.prlen
  op := arRequest
  addrs := store (store (store (store zeros 0 ni.hwa pae.hwlen) pae.hwlen ni.ip pae.prlen)
    (pae.hwlen + pae.prlen) zeros pae.hwlen) (pae.hwlen * 2 + pae.prlen) pae.pra pae.prlen

/-- The reply that `arp_in` makes of a request. -/
def Arp.reply (parp : Arp) (ni : Netif) : Arp :=
  let target := store parp.addrs (parp.hwlen * 2 + parp.prlen) parp.spa parp.prlen
  let both := store target (parp.hwlen + parp.prlen) parp.sha parp.hwlen
  { parp with
    op := arReply
    addrs := store (store both 0 ni.hwa epAlen) parp.hwlen ni.ip ipAlen }

def Cache.arpsend (index : Fin arpTsize) (pni : Nat) (found : Bool) : Cache :=
  if found then s.say pni (request (s.arptable index) (setting.nif pni)) else s

/-- The end of `arp_in`. -/
def Cache.answer (ifn : Nat) (parp : Arp) : Cache :=
  if parp.op = arRequest then s.say ifn (parp.reply (setting.nif ifn)) else s

/-! ## Entries that are handed out -/

/-- `netwrite`, behind `arpalloc`. -/
def Cache.pend (index : Fin arpTsize) (ifn : Nat) (pep : Packet) : Cache :=
  let pae := s.arptable index
  (s.forget index).setEntry index { pae with
    state := .pending
    hwtype := arHardware
    prtype := eptIp
    hwlen := epAlen
    prlen := ipAlen
    pni := ifn
    queue := none
    pra := memcpy pae.pra pep.nexthop ipAlen
    attempts := 0
    ttl := arpResend }

/-- `arpadd`, behind `arpalloc`. -/
def Cache.arpadd (index : Fin arpTsize) (ifn : Nat) (parp : Arp) : Cache :=
  let pae := s.arptable index
  (s.forget index).setEntry index { pae with
    state := .resolved
    hwtype := parp.hwtype
    prtype := parp.prtype
    hwlen := parp.hwlen
    prlen := parp.prlen
    pni := ifn
    queue := none
    hwa := memcpy pae.hwa parp.sha parp.hwlen
    pra := memcpy pae.pra parp.spa parp.prlen
    ttl := arpTimeout }

/-- The claimant goes on with its entry. -/
def Cache.grant (index : Fin arpTsize) : Claimant → Turn
  | .netwrite ifn pep => (s.pend index ifn pep, [.arpsend index ifn, .enqueue index pep])
  | .arpIn ifn parp => ((s.arpadd index ifn parp).answer setting ifn parp, [])

def Arpentry.discarded (pae : Arpentry) : Fate :=
  if setting.gateway ∧ pae.prtype = eptIp then .unreachable else .freed

/-- A round of `arpdq`. Behind the last one `arpalloc` goes on at once. -/
def Cache.arpdq (index : Fin arpTsize) (claimant : Option Claimant) : Turn :=
  let pae := s.arptable index
  match pae.queue.bind Gpq.deq with
  | some (pep, queue) =>
      ((s.setQueue index (some queue)).done pep (pae.discarded setting),
        [.arpdq index claimant])
  | none =>
      let s := s.setQueue index none
      match claimant with
      | none => (s, [])
      | some claimant => s.grant setting index claimant

def Cache.arpalloc (claimant : Claimant) : Turn :=
  let index := arpScan s.arptable arpTsize s.aenext
  let s := { s with aenext := index + 1 }.take index
  if (s.arptable index).state = .pending ∧ (s.arptable index).queue.isSome then
    s.arpdq setting index (some claimant)
  else s.grant setting index claimant

/-! ## `netwrite` -/

/-- The end of `netwrite`. `found` tells that `newq` finds a queue. -/
def Cache.enqueue (index : Fin arpTsize) (pep : Packet) (found : Bool) : Cache :=
  match (s.arptable index).queue.or (if found then some (Gpq.newq arpQsize) else none) with
  | none => s.done pep .freed
  | some queue =>
      match Gpq.enq queue pep 0 with
      | none => (s.setQueue index (some queue)).done pep .freed
      | some (_, queue) => s.setQueue index (some queue)

def Cache.netwrite (ifn : Nat) (pep : Packet) (found : Bool) : Turn :=
  if s.up ifn = false then (s.done pep .freed, [])
  else if ifn = niLocal then (s.done pep .localOut, [])
  else if isbrc setting pep.nexthop then
    (s.done { pep with dst := memcpy pep.dst (setting.nif ifn).hwb epAlen } (.broadcast ifn), [])
  else
    match arpfind s.arptable pep.nexthop pep.type ifn with
    | some index =>
        let pae := s.arptable index
        if pae.state = .resolved then
          (s.done { pep with dst := memcpy pep.dst pae.hwa pae.hwlen } (.sent ifn), [])
        else if ipClassD pep.nexthop then (s.done pep .lost, [])
        else (s.enqueue index pep found, [])
    | none =>
        if ipClassD pep.nexthop then (s.done pep .lost, [])
        else s.arpalloc setting (.netwrite ifn pep)

/-! ## `arp_in` and `arptimer` -/

/-- A round of `arpqsend`. Behind the last one `arp_in` goes on. -/
def Cache.arpqsend (index : Fin arpTsize) (pni ifn : Nat) (parp : Arp) (found : Bool) : Turn :=
  match (s.arptable index).queue.bind Gpq.deq with
  | some (pep, queue) =>
      let turn := (s.setQueue index (some queue)).netwrite setting pni pep found
      (turn.1, turn.2 ++ [.arpqsend index pni ifn parp])
  | none => ((s.setQueue index none).answer setting ifn parp, [])

/-- An ARP packet refreshes the entry of its sender. -/
def Cache.refresh (index : Fin arpTsize) (parp : Arp) : Cache :=
  let pae := s.arptable index
  s.setEntry index { pae with hwa := memcpy pae.hwa parp.sha pae.hwlen, ttl := arpTimeout }

def Cache.resolve (index : Fin arpTsize) : Cache :=
  (s.take index).setEntry index { s.arptable index with state := .resolved }

def Cache.arpIn (ifn : Nat) (parp : Arp) (found : Bool) : Turn :=
  if parp.hwtype ≠ (setting.nif ifn).hwtype ∨ parp.prtype ≠ eptIp then (s, [])
  else
    match arpfind s.arptable parp.spa parp.prtype ifn with
    | none =>
        if Same ipAlen parp.tpa (setting.nif ifn).ip then s.arpalloc setting (.arpIn ifn parp)
        else (s, [])
    | some index =>
        let s := s.refresh index parp
        if Same ipAlen parp.tpa (setting.nif ifn).ip then
          if (s.arptable index).state = .pending then
            (s.resolve index).arpqsend setting index (s.arptable index).pni ifn parp found
          else (s.answer setting ifn parp, [])
        else (s, [])

/-- A round of `arptimer`. -/
def Cache.arptimer (place : Nat) (gran : Int) : Turn :=
  if inside : place < arpTsize then
    let index : Fin arpTsize := ⟨place, inside⟩
    let pae := s.arptable index
    let aged := { pae with ttl := pae.ttl - gran }
    let rest := [Frame.arptimer (place + 1) gran]
    if pae.state = .free ∨ pae.ttl = arpInf then (s, rest)
    else if 0 < aged.ttl then (s.setEntry index aged, rest)
    else if pae.state = .resolved then
      ((s.take index).setEntry index { aged with state := .free }, rest)
    else if arpMaxretry < pae.attempts + 1 then
      let turn := ((s.take index).setEntry index
        { aged with state := .free, attempts := pae.attempts + 1 }).arpdq setting index none
      (turn.1, turn.2 ++ rest)
    else
      (s.setEntry index { aged with attempts := pae.attempts + 1, ttl := arpResend },
        .arpsend index pae.pni :: rest)
  else (s, [])

/-! ## Processes -/

/-- The turn of the innermost call; `found` is what `getbuf` or `newq` says. -/
def Cache.turn (found : Bool) : Frame → Turn
  | .arpdq index claimant => s.arpdq setting index claimant
  | .arpsend index pni => (s.arpsend setting index pni found, [])
  | .enqueue index pep => (s.enqueue index pep found, [])
  | .arpqsend index pni ifn parp => s.arpqsend setting index pni ifn parp found
  | .arptimer place gran => s.arptimer setting place gran

end Functions

structure System where
  cache : Cache := {}
  procs : List (List Frame) := []
  issued : Nat := 0

inductive Event where
  | netwrite (ifn : Nat) (nexthop : Memory) (type : BitVec 16) (len : Nat) (found : Bool)
  | arpIn (ifn : Nat) (parp : Arp) (found : Bool)
  | arptimer (gran : Int)
  | resume (proc : Nat) (found : Bool)
  | interface (ifn : Nat) (up : Bool)

section Steps

variable (setting : Setting)

/-- A call by a process of its own. -/
def System.spawn (s : System) (turn : Turn) : System :=
  { s with cache := turn.1, procs := s.procs ++ [turn.2] }

def step (s : System) : Event → System
  | .netwrite ifn nexthop type len found =>
      let pep : Packet := ⟨s.issued, ifn, nexthop, type, len, zeros⟩
      { s with issued := s.issued + 1 }.spawn (s.cache.netwrite setting ifn pep found)
  | .arpIn ifn parp found =>
      s.spawn ({ s.cache with heard := s.cache.heard ++ [(ifn, parp)] }.arpIn setting ifn parp found)
  | .arptimer gran => s.spawn (s.cache, [.arptimer 0 gran])
  | .resume proc found =>
      match s.procs[proc]? with
      | some (frame :: rest) =>
          let turn := s.cache.turn setting found frame
          { s with cache := turn.1, procs := s.procs.set proc (turn.2 ++ rest) }
      | _ => s
  | .interface ifn up => { s with cache := { s.cache with up := Function.update s.cache.up ifn up } }

end Steps

end MvsXinu.Arp
