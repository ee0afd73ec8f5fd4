import MvsXinu.Kernel.Permits
import MvsXinu.Memory.BufferPoolLaw

/-!
# Ports (`pcreate.c`, `psend.c`, `preceive.c`, `ptclear.c`)

A port has a queue of messages and two semaphores, one that counts the room in the queue and
one that counts the messages. The nodes of all the queues come from one free list. A process
that waits on a semaphore of a port, or calls `sreset`, `sdelete` or the disposal function in
`_ptclear`, may lose control there; what it does behind that is a step of its own.
-/

namespace MvsXinu.Ports

open MvsXinu.Kernel MvsXinu.Chains

set_option autoImplicit false

abbrev Word := BitVec 32

def nports : Int := 100
def maxmsgs : Nat := 50
def syserr : Int := -1

def isbadport (portid : Int) : Prop := portid < 0 ∨ nports ≤ portid

instance (portid : Int) : Decidable (isbadport portid) := inferInstanceAs (Decidable (_ ∨ _))

inductive Ptstate where
  | free
  | limbo
  | alloc
  deriving DecidableEq

structure Pt where
  ptstate : Ptstate
  ptssem : Int
  ptrsem : Int
  ptmaxcnt : Word
  ptseq : Word
  pthead : Int
  pttail : Int

/-- What a process has read of the port when it waits: the semaphore, the sequence number, and
for how many changes the number stands. -/
structure Ticket where
  portid : Int
  sem : Int
  seq : Word
  age : Nat
  deriving DecidableEq

/-- Where a process is in `_ptclear`: in the disposal function with the message of node `p`, or
behind the call for the first or the second semaphore. -/
inductive Clearing where
  | disposing (p : Int)
  | second
  | last
  deriving DecidableEq

inductive Place where
  | idle
  | sending (ticket : Ticket) (msg : Word)
  | receiving (ticket : Ticket)
  | clearing (portid : Int) (newstate : Ptstate) (dispose : Bool) (phase : Clearing)
  deriving DecidableEq

/-- A message, with the age of the port that its sender or receiver had read. -/
structure Passage where
  age : Nat
  msg : Word
  deriving DecidableEq

/-- What happened to the messages of a port between two changes of its sequence number. `ended`
says whether the `_ptclear` that ended it had a disposal function. -/
structure Book where
  accepted : List Passage := []
  received : List Passage := []
  discarded : List Word := []
  disposed : List Word := []
  ended : Option Bool := none

/-- `age` counts the changes of `ptseq`, `owned` has the semaphores that `pcreate` has made and
`_ptclear` has not deleted, and `book` has the messages of each age of each port. -/
structure Ports where
  sems : Sems
  ports : Int → Pt
  ptmsg : Int → Word
  ptnext : Int → Int
  ptfree : Int
  ptnextp : Int
  place : Int → Place
  stopped : Bool
  age : Int → Nat
  owned : Int → List Int
  book : Int → Nat → Book

namespace Ports

variable (s : Ports)

def panic : Ports := { s with stopped := true }

def setPort (portid : Int) (pt : Pt) : Ports :=
  { s with ports := Function.update s.ports portid pt }

def put (pid : Int) (place : Place) : Ports :=
  { s with place := Function.update s.place pid place }

def setBook (portid : Int) (age : Nat) (book : Book) : Ports :=
  { s with book := Function.update s.book portid (Function.update (s.book portid) age book) }

/-- The calls are refused. -/
def closed (portid : Int) : Prop := isbadport portid ∨ (s.ports portid).ptstate ≠ .alloc

instance (portid : Int) : Decidable (s.closed portid) := inferInstanceAs (Decidable (_ ∨ _))

/-! ## Sending and receiving -/

/-- The end of `psend`: the first free node becomes the last of the queue. `age` is what the
sender had read. -/
def enqueue (portid : Int) (age : Nat) (msg : Word) : Ports :=
  if s.ptfree = 0 then s.panic
  else
    let pt := s.ports portid
    let freenode := s.ptfree
    let unlinked := Function.update s.ptnext freenode 0
    let book := s.book portid (s.age portid)
    { s with
      ptfree := s.ptnext freenode
      ptmsg := Function.update s.ptmsg freenode msg
      ptnext := if pt.pttail = 0 then unlinked else Function.update unlinked pt.pttail freenode
      ports := Function.update s.ports portid
        (if pt.pttail = 0 then { pt with pttail := freenode, pthead := freenode }
          else { pt with pttail := freenode })
      sems := (signalled s.sems pt.ptrsem).1
      book := Function.update s.book portid (Function.update (s.book portid) (s.age portid)
        { book with accepted := book.accepted ++ [⟨age, msg⟩] }) }

/-- The end of `preceive`: the first node of the queue becomes the first free one. -/
def dequeue (portid : Int) (age : Nat) : Ports :=
  let pt := s.ports portid
  let nxtnode := pt.pthead
  let book := s.book portid (s.age portid)
  { s with
    ptfree := nxtnode
    ptnext := Function.update s.ptnext nxtnode s.ptfree
    ports := Function.update s.ports portid
      (if pt.pthead = pt.pttail then { pt with pthead := 0, pttail := 0 }
        else { pt with pthead := s.ptnext nxtnode })
    sems := (signalled s.sems pt.ptssem).1
    book := Function.update s.book portid (Function.update (s.book portid) (s.age portid)
      { book with received := book.received ++ [⟨age, s.ptmsg nxtnode⟩] }) }

def ticket (portid sem : Int) : Ticket where
  portid := portid
  sem := sem
  seq := (s.ports portid).ptseq
  age := s.age portid

def psend (pid portid : Int) (msg : Word) : Ports :=
  let sem := (s.ports portid).ptssem
  if s.closed portid ∨ refused s.sems sem then s
  else if wouldBlock s.sems sem then
    { s with sems := s.sems.wait sem pid }.put pid (.sending (s.ticket portid sem) msg)
  else { s with sems := s.sems.wait sem pid }.enqueue portid (s.age portid) msg

def preceive (pid portid : Int) : Ports :=
  let sem := (s.ports portid).ptrsem
  if s.closed portid ∨ refused s.sems sem then s
  else if wouldBlock s.sems sem then
    { s with sems := s.sems.wait sem pid }.put pid (.receiving (s.ticket portid sem))
  else { s with sems := s.sems.wait sem pid }.dequeue portid (s.age portid)

/-- The port that a process finds behind its `wait` is another one. -/
def stale (ticket : Ticket) : Prop :=
  (s.ports ticket.portid).ptstate ≠ .alloc ∨ (s.ports ticket.portid).ptseq ≠ ticket.seq

instance (ticket : Ticket) : Decidable (s.stale ticket) := inferInstanceAs (Decidable (_ ∨ _))

/-! ## Clearing -/

/-- `sreset`, which refuses a negative count. -/
def sreset (sem : Int) (count : Word) : Ports :=
  if refused s.sems sem ∨ count.slt 0 then s else { s with sems := s.sems.reset sem count }

def sdelete (portid sem : Int) : Ports :=
  if refused s.sems sem then s
  else
    { s with
      sems := s.sems.delete sem
      owned := Function.update s.owned portid ((s.owned portid).erase sem) }

/-- `_ptclear` behind the loop over the messages, up to the end of the first call for a
semaphore: the nodes of the queue become free. -/
def unlink (pid portid : Int) (newstate : Ptstate) (dispose : Bool) : Ports :=
  let pt := s.ports portid
  let cleared := s.age portid - 1
  let book := s.book portid cleared
  let dropped := (follow 0 s.ptnext maxmsgs pt.pthead).map s.ptmsg
  let freed := if pt.pthead = 0 then s
    else { s with ptnext := Function.update s.ptnext pt.pttail s.ptfree, ptfree := pt.pthead }
  let recorded := freed.setBook portid cleared
    { book with discarded := book.discarded ++ dropped, ended := some dispose }
  let settled :=
    if newstate = .alloc then
      (recorded.setPort portid { pt with pthead := 0, pttail := 0 }).sreset pt.ptssem pt.ptmaxcnt
    else recorded.sdelete portid pt.ptssem
  settled.put pid (.clearing portid newstate dispose .second)

/-- The disposal function is called with the message of node `p`. -/
def disposes (pid portid : Int) (newstate : Ptstate) (p : Int) : Ports :=
  let cleared := s.age portid - 1
  let book := s.book portid cleared
  (s.setBook portid cleared { book with disposed := book.disposed ++ [s.ptmsg p] }).put pid
    (.clearing portid newstate true (.disposing p))

/-- `_ptclear` up to the first place where it may lose control. -/
def ptclear (pid portid : Int) (newstate : Ptstate) (dispose : Bool) : Ports :=
  let pt := s.ports portid
  let limbo := { s.setPort portid { pt with ptstate := .limbo, ptseq := pt.ptseq + 1 } with
    age := Function.update s.age portid (s.age portid + 1) }
  if dispose ∧ pt.pthead ≠ 0 then limbo.disposes pid portid newstate pt.pthead
  else limbo.unlink pid portid newstate dispose

/-- `_ptclear` goes on. -/
def clears (pid portid : Int) (newstate : Ptstate) (dispose : Bool) : Clearing → Ports
  | .disposing p =>
      if s.ptnext p = 0 then s.unlink pid portid newstate dispose
      else s.disposes pid portid newstate (s.ptnext p)
  | .second =>
      let rsem := (s.ports portid).ptrsem
      (if newstate = .alloc then s.sreset rsem 0 else s.sdelete portid rsem).put pid
        (.clearing portid newstate dispose .last)
  | .last =>
      (s.setPort portid { s.ports portid with ptstate := newstate }).put pid .idle

def preset (pid portid : Int) (dispose : Bool) : Ports :=
  if s.closed portid then s else s.ptclear pid portid .alloc dispose

def pdelete (pid portid : Int) (dispose : Bool) : Ports :=
  if s.closed portid then s else s.ptclear pid portid .free dispose

/-! ## Creating -/

/-- `pcreate` has found a free port. `ssem` and `rsem` are what `screate` returned, which it
stores without a look at them. -/
def makes (portid : Int) (count : Word) (ssem rsem : Int) : Ports :=
  let sems := if ssem = syserr then s.sems else s.sems.create ssem count
  { s with
    sems := if rsem = syserr then sems else sems.create rsem 0
    ports := Function.update s.ports portid
      { ptstate := .alloc, ptssem := ssem, ptrsem := rsem, ptmaxcnt := count
        ptseq := (s.ports portid).ptseq + 1, pthead := 0, pttail := 0 }
    age := Function.update s.age portid (s.age portid + 1)
    owned := Function.update s.owned portid ([ssem, rsem].filter fun sem => sem ≠ syserr) }

/-- The loop of `pcreate`. -/
def pcreateLoop (count : Word) (ssem rsem : Int) : Nat → Ports → Ports
  | 0, s => s
  | tries + 1, s =>
      let passed := { s with ptnextp := if s.ptnextp ≤ 0 then nports - 1 else s.ptnextp - 1 }
      if (s.ports s.ptnextp).ptstate = .free then passed.makes s.ptnextp count ssem rsem
      else pcreateLoop count ssem rsem tries passed

def pcreate (count : Word) (ssem rsem : Int) : Ports :=
  pcreateLoop count ssem rsem nports.toNat s

end Ports

inductive PortCall where
  | psend (pid portid : Int) (msg : Word)
  | preceive (pid portid : Int)
  | preset (pid portid : Int) (dispose : Bool)
  | pdelete (pid portid : Int) (dispose : Bool)
  | pcreate (count : Word) (ssem rsem : Int)
  /-- A process that does not wait any more is dispatched. -/
  | go (pid : Int)
  /-- What the rest of the system does to its own semaphores. -/
  | elsewhere (sems : Sems)

def goes (s : Ports) (pid : Int) : Ports :=
  match s.place pid with
  | .idle => s
  | .sending ticket msg =>
      if pid ∈ s.sems.waiting ticket.sem then s
      else if s.stale ticket then s.put pid .idle
      else (s.put pid .idle).enqueue ticket.portid ticket.age msg
  | .receiving ticket =>
      if pid ∈ s.sems.waiting ticket.sem then s
      else if s.stale ticket then s.put pid .idle
      else (s.put pid .idle).dequeue ticket.portid ticket.age
  | .clearing portid newstate dispose phase => s.clears pid portid newstate dispose phase

def portStep (s : Ports) (call : PortCall) : Ports :=
  if s.stopped then s
  else
    match call with
    | .psend pid portid msg => s.psend pid portid msg
    | .preceive pid portid => s.preceive pid portid
    | .preset pid portid dispose => s.preset pid portid dispose
    | .pdelete pid portid dispose => s.pdelete pid portid dispose
    | .pcreate count ssem rsem => s.pcreate count ssem rsem
    | .go pid => goes s pid
    | .elsewhere sems => { s with sems := sems }

/-- What `pinit` leaves behind, with the nodes at `place`. -/
def Ports.start (sems : Sems) (place : Int) : Ports where
  sems := sems
  ports := fun _ =>
    { ptstate := .free, ptssem := 0, ptrsem := 0, ptmaxcnt := 0, ptseq := 0, pthead := 0
      pttail := 0 }
  ptmsg := fun _ => 0
  ptnext := Pool.carve 8 (maxmsgs - 1) place fun _ => 0
  ptfree := place
  ptnextp := nports - 1
  place := fun _ => .idle
  stopped := false
  age := fun _ => 0
  owned := fun _ => []
  book := fun _ _ => {}

/-- The nodes of `pinit`. -/
def nodes (place : Int) : List Int := Pool.places 8 maxmsgs place

def portids : List Int := (List.range nports.toNat).map fun index : Nat => (index : Int)

end MvsXinu.Ports
