import MvsXinu.Lib.Runs
import MvsXinu.Lib.Shelves
import MvsXinu.Memory.Ports

/-!
# Nodes, messages and incarnations of the ports

Every change of `ptseq` begins a new incarnation of a port. The messages that an incarnation
accepts are received in order or discarded when it ends, and the calls that were waiting then
are refused. The sequence number has one word and comes round.
-/

namespace MvsXinu.Ports

open MvsXinu.Kernel MvsXinu.Chains MvsXinu.Shelves

set_option autoImplicit false

def Place.ticket : Place → Option Ticket
  | .sending ticket _ => some ticket
  | .receiving ticket => some ticket
  | _ => none

def Place.port : Place → Option Int
  | .idle => none
  | .sending ticket _ => some ticket.portid
  | .receiving ticket => some ticket.portid
  | .clearing portid _ _ _ => some portid

/-- The incarnation that the messages on the queue belong to. -/
def Ports.held (s : Ports) (portid : Int) : Nat :=
  if (s.ports portid).ptstate = .alloc then s.age portid else s.age portid - 1

/-- Another incarnation has the sequence number of the ticket. -/
def Ports.CameRound (s : Ports) (ticket : Ticket) : Prop :=
  ticket.age ≠ s.age ticket.portid ∧ ticket.age % 2 ^ 32 = s.age ticket.portid % 2 ^ 32

instance (s : Ports) (ticket : Ticket) : Decidable (s.CameRound ticket) :=
  inferInstanceAs (Decidable (_ ∧ _))

structure PortLaw (s : Ports) (place : Int) (free : List Int) (queue : Int → List Int) : Prop where
  freeNodes : Chain 0 s.ptnext s.ptfree free
  queuedNodes : ∀ portid, (s.ports portid).ptstate = .alloc →
    Chain 0 s.ptnext (s.ports portid).pthead (queue portid)
  distinct : (free ++ portids.flatMap queue).Nodup
  partition : (free ++ portids.flatMap queue).Perm (nodes place)
  bounded : ∀ portid, (queue portid).length ≤ (s.ports portid).ptmaxcnt.toNat
  fate : ∀ portid age, (s.book portid age).accepted.map Passage.msg =
    (s.book portid age).received.map Passage.msg ++ ((s.book portid age).discarded ++
      if age = s.held portid then (queue portid).map s.ptmsg else [])
  disposed : ∀ portid age dispose, (s.book portid age).ended = some dispose →
    (s.book portid age).disposed = if dispose then (s.book portid age).discarded else []
  lasting : ∀ portid age, (s.book portid age).ended = none →
    (s.book portid age).discarded = [] ∧
      (s.book portid age).disposed <+: (queue portid).map s.ptmsg
  own : ∀ portid age, ∀ passage ∈ (s.book portid age).accepted ++ (s.book portid age).received,
    passage.age = age
  older : ∀ pid ticket, (s.place pid).ticket = some ticket →
    ticket.age ≠ s.age ticket.portid → ¬ s.CameRound ticket →
      goes s pid = s ∨ goes s pid = s.put pid .idle

/-- `screate` returns a free semaphore, or `SYSERR` if there is none. -/
def Screated (sems : Sems) (sem : Int) : Prop :=
  (sem = syserr ∧ ∀ other, ¬ isbadsem other → (sems.semaph other).sstate = .used) ∨
    (¬ isbadsem sem ∧ (sems.semaph sem).sstate = .free ∧ sems.waiting sem = [])

/-- The semaphores behind a call of `screate`. -/
def created (sems : Sems) (sem : Int) (count : Word) : Sems :=
  if sem = syserr then sems else sems.create sem count

/-- A process calls when it is in no other call, and the rest of the system leaves the
semaphores of the ports alone. -/
def Allowed (s : Ports) : PortCall → Prop
  | .psend pid _ _ => IsProc pid ∧ s.place pid = .idle
  | .preceive pid _ => IsProc pid ∧ s.place pid = .idle
  | .preset pid _ _ => s.place pid = .idle
  | .pdelete pid _ _ => s.place pid = .idle
  | .pcreate count ssem rsem =>
      Screated s.sems ssem ∧ Screated (created s.sems ssem count) rsem
  | .go _ => True
  | .elsewhere sems => ∀ portid, ∀ sem ∈ s.owned portid,
      sems.semaph sem = s.sems.semaph sem ∧ sems.waiting sem = s.sems.waiting sem

/-- A process is not dispatched to a port whose sequence number has come round since it
waited. -/
def Unwrapped (s : Ports) : PortCall → Prop
  | .go pid => ∀ ticket, (s.place pid).ticket = some ticket →
      pid ∉ s.sems.waiting ticket.sem → (s.ports ticket.portid).ptstate = .alloc →
        ¬ s.CameRound ticket
  | _ => True

/-! ## The invariant of a port -/

def Ports.Disposing (s : Ports) (portid : Int) : Prop :=
  ∃ pid newstate p, s.place pid = .clearing portid newstate true (.disposing p)

/-- The port has a queue. -/
def Ports.Linked (s : Ports) (portid : Int) : Prop :=
  (s.ports portid).ptstate = .alloc ∨ s.Disposing portid

structure Queued (s : Ports) (portid : Int) (queue : List Int) : Prop where
  linked : s.Linked portid →
    Queue 0 s.ptnext (s.ports portid).pthead (s.ports portid).pttail queue
  unlinked : ¬ s.Linked portid → queue = []
  bounded : queue.length ≤ (s.ports portid).ptmaxcnt.toNat

structure Booked (s : Ports) (portid : Int) (queue : List Int) : Prop where
  fate : ∀ age, (s.book portid age).accepted.map Passage.msg =
    (s.book portid age).received.map Passage.msg ++ ((s.book portid age).discarded ++
      if age = s.held portid then queue.map s.ptmsg else [])
  own : ∀ age, ∀ passage ∈ (s.book portid age).accepted ++ (s.book portid age).received,
    passage.age = age
  fresh : ∀ age, s.held portid < age → s.book portid age = {}
  ongoing : s.Linked portid → (s.book portid (s.held portid)).ended = none
  lasting : ∀ age, (s.book portid age).ended = none → (s.book portid age).discarded = [] ∧
    ((s.book portid age).disposed = [] ∨ (age = s.held portid ∧ s.Disposing portid))
  disposed : ∀ age dispose, (s.book portid age).ended = some dispose →
    (s.book portid age).disposed = if dispose then (s.book portid age).discarded else []
  disposing : ∀ pid newstate p, s.place pid = .clearing portid newstate true (.disposing p) →
    ∃ front rest, queue = front ++ p :: rest ∧
      (s.book portid (s.held portid)).disposed = (front ++ [p]).map s.ptmsg

structure Staffed (s : Ports) (portid : Int) : Prop where
  seq : (s.ports portid).ptseq = BitVec.ofNat 32 (s.age portid)
  limbo : ∀ pid newstate dispose phase,
    s.place pid = .clearing portid newstate dispose phase →
      (s.ports portid).ptstate = .limbo ∧ 0 < s.age portid ∧ newstate ≠ .limbo ∧
        ∀ p, phase = .disposing p → dispose = true
  alone : ∀ pid newstate dispose phase other newstate' dispose' phase',
    s.place pid = .clearing portid newstate dispose phase →
      s.place other = .clearing portid newstate' dispose' phase' → other = pid
  tickets : ∀ pid ticket, (s.place pid).ticket = some ticket → ticket.portid = portid →
    ticket.seq = BitVec.ofNat 32 ticket.age ∧ ticket.sem ≠ syserr ∧
      ticket.age ≤ s.age portid ∧
        (ticket.age = s.age portid → (s.ports portid).ptstate = .alloc)
  sender : ∀ pid ticket msg, s.place pid = .sending ticket msg → ticket.portid = portid →
    ticket.age = s.age portid → ticket.sem = (s.ports portid).ptssem
  receiver : ∀ pid ticket, s.place pid = .receiving ticket → ticket.portid = portid →
    ticket.age = s.age portid → ticket.sem = (s.ports portid).ptrsem

/-! ## The semaphores of a port -/

/-- The process is in a `psend` that this incarnation has to serve. -/
def Ports.Sends (s : Ports) (portid pid : Int) : Prop :=
  ∃ msg, s.place pid = .sending (s.ticket portid (s.ports portid).ptssem) msg

def Ports.Receives (s : Ports) (portid pid : Int) : Prop :=
  s.place pid = .receiving (s.ticket portid (s.ports portid).ptrsem)

structure Paired (s : Ports) (portid : Int) : Prop where
  ssem : (s.ports portid).ptssem = syserr ∨ (s.ports portid).ptssem ∈ s.owned portid
  rsem : (s.ports portid).ptrsem = syserr ∨ (s.ports portid).ptrsem ∈ s.owned portid
  apart : (s.ports portid).ptssem = (s.ports portid).ptrsem →
    (s.ports portid).ptssem = syserr

/-- The sender semaphore lets `room` more processes through, unless `pcreate` made it with a
count that is negative for it. -/
def SendAdmits (s : Ports) (portid : Int) (room : Int) : Prop :=
  0 ≤ (s.ports portid).ptmaxcnt.toInt → (s.ports portid).ptssem ∈ s.owned portid →
    Admits s.sems (s.ports portid).ptssem (s.Sends portid) room

def ReceiveAdmits (s : Ports) (portid : Int) (stock : Int) : Prop :=
  (s.ports portid).ptrsem ∈ s.owned portid →
    Admits s.sems (s.ports portid).ptrsem (s.Receives portid) stock

structure Guarded (s : Ports) (portid : Int) (room stock : Int) : Prop extends Paired s portid where
  send : SendAdmits s portid room
  receive : ReceiveAdmits s portid stock

def Ports.Emptied (s : Ports) (portid : Int) : Prop :=
  (s.ports portid).pthead = 0 ∧ (s.ports portid).pttail = 0

/-- The semaphores of a port at each phase of `_ptclear`. -/
def ClearGuarded (s : Ports) (portid : Int) (newstate : Ptstate) : Clearing → Prop
  | .disposing _ => Paired s portid
  | .second =>
      if newstate = .alloc then
        Paired s portid ∧ s.Emptied portid ∧
          SendAdmits s portid (s.ports portid).ptmaxcnt.toInt
      else (s.ports portid).ptrsem = syserr ∨ (s.ports portid).ptrsem ∈ s.owned portid
  | .last => newstate = .alloc →
      s.Emptied portid ∧ Guarded s portid (s.ports portid).ptmaxcnt.toInt 0

structure PortInv (s : Ports) (portid : Int) (queue : List Int) : Prop extends
    Queued s portid queue, Booked s portid queue, Staffed s portid where
  guarded : s.stopped = false → (s.ports portid).ptstate = .alloc →
    Guarded s portid ((s.ports portid).ptmaxcnt.toInt - queue.length) queue.length
  clears : s.stopped = false → ∀ pid newstate dispose phase,
    s.place pid = .clearing portid newstate dispose phase → ClearGuarded s portid newstate phase

structure Sound (s : Ports) (place : Int) (free : List Int) (queue : Int → List Int) : Prop where
  freed : Chain 0 s.ptnext s.ptfree free
  stocked : Stocked (nodes place) free portids queue
  outside : ∀ portid, isbadport portid → (s.ports portid).ptstate = .free
  nextp : ¬ isbadport s.ptnextp
  ports : ∀ portid, PortInv s portid (queue portid)
  usable : s.stopped = false → ∀ portid, ∀ sem ∈ s.owned portid, ¬ refused s.sems sem
  apart : ∀ portid other sem, sem ∈ s.owned portid → sem ∈ s.owned other → other = portid
  single : ∀ portid, (s.owned portid).Nodup

/-! ## Steps at one port -/

/-- What a step at one port leaves alone. -/
structure Local (s later : Ports) (portid : Int) : Prop where
  ports : ∀ other, other ≠ portid → later.ports other = s.ports other
  age : ∀ other, other ≠ portid → later.age other = s.age other
  owned : ∀ other, other ≠ portid → later.owned other = s.owned other
  book : ∀ other, other ≠ portid → later.book other = s.book other
  place : ∀ pid, later.place pid = s.place pid ∨ ∀ other, other ≠ portid →
    (s.place pid).port ≠ some other ∧ (later.place pid).port ≠ some other
  running : later.stopped = false → s.stopped = false

section Steps

variable {s middle later : Ports} {portid other pid : Int} {queue : List Int}

theorem Local.trans (before : Local s middle portid) (behind : Local middle later portid) :
    Local s later portid := by
  constructor
  · intro other away
    rw [behind.ports other away, before.ports other away]
  · intro other away
    rw [behind.age other away, before.age other away]
  · intro other away
    rw [behind.owned other away, before.owned other away]
  · intro other away
    rw [behind.book other away, before.book other away]
  · intro pid
    rcases before.place pid with same | near
    · rw [← same]
      exact behind.place pid
    · rcases behind.place pid with same' | near'
      · rw [same']
        exact Or.inr near
      · exact Or.inr fun other away => ⟨(near other away).1, (near' other away).2⟩
  · exact fun running => before.running (behind.running running)

theorem Local.place_iff (here : Local s later portid) (away : other ≠ portid) {stands : Place}
    (isAt : stands.port = some other) : later.place pid = stands ↔ s.place pid = stands := by
  rcases here.place pid with same | near
  · rw [same]
  · constructor
    · intro isPlace
      exact absurd (isPlace ▸ isAt) (near other away).2
    · intro isPlace
      exact absurd (isPlace ▸ isAt) (near other away).1

theorem Local.ticket_iff (here : Local s later portid) {ticket : Ticket}
    (away : ticket.portid ≠ portid) :
    (later.place pid).ticket = some ticket ↔ (s.place pid).ticket = some ticket := by
  rcases here.place pid with same | near
  · rw [same]
  · have portOf : ∀ stands : Place, stands.ticket = some ticket →
        stands.port = some ticket.portid := by
      intro stands isTicket
      cases stands with
      | idle => cases isTicket
      | sending read msg =>
          have same : read = ticket := by simpa [Place.ticket] using isTicket
          rw [← same, Place.port]
      | receiving read =>
          have same : read = ticket := by simpa [Place.ticket] using isTicket
          rw [← same, Place.port]
      | clearing _ _ _ _ => cases isTicket
    constructor
    · intro isTicket
      exact absurd (portOf _ isTicket) (near _ away).2
    · intro isTicket
      exact absurd (portOf _ isTicket) (near _ away).1

theorem Local.disposing_iff (here : Local s later portid) (away : other ≠ portid) :
    later.Disposing other ↔ s.Disposing other := by
  constructor
  · rintro ⟨pid, newstate, p, clearing⟩
    exact ⟨pid, newstate, p, (here.place_iff away rfl).mp clearing⟩
  · rintro ⟨pid, newstate, p, clearing⟩
    exact ⟨pid, newstate, p, (here.place_iff away rfl).mpr clearing⟩

theorem Local.linked_iff (here : Local s later portid) (away : other ≠ portid) :
    later.Linked other ↔ s.Linked other := by
  unfold Ports.Linked
  rw [here.ports other away, here.disposing_iff away]

theorem Local.held_eq (here : Local s later portid) (away : other ≠ portid) :
    later.held other = s.held other := by
  unfold Ports.held
  rw [here.ports other away, here.age other away]

theorem Local.sends_iff (here : Local s later portid) (away : other ≠ portid) :
    later.Sends other pid ↔ s.Sends other pid := by
  unfold Ports.Sends Ports.ticket
  rw [here.ports other away, here.age other away]
  constructor
  · rintro ⟨msg, sending⟩
    exact ⟨msg, (here.place_iff away rfl).mp sending⟩
  · rintro ⟨msg, sending⟩
    exact ⟨msg, (here.place_iff away rfl).mpr sending⟩

theorem Local.receives_iff (here : Local s later portid) (away : other ≠ portid) :
    later.Receives other pid ↔ s.Receives other pid := by
  unfold Ports.Receives Ports.ticket
  rw [here.ports other away, here.age other away]
  exact here.place_iff away rfl

end Steps

/-! ## The other ports -/

section Frame

variable {s later : Ports} {portid other : Int} {nodes : List Int}

theorem Queued.frame (queued : Queued s other nodes) (here : Local s later portid)
    (away : other ≠ portid) (words : ∀ node ∈ nodes, later.ptnext node = s.ptnext node) :
    Queued later other nodes := by
  constructor
  · intro linked
    rw [here.ports other away]
    exact (queued.linked ((here.linked_iff away).mp linked)).congr words
  · intro unlinked
    exact queued.unlinked fun linked => unlinked ((here.linked_iff away).mpr linked)
  · rw [here.ports other away]
    exact queued.bounded

theorem Booked.frame (booked : Booked s other nodes) (here : Local s later portid)
    (away : other ≠ portid) (words : ∀ node ∈ nodes, later.ptmsg node = s.ptmsg node) :
    Booked later other nodes := by
  have messages : nodes.map later.ptmsg = nodes.map s.ptmsg := List.map_congr_left words
  constructor
  · intro age
    rw [here.book other away, here.held_eq away, messages]
    exact booked.fate age
  · intro age
    rw [here.book other away]
    exact booked.own age
  · intro age
    rw [here.book other away, here.held_eq away]
    exact booked.fresh age
  · intro linked
    rw [here.book other away, here.held_eq away]
    exact booked.ongoing ((here.linked_iff away).mp linked)
  · intro age
    rw [here.book other away, here.held_eq away, here.disposing_iff away]
    exact booked.lasting age
  · intro age dispose
    rw [here.book other away]
    exact booked.disposed age dispose
  · intro pid newstate p clearing
    obtain ⟨front, rest, shape, disposed⟩ :=
      booked.disposing pid newstate p ((here.place_iff away rfl).mp clearing)
    refine ⟨front, rest, shape, ?_⟩
    rw [here.book other away, here.held_eq away, disposed]
    apply List.map_congr_left
    intro node member
    refine (words node ?_).symm
    rw [shape]
    rcases List.mem_append.mp member with inFront | isLast
    · exact List.mem_append_left _ inFront
    · rw [List.mem_singleton.mp isLast]
      exact List.mem_append_right _ List.mem_cons_self

theorem Staffed.frame (staffed : Staffed s other) (here : Local s later portid)
    (away : other ≠ portid) : Staffed later other := by
  constructor
  · rw [here.ports other away, here.age other away]
    exact staffed.seq
  · intro pid newstate dispose phase clearing
    rw [here.ports other away, here.age other away]
    exact staffed.limbo pid newstate dispose phase ((here.place_iff away rfl).mp clearing)
  · intro pid newstate dispose phase second newstate' dispose' phase' clearing clearing'
    exact staffed.alone pid newstate dispose phase second newstate' dispose' phase'
      ((here.place_iff away rfl).mp clearing) ((here.place_iff away rfl).mp clearing')
  · intro pid ticket isTicket isPort
    have awayTicket : ticket.portid ≠ portid := isPort ▸ away
    rw [here.ports other away, here.age other away]
    exact staffed.tickets pid ticket ((here.ticket_iff awayTicket).mp isTicket) isPort
  · intro pid ticket msg sending isPort
    have isAt : (Place.sending ticket msg).port = some other := by rw [Place.port, isPort]
    rw [here.ports other away, here.age other away]
    exact staffed.sender pid ticket msg ((here.place_iff away isAt).mp sending) isPort
  · intro pid ticket receiving isPort
    have isAt : (Place.receiving ticket).port = some other := by rw [Place.port, isPort]
    rw [here.ports other away, here.age other away]
    exact staffed.receiver pid ticket ((here.place_iff away isAt).mp receiving) isPort

/-- The semaphores of the other port stay as they are. -/
def Ports.Kept (s later : Ports) (other : Int) : Prop :=
  ∀ sem ∈ s.owned other,
    later.sems.semaph sem = s.sems.semaph sem ∧ later.sems.waiting sem = s.sems.waiting sem

theorem Paired.frame (paired : Paired s other) (here : Local s later portid)
    (away : other ≠ portid) : Paired later other := by
  constructor
  · rw [here.ports other away, here.owned other away]
    exact paired.ssem
  · rw [here.ports other away, here.owned other away]
    exact paired.rsem
  · rw [here.ports other away]
    exact paired.apart

theorem SendAdmits.frame {room : Int} (send : SendAdmits s other room)
    (here : Local s later portid) (away : other ≠ portid) (kept : s.Kept later other) :
    SendAdmits later other room := by
  unfold SendAdmits
  rw [here.ports other away, here.owned other away]
  intro notNegative owned
  obtain ⟨semaph, waiting⟩ := kept _ owned
  exact (send notNegative owned).congr semaph waiting fun pid => here.sends_iff away

theorem ReceiveAdmits.frame {stock : Int} (receive : ReceiveAdmits s other stock)
    (here : Local s later portid) (away : other ≠ portid) (kept : s.Kept later other) :
    ReceiveAdmits later other stock := by
  unfold ReceiveAdmits
  rw [here.ports other away, here.owned other away]
  intro owned
  obtain ⟨semaph, waiting⟩ := kept _ owned
  exact (receive owned).congr semaph waiting fun pid => here.receives_iff away

theorem Guarded.frame {room stock : Int} (guarded : Guarded s other room stock)
    (here : Local s later portid) (away : other ≠ portid) (kept : s.Kept later other) :
    Guarded later other room stock :=
  ⟨guarded.toPaired.frame here away, guarded.send.frame here away kept,
    guarded.receive.frame here away kept⟩

theorem ClearGuarded.frame {newstate : Ptstate} {phase : Clearing}
    (guarded : ClearGuarded s other newstate phase) (here : Local s later portid)
    (away : other ≠ portid) (kept : s.Kept later other) :
    ClearGuarded later other newstate phase := by
  cases phase with
  | disposing p => exact Paired.frame guarded here away
  | second =>
      unfold ClearGuarded Ports.Emptied at guarded ⊢
      dsimp only at guarded ⊢
      rw [here.ports other away, here.owned other away]
      split
      · rename_i isAlloc
        rw [if_pos isAlloc] at guarded
        exact ⟨guarded.1.frame here away, guarded.2.1, guarded.2.2.frame here away kept⟩
      · rename_i notAlloc
        rwa [if_neg notAlloc] at guarded
  | last =>
      unfold ClearGuarded Ports.Emptied at guarded ⊢
      intro isAlloc
      rw [here.ports other away]
      exact ⟨(guarded isAlloc).1, (guarded isAlloc).2.frame here away kept⟩

theorem PortInv.frame (inv : PortInv s other nodes) (here : Local s later portid)
    (away : other ≠ portid) (words : ∀ node ∈ nodes,
      later.ptnext node = s.ptnext node ∧ later.ptmsg node = s.ptmsg node)
    (kept : s.Kept later other) : PortInv later other nodes where
  toQueued := inv.toQueued.frame here away fun node member => (words node member).1
  toBooked := inv.toBooked.frame here away fun node member => (words node member).2
  toStaffed := inv.toStaffed.frame here away
  guarded := by
    intro running alloc
    rw [here.ports other away] at alloc ⊢
    exact (inv.guarded (here.running running) alloc).frame here away kept
  clears := by
    intro running pid newstate dispose phase clearing
    exact (inv.clears (here.running running) pid newstate dispose phase
      ((here.place_iff away rfl).mp clearing)).frame here away kept

end Frame

theorem mem_portids {portid : Int} : portid ∈ portids ↔ ¬ isbadport portid := by
  unfold portids isbadport
  rw [List.mem_map]
  constructor
  · rintro ⟨index, member, rfl⟩
    have := List.mem_range.mp member
    unfold nports at this ⊢
    omega
  · intro good
    refine ⟨portid.toNat, List.mem_range.mpr ?_, ?_⟩
    · unfold nports at good ⊢
      omega
    · omega

theorem portids_nodup : portids.Nodup := by
  apply List.Nodup.map _ List.nodup_range
  intro first second same
  exact Int.ofNat_inj.mp same

theorem nodes_nodup (place : Int) : (nodes place).Nodup := Pool.places_nodup (by decide) _ _

theorem Staffed.limbo_of_disposing {s : Ports} {portid : Int} (staffed : Staffed s portid)
    (disposing : s.Disposing portid) : (s.ports portid).ptstate = .limbo := by
  obtain ⟨pid, newstate, p, clearing⟩ := disposing
  exact (staffed.limbo pid newstate true _ clearing).1

/-- A free port has no queue. -/
theorem PortInv.free_queue {s : Ports} {portid : Int} {queue : List Int}
    (inv : PortInv s portid queue) (isFree : (s.ports portid).ptstate = .free) : queue = [] := by
  apply inv.unlinked
  rintro (alloc | disposing)
  · rw [isFree] at alloc
    cases alloc
  · have limbo := inv.toStaffed.limbo_of_disposing disposing
    rw [isFree] at limbo
    cases limbo

/-- A step at one port keeps the invariant if it keeps that of the port and of the nodes. -/
theorem Sound.step {s later : Ports} {place portid : Int} {free freeNow now : List Int}
    {queue : Int → List Int} (sound : Sound s place free queue) (here : Local s later portid)
    (inv : PortInv later portid now) (freed : Chain 0 later.ptnext later.ptfree freeNow)
    (stocked : Stocked (nodes place) freeNow portids (Function.update queue portid now))
    (outside : isbadport portid → (later.ports portid).ptstate = .free)
    (nextp : ¬ isbadport later.ptnextp)
    (sems : ∀ sem, sem ∉ s.owned portid → sem ∉ later.owned portid →
      later.sems.semaph sem = s.sems.semaph sem ∧ later.sems.waiting sem = s.sems.waiting sem)
    (words : ∀ other, other ≠ portid → ∀ node ∈ queue other,
      later.ptnext node = s.ptnext node ∧ later.ptmsg node = s.ptmsg node)
    (usable : later.stopped = false → ∀ sem ∈ later.owned portid, ¬ refused later.sems sem)
    (fresh : ∀ sem ∈ later.owned portid, ∀ other, other ≠ portid → sem ∉ s.owned other)
    (single : (later.owned portid).Nodup) :
    Sound later place freeNow (Function.update queue portid now) := by
  have kept : ∀ other, other ≠ portid → s.Kept later other := by
    intro other away sem member
    apply sems sem
    · intro owned
      exact away (sound.apart portid other sem owned member)
    · intro owned
      exact fresh sem owned other away member
  constructor
  · exact freed
  · exact stocked
  · intro other bad
    by_cases same : other = portid
    · rw [same]
      exact outside (same ▸ bad)
    · rw [here.ports other same]
      exact sound.outside other bad
  · exact nextp
  · intro other
    by_cases same : other = portid
    · rw [same, Function.update_self]
      exact inv
    · rw [Function.update_of_ne same]
      exact (sound.ports other).frame here same (words other same) (kept other same)
  · intro running other sem member
    by_cases same : other = portid
    · rw [same] at member
      exact usable running sem member
    · rw [here.owned other same] at member
      unfold refused
      rw [(kept other same sem member).1]
      exact sound.usable (here.running running) other sem member
  · intro first second sem inFirst inSecond
    by_cases isFirst : first = portid
    · by_cases isSecond : second = portid
      · rw [isFirst, isSecond]
      · rw [isFirst] at inFirst
        rw [here.owned second isSecond] at inSecond
        exact absurd inSecond (fresh sem inFirst second isSecond)
    · rw [here.owned first isFirst] at inFirst
      by_cases isSecond : second = portid
      · rw [isSecond] at inSecond
        exact absurd inFirst (fresh sem inSecond first isFirst)
      · rw [here.owned second isSecond] at inSecond
        exact sound.apart first second sem inFirst inSecond
  · intro other
    by_cases same : other = portid
    · rw [same]
      exact single
    · rw [here.owned other same]
      exact sound.single other

end MvsXinu.Ports
