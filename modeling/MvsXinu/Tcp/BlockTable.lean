import MvsXinu.Lib.Locks
import MvsXinu.Lib.Runs
import MvsXinu.Tcp.CloseOwner
import MvsXinu.Tcp.UserCalls

/-!
# The table of control blocks and their mutexes

`tcpinp`, `tcpout` and the users' calls on the blocks of `tcbtab`. Each block has its
`tcb_mutex`, which `tcballoc` creates and `tcbdealloc` deletes; a call of `wait` or `signal` on
the mutex of a free block fails. A process is between two of its calls of the kernel in one
step. A handler runs to its next `wait` in one step: nobody else works on the block meanwhile,
as long as the mutex does what it should.
-/

namespace MvsXinu.Tcp

open MvsXinu.SeqSpace MvsXinu.Locks

set_option autoImplicit false

def ntcp : Nat := 16

/-- `tcb_type`. -/
inductive TcbType where
  | server
  | connection
  | other
  deriving DecidableEq, Repr

inductive Party where
  | inp
  | out
  | user (pid : Nat)
  deriving DecidableEq, Repr

/-- A block with its mutex. `parent` is `tcb_pptcb`, which nobody resets. -/
structure Slot where
  conn : Conn
  kind : TcbType
  lock : Lock Party
  parent : Option Nat

/-- What a process wants the mutex for: a segment with what `tcplisten` needs, a message of
`tcps_oport`, or a user's call. -/
inductive Errand where
  | segment (inbound : Inbound) (iss : Tcpseq) (mss : Word)
  | output (event : OutEvent) (fuel : Nat)
  | read (len : Word) (umode : Bool)
  | write (octets : List Octet) (isurg : Bool)
  | close
  | control (options : Option (Bool × Bool × Bool))

/-- Where a process is: `matched` behind the search of `tcpdemux`, `waiting` behind the `wait`
for the mutex, `parent` behind the `wait` of `tcpsynrcvd` for the server's mutex, `spawned`
before `tcplisten` releases the new block, `opening` in `tcpmopen`, `leaving` before the last
`signal` and `sleeping` on `tcb_ocsem`. -/
inductive Post where
  | idle
  | matched (k : Nat) (inbound : Inbound) (iss : Tcpseq) (mss : Word)
  | waiting (k : Nat) (errand : Errand)
  | parent (k server : Nat) (inbound : Inbound)
  | spawned (k child : Nat)
  | opening (k : Nat)
  | leaving (k : Nat) (sleeps : Option Bool)
  | sleeping (k : Nat) (opener : Bool)

/-- The block and the segment that a process waits with. -/
def Post.carried : Post → Option (Nat × Segment)
  | .matched k inbound _ _ => some (k, inbound.segment)
  | .waiting k (.segment inbound _ _) => some (k, inbound.segment)
  | _ => none

structure Table where
  slot : Nat → Slot
  post : Party → Post

namespace Table

def state (t : Table) (k : Nat) : TcpState := (t.slot k).conn.tcb.state

def setSlot (t : Table) (k : Nat) (slot : Slot) : Table :=
  { t with slot := Function.update t.slot k slot }

def place (t : Table) (party : Party) (post : Post) : Table :=
  { t with post := Function.update t.post party post }

def setLock (t : Table) (k : Nat) (lock : Lock Party) : Table :=
  t.setSlot k { t.slot k with lock := lock }

/-- The block is changed; with `TCPS_FREE` its mutex is deleted. -/
def setConn (t : Table) (k : Nat) (conn : Conn) : Table :=
  t.setSlot k { t.slot k with
    conn := conn
    lock := if conn.tcb.state = .free then Lock.deleted else (t.slot k).lock }

def wait (t : Table) (k : Nat) (party : Party) : Table :=
  if t.state k = .free then t else t.setLock k ((t.slot k).lock.wait party)

def signal (t : Table) (k : Nat) : Table :=
  if t.state k = .free then t else t.setLock k (t.slot k).lock.signal

def Blocked (t : Table) (k : Nat) (party : Party) : Prop :=
  party ∈ (t.slot k).lock.mutex.waiting

instance (t : Table) (k : Nat) (party : Party) : Decidable (t.Blocked k party) :=
  inferInstanceAs (Decidable (_ ∈ _))

/-- `tcbdealloc`. A block without a type keeps its state and is only released. -/
def tcbdealloc (t : Table) (k : Nat) : Table :=
  if t.state k = .free then t
  else match (t.slot k).kind with
    | .other => t.signal k
    | _ => t.setConn k (Tcp.tcbdealloc (t.slot k).conn)

/-- The first free block. -/
def tcballoc (t : Table) : Option Nat := (List.range ntcp).find? fun k => t.state k == .free

end Table

/-- The four-tuple of the block is that of the segment. -/
def Slot.Pairs (slot : Slot) (segment : Segment) : Prop :=
  segment.dport = slot.conn.tcb.lport ∧ segment.sport = slot.conn.tcb.rport ∧
    segment.src = slot.conn.tcb.rip ∧ segment.dst = slot.conn.tcb.lip

instance (slot : Slot) (segment : Segment) : Decidable (slot.Pairs segment) :=
  inferInstanceAs (Decidable (_ ∧ _ ∧ _ ∧ _))

/-- The block is a server's for the port of the segment. -/
def Slot.Listens (slot : Slot) (segment : Segment) : Prop :=
  slot.conn.tcb.state = .listen ∧ segment.dport = slot.conn.tcb.lport

instance (slot : Slot) (segment : Segment) : Decidable (slot.Listens segment) :=
  inferInstanceAs (Decidable (_ ∧ _))

/-- The search of `tcpdemux`: the first block with the four-tuple, or for a SYN the last server
of the port. -/
def tcpdemux (t : Table) (segment : Segment) : Option Nat :=
  match (List.range ntcp).find? fun k =>
      t.state k != .free && decide ((t.slot k).Pairs segment) with
  | some k => some k
  | none =>
      if segment.code.syn then
        ((List.range ntcp).filter fun k => decide ((t.slot k).Listens segment)).getLast?
      else none

/-! ## Segments -/

/-- What the handler of the state is called with, unless the segment is refused. A segment
whose options never end is not taken: `tcpinp` stays where it is. -/
def handed (conn : Conn) (inbound : Inbound) : Option (Option (Conn × Inbound)) :=
  let checked := tcpok conn.tcb inbound.segment
  let inbound := { inbound with segment := checked.2 }
  if checked.1 then
    (tcpopts conn.tcb inbound).map fun read => some ({ conn with tcb := read.1 }, read.2)
  else some none

/-- `tcplisten` makes a block for this segment. -/
def Segment.spawns (segment : Segment) : Bool :=
  !segment.code.rst && !segment.code.ack && segment.code.syn

/-- The block that `tcplisten` prepares in slot `child`. -/
def Slot.spawn (slot : Slot) (party : Party) (k : Nat) (tcb : Tcb) (inbound : Inbound) :
    Slot where
  conn := tcpdeliver { slot.conn with tcb := tcb } inbound
  kind := .connection
  lock := Lock.created party
  parent := some k

/-- `tcpsynrcvd` up to its `wait` for the server's mutex, if it comes there. -/
def synrcvdwaits (conn : Conn) (inbound : Inbound) : Option Conn :=
  let acked := tcpacked conn inbound.segment
  if inbound.segment.code.rst || inbound.segment.code.syn then none
  else if acked.1 = sysErr then none
  else if acked.2.tcb.passive then some acked.2
  else none

namespace Table

variable (t : Table) (party : Party) (k : Nat)

def tcplisten (conn : Conn) (inbound : Inbound) (iss : Tcpseq) (mss : Word) : Table :=
  if inbound.segment.spawns then
    match t.tcballoc with
    | none => (t.setConn k conn).place party (.leaving k none)
    | some child =>
        ((t.setConn k conn).setSlot child ((t.slot child).spawn party k
          (Tcp.tcplisten iss mss conn.tcb.smss inbound.segment) inbound)).place party
            (.spawned k child)
  else
    let answered := if inbound.segment.code.rst then conn else tcpreset conn inbound.segment
    (t.setConn k answered).place party (.leaving k none)

def tcpsynrcvd (conn : Conn) (inbound : Inbound) : Table :=
  match (t.slot k).parent, synrcvdwaits conn inbound with
  | some server, some acked =>
      if t.state server = .free then
        -- `wait` returns `SYSERR`
        (t.setConn k (Tcp.tcbdealloc (tcpreset acked inbound.segment))).place party
          (.leaving k none)
      else ((t.setConn k acked).wait server party).place party (.parent k server inbound)
  | _, _ => (t.setConn k (Tcp.tcpsynrcvd conn inbound)).place party (.leaving k none)

/-- `tcpsynrcvd` behind the `wait`. `psend` gives the server the block. -/
def tcpsynrcvdend (server : Nat) (inbound : Inbound) : Table :=
  let conn := (t.slot k).conn
  if t.state server ≠ .listen ∨ inbound.parent = .full then
    ((t.signal server).setConn k (Tcp.tcbdealloc (tcpreset conn inbound.segment))).place party
      (.leaving k none)
  else
    ((t.signal server).setConn k (tcpsynopened conn inbound)).place party (.leaving k none)

/-- `tcpinp` with the block that `tcpdemux` has returned. -/
def segment (inbound : Inbound) (iss : Tcpseq) (mss : Word) : Table :=
  match handed (t.slot k).conn inbound with
  | none => t
  | some none =>
      let checked := (tcpok (t.slot k).conn.tcb inbound.segment).2
      (t.setConn k (tcpackit (t.slot k).conn checked)).place party (.leaving k none)
  | some (some (conn, inbound)) =>
      if t.state k = .listen then t.tcplisten party k conn inbound iss mss
      else if t.state k = .synrcvd then t.tcpsynrcvd party k conn inbound
      else (t.setConn k (tcpswitch conn inbound)).place party (.leaving k none)

/-! ## Messages and users' calls -/

/-- `tcpout` with the mutex. With a block that has become CLOSED it goes on to the next
message. -/
def output (event : OutEvent) (fuel : Nat) : Table :=
  if t.state k = .closed then t.place party .idle
  else if event = .delete then (t.tcbdealloc k).place party (.leaving k none)
  else match tcposwitch fuel (t.slot k).conn event with
    | none => t
    | some conn => (t.setConn k conn).place party (.leaving k none)

def read (len : Word) (umode : Bool) : Table :=
  let conn := (t.slot k).conn
  let copies := !conn.tcb.error.isSome &&
    (if conn.tcb.flags.rupok then umode else !umode && !conn.tcb.unfilled len)
  (t.setConn k (if copies then tcpread conn len else conn)).place party (.leaving k none)

/-- With nothing to write `tcpwr` returns and keeps the mutex. -/
def write (octets : List Octet) (isurg : Bool) : Table :=
  let conn := (t.slot k).conn
  if conn.tcb.error.isSome then t.place party (.leaving k none)
  else if octets.length ≤ (conn.tcb.sbsize - conn.tcb.sbcount).toNat then
    if octets = [] then t.place party .idle
    else
      (t.setConn k { conn with tcb := tcpstored conn.tcb octets isurg }).place party
        (.leaving k none)
  else t.place party (.leaving k none)

def close : Table :=
  let conn := (t.slot k).conn
  if t.state k = .listen ∨
      (t.state k = .established ∨ t.state k = .closewait) ∧ conn.tcb.error.isSome = true then
    (t.tcbdealloc k).place party .idle
  else if t.state k = .established ∨ t.state k = .closewait then
    (t.setConn k (tcpkick { conn with tcb := tcpclosedtcb conn.tcb })).place party
      (.leaving k (some false))
  else t.place party (.leaving k none)

def control (options : Option (Bool × Bool × Bool)) : Table :=
  let conn := (t.slot k).conn
  (t.setConn k (options.elim conn fun bits => tcpuopt conn bits.1 bits.2.1 bits.2.2)).place party
    (.leaving k none)

/-- Behind the `wait` for the mutex. A free block is nobody's: `tcpdemux` returns 0, `tcpout`
goes on, and a user's call returns `SYSERR`. -/
def perform (errand : Errand) : Table :=
  if t.state k = .free then t.place party .idle
  else match errand with
    | .segment inbound iss mss => t.segment party k inbound iss mss
    | .output event fuel => t.output party k event fuel
    | .read len umode => t.read party k len umode
    | .write octets isurg => t.write party k octets isurg
    | .close => t.close party k
    | .control options => t.control party k options

/-- The end of `tcpcon` and `tcpclose`, behind `tcb_ocsem` and without the mutex. -/
def wake (opener : Bool) : Table :=
  let ends := if opener then (t.slot k).conn.tcb.error.isSome else t.state k == .lastack
  (if ends then t.tcbdealloc k else t).place party .idle

/-- A process goes on, if it is not blocked. -/
def go : Table :=
  match t.post party with
  | .matched k inbound iss mss =>
      (t.wait k party).place party (.waiting k (.segment inbound iss mss))
  | .waiting k errand => if t.Blocked k party then t else t.perform party k errand
  | .parent k server inbound =>
      if t.Blocked server party then t else t.tcpsynrcvdend party k server inbound
  | .spawned k child => (t.signal child).place party (.leaving k none)
  | .leaving k sleeps =>
      (t.signal k).place party (sleeps.elim .idle fun opener => .sleeping k opener)
  | .sleeping k opener => t.wake party k opener
  | _ => t

/-! ## `tcpmopen` -/

/-- The block is given back before it was opened. -/
def giveup : Table :=
  let conn := (t.slot k).conn
  (t.setConn k { conn with tcb := { conn.tcb with state := .free } }).place party .idle

/-- `tcpbind` sets the two ends. -/
def tcpbind (lip rip : Word) (lport rport : BitVec 16) : Table :=
  let conn := (t.slot k).conn
  t.setConn k { conn with tcb := { conn.tcb with
    lip := lip
    rip := rip
    lport := lport
    rport := rport } }

def tcpserver (lport : BitVec 16) : Table :=
  let conn := (t.slot k).conn
  (t.setSlot k { t.slot k with
    kind := .server
    conn := { conn with tcb := { conn.tcb with
      lport := lport
      state := .listen
      smss := 0 } } }).place party (.leaving k none)

def tcpcon (iss : Tcpseq) (mss : Word) : Table :=
  let conn := (t.slot k).conn
  let tcb := Tcp.tcpcon iss mss conn.tcb.lip conn.tcb.rip conn.tcb.lport conn.tcb.rport
  (t.setSlot k { t.slot k with
    kind := .connection
    conn := tcpkick { conn with tcb := { tcb with passive := (t.slot k).parent.isSome } }
    }).place party (.leaving k (some true))

end Table

inductive TableEvent where
  /-- `tcpinp` receives a segment. -/
  | demux (inbound : Inbound) (iss : Tcpseq) (mss : Word)
  /-- `tcpout` receives a message for a block. -/
  | output (k : Nat) (event : OutEvent) (fuel : Nat)
  | visit (pid k : Nat) (errand : Errand)
  | allocate (pid : Nat)
  | bind (pid : Nat) (lip rip : Word) (lport rport : BitVec 16)
  | serve (pid : Nat) (lport : BitVec 16)
  | connect (pid : Nat) (iss : Tcpseq) (mss : Word)
  | giveup (pid : Nat)
  | go (party : Party)

/-- The calls of a user, with what they check before they wait for the mutex. -/
def Table.admits (t : Table) (k : Nat) : Errand → Bool
  | .read _ _ => t.state k == .established || t.state k == .closewait
  | .write octets _ =>
      (t.state k == .established || t.state k == .closewait) &&
        decide (octets.length ≤ (t.slot k).conn.tcb.sbsize.toNat)
  | .close => true
  | .control _ => t.state k != .free
  | _ => false

def Post.isIdle : Post → Bool
  | .idle => true
  | _ => false

def tableStep (t : Table) : TableEvent → Table
  | .demux inbound iss mss =>
      if (t.post .inp).isIdle then
        (tcpdemux t inbound.segment).elim t fun k => t.place .inp (.matched k inbound iss mss)
      else t
  | .output k event fuel =>
      if (t.post .out).isIdle ∧ TcpState.closed.number < (t.state k).number then
        (t.wait k .out).place .out (.waiting k (.output event fuel))
      else t
  | .visit pid k errand =>
      if (t.post (.user pid)).isIdle ∧ t.admits k errand then
        (t.wait k (.user pid)).place (.user pid) (.waiting k errand)
      else t
  | .allocate pid =>
      if (t.post (.user pid)).isIdle then
        t.tcballoc.elim t fun k =>
          let conn := (t.slot k).conn
          (t.setSlot k { t.slot k with
            conn := { conn with tcb := { conn.tcb with state := .closed, error := none } }
            lock := Lock.created (.user pid) }).place (.user pid) (.opening k)
      else t
  | .bind pid lip rip lport rport =>
      match t.post (.user pid) with
      | .opening k => t.tcpbind k lip rip lport rport
      | _ => t
  | .serve pid lport =>
      match t.post (.user pid) with
      | .opening k => t.tcpserver (.user pid) k lport
      | _ => t
  | .connect pid iss mss =>
      match t.post (.user pid) with
      | .opening k => t.tcpcon (.user pid) k iss mss
      | _ => t
  | .giveup pid =>
      match t.post (.user pid) with
      | .opening k => t.giveup (.user pid) k
      | _ => t
  | .go party => t.go party

/-- `tcpinit` for every device. -/
def Table.start (conn : Nat → Conn) : Table where
  slot := fun k =>
    { conn := { conn k with tcb := { (conn k).tcb with state := .free } }
      kind := .other
      lock := Lock.deleted
      parent := none }
  post := fun _ => .idle

end MvsXinu.Tcp
