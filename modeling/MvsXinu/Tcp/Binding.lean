import MvsXinu.Tcp.BlockTable

/-!
# Binding the ends of a connection

`tcpbind` writes the remote end, loses control in `rtget`, writes the local address, loses
control in `rtfree`, and then writes the local port and looks for another block with the same
four-tuple in one go. `tcpcon` loses control once more before the block leaves CLOSED.
`tcpdemux` compares the four-tuple with every block that is not FREE, and then waits for the
mutex of the block it has found.
-/

namespace MvsXinu.Tcp

open MvsXinu.Runs MvsXinu.SeqSpace MvsXinu.Locks

set_option autoImplicit false

def anylport : BitVec 16 := 0
def ipportReserved : BitVec 16 := 1024

/-- The table of blocks; a block is unbound from `tcballoc` in `tcpmopen` until `tcpbind` has
returned `OK`. -/
structure Bindings where
  table : Table
  unbound : Nat → Bool
  lastport : BitVec 16

/-! ## Local ports -/

def Table.portUsed (t : Table) (port : BitVec 16) : Prop :=
  ∃ j < ntcp, t.state j ≠ .free ∧ (t.slot j).conn.tcb.lport = port

instance (t : Table) (port : BitVec 16) : Decidable (t.portUsed port) :=
  inferInstanceAs (Decidable (∃ j < ntcp, _))

/-- The loop of `tcpnxtp`; `none` is the panic when it has come around to where it started. -/
def tcpnxtploop (t : Table) (start : BitVec 16) : Nat → BitVec 16 → Option (BitVec 16)
  | 0, _ => none
  | passes + 1, lastport =>
      if start = lastport then none
      else
        let port := if lastport = ipportReserved then 1 else lastport
        if t.portUsed port then tcpnxtploop t start passes (port + 1)
        else if port = start then none
        else some port

def tcpnxtp (t : Table) (lastport : BitVec 16) : Option (BitVec 16) :=
  tcpnxtploop t lastport ipportReserved.toNat (lastport + 1)

/-! ## `tcpbind` -/

/-- Another block that is not FREE has the four-tuple. -/
def Table.clashes (t : Table) (k : Nat) : Prop :=
  ∃ j < ntcp, j ≠ k ∧ t.state j ≠ .free ∧
    (t.slot k).conn.tcb.rport = (t.slot j).conn.tcb.rport ∧
    (t.slot k).conn.tcb.lport = (t.slot j).conn.tcb.lport ∧
    (t.slot k).conn.tcb.rip = (t.slot j).conn.tcb.rip ∧
    (t.slot k).conn.tcb.lip = (t.slot j).conn.tcb.lip

instance (t : Table) (k : Nat) : Decidable (t.clashes k) :=
  inferInstanceAs (Decidable (∃ j < ntcp, _))

inductive Chosen where
  | port (lport : BitVec 16)
  | refused
  | panics
  deriving DecidableEq

def Table.setPort (t : Table) (k : Nat) (lport : BitVec 16) : Table :=
  let tcb := (t.slot k).conn.tcb
  t.tcpbind k tcb.lip tcb.rip lport tcb.rport

/-- The port that the open gets. -/
def Bindings.chosen (s : Bindings) (k : Nat) (lport : BitVec 16) : Chosen :=
  if lport = anylport then
    match tcpnxtp s.table s.lastport with
    | none => .panics
    | some port => .port port
  else if (s.table.setPort k lport).clashes k then .refused
  else .port lport

/-- `tcpmopen` gives the block back when `tcpbind` fails. -/
def Bindings.port (s : Bindings) (pid k : Nat) (lport : BitVec 16) : Bindings :=
  match s.chosen k lport with
  | .panics => s
  | .refused =>
      { s with
        table := (s.table.setPort k lport).giveup (.user pid) k
        unbound := Function.update s.unbound k false }
  | .port port =>
      { table := s.table.setPort k port
        unbound := Function.update s.unbound k false
        lastport := if lport = anylport then port else s.lastport }

/-- The block that a user's `tcpmopen` works on. -/
def Table.openedBy (t : Table) (pid : Nat) : Option Nat :=
  match t.post (.user pid) with
  | .opening k => some k
  | _ => none

def Bindings.giveup (s : Bindings) (pid k : Nat) : Bindings :=
  { s with
    table := s.table.giveup (.user pid) k
    unbound := Function.update s.unbound k false }

/-- `tcpserver`. -/
def Bindings.serve (s : Bindings) (pid k : Nat) (lport : BitVec 16) : Bindings :=
  if lport = anylport then s.giveup pid k
  else
    { s with
      table := s.table.tcpserver (.user pid) k lport
      unbound := Function.update s.unbound k false }

/-- What a user does in `tcpmopen`. -/
inductive OpenCall where
  | serve (lport : BitVec 16)
  /-- `dnparse`: the remote end. -/
  | parse (rip : Word) (rport : BitVec 16)
  /-- Behind `rtget`: the local address. -/
  | route (lip : Word)
  /-- Behind `rtfree`: the rest of `tcpbind`. -/
  | port (lport : BitVec 16)
  | giveup
  | connect (iss : Tcpseq) (mss : Word)

/-- `tcpbind` comes before `tcpcon`; a server has no remote end to bind. -/
def Bindings.opens (s : Bindings) (pid k : Nat) (call : OpenCall) : Bindings :=
  let tcb := (s.table.slot k).conn.tcb
  match call, s.unbound k with
  | .serve lport, true => s.serve pid k lport
  | .parse rip rport, true => { s with table := s.table.tcpbind k tcb.lip rip tcb.lport rport }
  | .route lip, true => { s with table := s.table.tcpbind k lip tcb.rip tcb.lport tcb.rport }
  | .port lport, true => s.port pid k lport
  | .giveup, true => s.giveup pid k
  | .connect iss mss, false => { s with table := s.table.tcpcon (.user pid) k iss mss }
  | _, _ => s

inductive BindEvent where
  | demux (inbound : Inbound) (iss : Tcpseq) (mss : Word)
  | output (k : Nat) (event : OutEvent) (fuel : Nat)
  | visit (pid k : Nat) (errand : Errand)
  | go (party : Party)
  | allocate (pid : Nat)
  | opens (pid : Nat) (call : OpenCall)

def Bindings.onTable (s : Bindings) (event : TableEvent) : Bindings :=
  { s with table := tableStep s.table event }

def bindStep (s : Bindings) : BindEvent → Bindings
  | .demux inbound iss mss => s.onTable (.demux inbound iss mss)
  | .output k event fuel => s.onTable (.output k event fuel)
  | .visit pid k errand => s.onTable (.visit pid k errand)
  | .go party => s.onTable (.go party)
  | .allocate pid =>
      if (s.table.post (.user pid)).isIdle then
        s.table.tcballoc.elim s fun k =>
          { s.onTable (.allocate pid) with unbound := Function.update s.unbound k true }
      else s
  | .opens pid call => (s.table.openedBy pid).elim s fun k => s.opens pid k call

def Bindings.start (conn : Nat → Conn) : Bindings where
  table := Table.start conn
  unbound := fun _ => false
  lastport := 1

/-! ## What `tcpdemux` should return -/

/-- A connection that has its ends: the block is neither free nor a server's nor unbound. -/
def Bindings.Claimed (s : Bindings) (k : Nat) : Prop :=
  s.table.state k ≠ .free ∧ s.table.state k ≠ .listen ∧ s.unbound k = false

instance (s : Bindings) (k : Nat) : Decidable (s.Claimed k) :=
  inferInstanceAs (Decidable (_ ∧ _ ∧ _))

def Bindings.Matches (s : Bindings) (k : Nat) (segment : Segment) : Prop :=
  s.Claimed k ∧ (s.table.slot k).Pairs segment

/-- A connection beyond CLOSED. -/
def Table.Connected (t : Table) (k : Nat) : Prop :=
  t.state k ≠ .free ∧ t.state k ≠ .closed ∧ t.state k ≠ .listen

instance (t : Table) (k : Nat) : Decidable (t.Connected k) :=
  inferInstanceAs (Decidable (_ ∧ _ ∧ _))

/-- Remote and local end. -/
def Tcb.ends (tcb : Tcb) : Word × BitVec 16 × Word × BitVec 16 :=
  (tcb.rip, tcb.rport, tcb.lip, tcb.lport)

def Table.Distinct (t : Table) : Prop :=
  ∀ i < ntcp, ∀ j < ntcp, t.Connected i → t.Connected j →
    (t.slot i).conn.tcb.ends = (t.slot j).conn.tcb.ends → i = j

/-- The only exact match, or without one a server of the port if the segment is a SYN. -/
def Bindings.Demuxed (s : Bindings) (segment : Segment) : Option Nat → Prop
  | some k =>
      s.Matches k segment ∧ (∀ j < ntcp, s.Matches j segment → j = k) ∨
        (∀ j < ntcp, ¬ s.Matches j segment) ∧ (s.table.slot k).Listens segment ∧
          segment.code.syn = true
  | none =>
      (∀ j < ntcp, ¬ s.Matches j segment) ∧
        (segment.code.syn = true → ∀ j < ntcp, ¬ (s.table.slot j).Listens segment)

/-- `tcpdemux` returns at once when it finds nothing, and otherwise behind the mutex. -/
structure DemuxLaw (s : Bindings) (event : BindEvent) : Prop where
  distinct : (bindStep s event).table.Distinct
  missed : ∀ inbound iss mss, event = .demux inbound iss mss →
    tcpdemux s.table inbound.segment = none → s.Demuxed inbound.segment none
  returned : ∀ k inbound iss mss, event = .go .inp →
    s.table.post .inp = .waiting k (.segment inbound iss mss) → ¬ s.table.Blocked k .inp →
    s.Demuxed inbound.segment (if s.table.state k = .free then none else some k)

/-! ## The runs in which it does -/

def Table.carried (t : Table) : Option (Nat × Segment) := (t.post .inp).carried

/-- While `tcpinp` waits with a segment, no open binds its four-tuple. -/
def Apart (s : Bindings) (k : Nat) (lport : BitVec 16) : Prop :=
  match s.table.carried, s.chosen k lport with
  | some (_, segment), .port port => ¬ ((s.table.setPort k port).slot k).Pairs segment
  | _, _ => True

/-- The search meets no block that only keeps the four-tuple from earlier; while `tcpinp` waits
for the mutex of the block it has found, no open is given that block or binds the four-tuple
of the segment; the block found for a SYN is not free behind the `wait`; and `tcpsynrcvd` finds
its connection as it was. -/
def Unhurried (s : Bindings) : BindEvent → Prop
  | .demux inbound _ _ =>
      ∀ j < ntcp, s.table.state j ≠ .free → (s.table.slot j).Pairs inbound.segment → s.Claimed j
  | .allocate _ =>
      match s.table.carried with
      | some (k, _) => s.table.tcballoc ≠ some k
      | none => True
  | .go party =>
      match s.table.post party with
      | .waiting k (.segment inbound _ _) =>
          ¬ s.table.Blocked k party → s.table.state k = .free → inbound.segment.code.syn = false
      | .parent k server _ => ¬ s.table.Blocked server party → s.table.state k = .synrcvd
      | _ => True
  | .opens pid (.port lport) =>
      match s.table.openedBy pid with
      | some k => s.unbound k = true → Apart s k lport
      | none => True
  | _ => True

instance (s : Bindings) (k : Nat) (lport : BitVec 16) : Decidable (Apart s k lport) := by
  dsimp only [Apart]
  cases s.table.carried with
  | none => exact .isTrue trivial
  | some found => cases s.chosen k lport <;> dsimp only <;> infer_instance

instance (s : Bindings) (event : BindEvent) : Decidable (Unhurried s event) := by
  cases event with
  | demux inbound iss mss => dsimp only [Unhurried]; infer_instance
  | allocate pid =>
      dsimp only [Unhurried]
      cases s.table.carried <;> dsimp only <;> infer_instance
  | go party =>
      dsimp only [Unhurried]
      cases s.table.post party with
      | waiting k errand => cases errand <;> dsimp only <;> infer_instance
      | _ => dsimp only; infer_instance
  | opens pid call =>
      cases call with
      | port lport =>
          dsimp only [Unhurried]
          cases s.table.openedBy pid <;> dsimp only <;> infer_instance
      | _ => exact .isTrue trivial
  | _ => exact .isTrue trivial

end MvsXinu.Tcp
