import MvsXinu.Lib.Headcount
import MvsXinu.Tcp.BlockTable

/-!
# `TcpCurrEstab`

The handlers of SYN_SENT and SYN_RCVD add to the counter, those of ESTABLISHED and CLOSE_WAIT
and `tcpclose` take from it. `tcpabort` leaves the state as it is and does not look at the
counter.
-/

namespace MvsXinu.Tcp

open MvsXinu.Runs MvsXinu.SeqSpace MvsXinu.Locks MvsXinu.Headcount

set_option autoImplicit false

/-- The table with `TcpCurrEstab`. -/
structure Estab where
  table : Table
  currEstab : BitVec 32

/-! ## What the code adds -/

/-- The handler that `tcpswitch` calls. -/
def switchCounts (conn : Conn) (inbound : Inbound) : Int :=
  let segment := inbound.segment
  match conn.tcb.state with
  | .synsent =>
      if segment.code.ack ∧
          (seqcmp segment.ack conn.tcb.iss ≤ 0 ∨ 0 < seqcmp segment.ack conn.tcb.snext) then 0
      else if segment.code.rst then 0
      else if !segment.code.syn then 0
      else if (tcpsynsent conn inbound).tcb.state = .synrcvd then 0
      else 1
  | .synrcvd =>
      if segment.code.rst then 0
      else if segment.code.syn then 0
      else if (tcpacked conn segment).1 = sysErr then 0
      else if (tcpacked conn segment).2.tcb.passive ∧ inbound.parent ≠ .accepts then 0
      else 1
  | .established | .closewait =>
      if segment.code.rst then -1
      else if segment.code.syn then -1
      else 0
  | _ => 0

/-- With a server to wait for, `tcpsynrcvd` adds only behind the `wait`. -/
def segmentCounts (slot : Slot) (inbound : Inbound) : Int :=
  match handed slot.conn inbound with
  | some (some (conn, inbound)) =>
      if slot.conn.tcb.state = .synrcvd ∧ slot.parent.isSome ∧
          (synrcvdwaits conn inbound).isSome then 0
      else switchCounts conn inbound
  | _ => 0

def closeCounts (conn : Conn) : Int :=
  if (conn.tcb.state = .established ∨ conn.tcb.state = .closewait) ∧ conn.tcb.error = none then -1
  else 0

def errandCounts (slot : Slot) : Errand → Int
  | .segment inbound _ _ => segmentCounts slot inbound
  | .close => closeCounts slot.conn
  | _ => 0

def goCounts (t : Table) (party : Party) : Int :=
  match t.post party with
  | .waiting k errand =>
      if t.Blocked k party then 0
      else if t.state k = .free then 0
      else errandCounts (t.slot k) errand
  | .parent _ server inbound =>
      if t.Blocked server party then 0
      else if t.state server ≠ .listen ∨ inbound.parent = .full then 0
      else 1
  | _ => 0

def tableCounts (t : Table) : TableEvent → Int
  | .go party => goCounts t party
  | _ => 0

def estabStep (s : Estab) (event : TableEvent) : Estab where
  table := tableStep s.table event
  currEstab := s.currEstab + BitVec.ofInt 32 (tableCounts s.table event)

def Estab.start (conn : Nat → Conn) : Estab where
  table := Table.start conn
  currEstab := 0

/-! ## What the counter should say -/

/-- In ESTABLISHED or CLOSE_WAIT, and not aborted. -/
def Conn.Current (conn : Conn) : Prop :=
  (conn.tcb.state = .established ∨ conn.tcb.state = .closewait) ∧ conn.tcb.error = none

instance (conn : Conn) : Decidable conn.Current :=
  inferInstanceAs (Decidable (_ ∧ conn.tcb.error = none))

def Table.established (t : Table) : Nat :=
  headcount (Finset.range ntcp) fun k => (t.slot k).conn.Current

/-! ## The runs in which it says so -/

/-- A segment that counts a connection although it has been aborted. -/
def Conn.Revives (conn : Conn) (code : Code) : Prop :=
  conn.tcb.error.isSome = true ∧
    match conn.tcb.state with
    | .synsent => code.syn = true ∧ code.rst = false
    | .synrcvd => code.ack = true ∧ code.rst = false ∧ code.syn = false
    | .established | .closewait => (code.rst || code.syn) = true
    | _ => False

instance (conn : Conn) (code : Code) : Decidable (conn.Revives code) := by
  dsimp only [Conn.Revives]
  cases conn.tcb.state <;> dsimp only <;> infer_instance

/-- No acceptable segment revives an aborted connection, no last timeout and no DELETE comes
for one that is counted, and `tcpsynrcvd` finds the connection behind the `wait` as it was
before. -/
def ErrandApt (conn : Conn) : Errand → Prop
  | .segment inbound _ _ =>
      (tcpok conn.tcb inbound.segment).1 = true →
        ¬ conn.Revives (tcpok conn.tcb inbound.segment).2.code
  | .output event _ =>
      conn.Current → event ≠ .delete ∧ ¬ (conn.Last event ∧ conn.Sending)
  | _ => True

def Aboveboard (t : Table) : TableEvent → Prop
  | .go party =>
      match t.post party with
      | .waiting k errand => ¬ t.Blocked k party → ErrandApt (t.slot k).conn errand
      | .parent k server inbound =>
          ¬ t.Blocked server party → t.state k = .synrcvd ∧
            ((t.slot k).conn.tcb.error.isSome = true →
              t.state server ≠ .listen ∨ inbound.parent = .full)
      | _ => True
  | _ => True

instance (conn : Conn) (event : OutEvent) : Decidable (conn.Last event) :=
  inferInstanceAs (Decidable (_ ∧ _))

instance (conn : Conn) : Decidable conn.Sending := inferInstanceAs (Decidable (_ ∨ _))

instance (conn : Conn) (errand : Errand) : Decidable (ErrandApt conn errand) := by
  apply Errand.casesOn (motive := fun errand => Decidable (ErrandApt conn errand)) errand <;>
    intros <;> dsimp only [ErrandApt] <;> infer_instance

instance (t : Table) (event : TableEvent) : Decidable (Aboveboard t event) := by
  cases event with
  | go party =>
      dsimp only [Aboveboard]
      cases t.post party <;> dsimp only <;> infer_instance
  | _ => exact .isTrue trivial

end MvsXinu.Tcp
