import MvsXinu.Lib.Runs
import MvsXinu.Tcp.Input

/-!
# A connection as a state machine

The users' calls, and the step function over everything that can happen to a connection:
a segment arrives, the output process takes a message, the timer process makes a pass, a
user calls, or another connection uses the timer list and the port. Each handler runs
under the block's mutex, so a step is one of them.
-/

namespace MvsXinu.Tcp

open MvsXinu.SeqSpace

set_option autoImplicit false

/-- `tcpwr` up to `tcpgetspace`: the call is refused or waits for space. -/
def tcpwrcall (conn : Conn) (octets : List Octet) (isurg : Bool) : Conn :=
  if conn.tcb.state ≠ .established ∧ conn.tcb.state ≠ .closewait then conn
  else if conn.tcb.sbsize.toNat < octets.length then conn
  else { conn with writers := conn.writers ++ [(octets, isurg)] }

/-- The control block with `octets` copied into the send buffer. -/
def tcpstored (tcb : Tcb) (octets : List Octet) (isurg : Bool) : Tcb :=
  { tcb with
    sndbuf := Ring.store tcb.sbsize.toNat tcb.sndbuf
      ((tcb.sbstart + tcb.sbcount).toNat % tcb.sbsize.toNat) octets
    sbcount := tcb.sbcount + BitVec.ofNat 32 octets.length
    supseq := if isurg then tcb.snext + BitVec.ofNat 32 octets.length - 1 else tcb.supseq
    flags := { tcb.flags with
      supok := tcb.flags.supok || isurg
      needout := true } }

/-- The rest of `tcpwr` once there is space. -/
def tcpwr (conn : Conn) (octets : List Octet) (isurg : Bool) : Conn :=
  if octets = [] then conn
  else
    let stored := { conn with
      tcb := tcpstored conn.tcb octets isurg
      trace := { conn.trace with writes := conn.trace.writes ++ [(conn.tcb, octets)] } }
    if isurg || stored.tcb.snext == stored.tcb.suna then tcpkick stored else stored

/-- A waiting writer looks again. It gives up when the block is gone or in error. -/
def tcpgetspace (conn : Conn) (index : Nat) : Conn :=
  match conn.writers[index]? with
  | none => conn
  | some (octets, isurg) =>
      let served := { conn with writers := conn.writers.eraseIdx index }
      if conn.tcb.state = .free ∨ conn.tcb.error.isSome then served
      else if octets.length ≤ (conn.tcb.sbsize - conn.tcb.sbcount).toNat then
        tcpwr served octets isurg
      else conn

/-- The control block of a closed connection: a FIN is to be sent behind the data. -/
def tcpclosedtcb (tcb : Tcb) : Tcb :=
  { tcb with
    flags := { tcb.flags with sndfin := true, needout := true }
    slast := tcb.suna + tcb.sbcount
    state := if tcb.state = .established then .finwait1 else .lastack }

/-- `tcpclose` until it waits for the FIN to be acknowledged. -/
def tcpclose (conn : Conn) : Conn :=
  if conn.tcb.state ≠ .established ∧ conn.tcb.state ≠ .closewait then conn
  else if conn.tcb.error.isSome then tcbdealloc conn
  else tcpkick { conn with tcb := tcpclosedtcb conn.tcb }

/-- The closer has been woken. -/
def tcpcloseend (conn : Conn) : Conn :=
  if conn.tcb.state = .lastack then tcbdealloc conn else conn

/-- `tcpread` with data to return. -/
def tcpread (conn : Conn) (len : Word) : Conn :=
  let read := tcpgetdata conn.tcb len
  let conn := { conn with tcb := read.2.1 }
  if read.2.2 then tcpkick conn else conn

/-- `tcpuopt`: the options a user may set or clear. -/
def tcpuopt (conn : Conn) (set delack buffer : Bool) : Conn :=
  { conn with tcb := { conn.tcb with flags := { conn.tcb.flags with
    delack := if delack then set else conn.tcb.flags.delack
    buffer := if buffer then set else conn.tcb.flags.buffer } } }

inductive Event where
  | segment (inbound : Inbound)
  | output (fuel : Nat)
  | tick (delta : Int)
  | clock (ctr100 : Int)
  | write (octets : List Octet) (isurg : Bool)
  | resume (index : Nat)
  | close
  | closeEnd
  | read (len : Word)
  | option (set delack buffer : Bool)
  | otherKick (event : OutEvent) (tcbnum : Nat)
  | otherSet (key : TimerKey) (time : Int)
  | otherClear (key : TimerKey)

/-- A pass of the timer process sends the messages of `tcps_oport`. -/
def Conn.tick (conn : Conn) (delta : Int) : Conn :=
  let passed := tcptimer delta conn.timers
  { conn with
    timers := passed.2
    oport := conn.oport ++ passed.1.filterMap fun key => match key with
      | .oport event tcbnum => some (event, tcbnum)
      | .other _ _ => none }

/-- A key that belongs to this connection. -/
def Conn.owns (conn : Conn) : TimerKey → Bool
  | .oport _ tcbnum => tcbnum == conn.tcbnum
  | .other _ _ => false

/-- A segment or an output event that loops forever is not taken. -/
def connStep (conn : Conn) : Event → Conn
  | .segment inbound => (tcpinp conn inbound).getD conn
  | .output fuel => (tcpout fuel conn).getD conn
  | .tick delta => conn.tick delta
  | .clock ctr100 => { conn with ctr100 := ctr100 }
  | .write octets isurg => tcpwrcall conn octets isurg
  | .resume index => tcpgetspace conn index
  | .close => tcpclose conn
  | .closeEnd => tcpcloseend conn
  | .read len => tcpread conn len
  | .option set delack buffer => tcpuopt conn set delack buffer
  | .otherKick event tcbnum =>
      if tcbnum ≠ conn.tcbnum ∧ conn.oport.length < tcpqlen then
        { conn with oport := conn.oport ++ [(event, tcbnum)] }
      else conn
  | .otherSet key time =>
      if conn.owns key then conn
      else { conn with timers := tmset conn.ctr100 key time conn.timers }
  | .otherClear key =>
      if conn.owns key then conn
      else { conn with timers := (tmclear conn.ctr100 key conn.timers).2 }

/-- The block that `tcpsync` and `tcpcon` prepare for an active open. -/
def tcpcon (iss : Tcpseq) (mss : Word) (lip rip : Word) (lport rport : BitVec 16) : Tcb where
  state := .synsent
  code := { syn := true }
  flags := { needout := true, firstsend := true }
  lip := lip
  rip := rip
  lport := lport
  rport := rport
  iss := iss
  suna := iss
  snext := iss
  lwack := iss
  swindow := mss
  cwnd := mss
  ssthresh := 65535
  smss := mss
  rmss := mss

/-- The block that `tcpsync`, `tcplisten` and `tcpwinit` prepare for a SYN, before its data
are taken. `parentSmss` is what the server's block holds, 0 for nothing. -/
def tcplisten (iss : Tcpseq) (mss parentSmss : Word) (segment : Segment) : Tcb where
  state := .synrcvd
  code := { syn := true }
  flags := { needout := true }
  passive := true
  lip := segment.dst
  rip := segment.src
  lport := segment.dport
  rport := segment.sport
  iss := iss
  suna := iss
  snext := iss
  lwack := iss
  lwseq := segment.seq
  swindow := segment.window.setWidth 32
  smss := if parentSmss = 0 then mss else wordMin parentSmss mss
  cwnd := if parentSmss = 0 then mss else wordMin parentSmss mss
  ssthresh := 65535
  rmss := mss
  rnext := segment.seq
  cwin := segment.seq + BitVec.ofNat 32 tcprbs

/-- The blocks that a run of a connection starts from, whatever the timer list and the
port hold of other connections. -/
inductive Opened : Conn → Prop where
  | active (iss : Tcpseq) (mss lip rip : Word) (lport rport : BitVec 16) (tcbnum : Nat)
      (timers : List Tqent) (oport : List (OutEvent × Nat)) (ctr100 : Int)
      (others : ∀ event, ¬ Running (.oport event tcbnum) timers)
      (foreign : ∀ event, (event, tcbnum) ∉ oport) :
      Opened (tcpkick
        { tcb := tcpcon iss mss lip rip lport rport, tcbnum, timers, oport, ctr100 })
  | passive (iss : Tcpseq) (mss parentSmss : Word) (inbound : Inbound) (tcbnum : Nat)
      (timers : List Tqent) (oport : List (OutEvent × Nat)) (ctr100 : Int)
      (syn : inbound.segment.code.syn = true)
      (others : ∀ event, ¬ Running (.oport event tcbnum) timers)
      (foreign : ∀ event, (event, tcbnum) ∉ oport) :
      Opened (tcpdeliver
        { tcb := tcplisten iss mss parentSmss inbound.segment, tcbnum, timers, oport, ctr100 }
        inbound)

end MvsXinu.Tcp
