import MvsXinu.Tcp.Receive
import MvsXinu.Tcp.Timer

/-!
# The output side of a connection

A connection is a control block together with the timer list and the queue of
`tcps_oport`, both of which it shares with the other connections. The functions of the
output process are state transformers on it. `trace` is a record, kept for reasoning
only, of what was called in which state.
-/

namespace MvsXinu.Tcp

open MvsXinu.SeqSpace

set_option autoImplicit false

/-- A record of calls, each with the control block it found: segments sent (new data or
not), replies made outside of `tcpsend`, acknowledgements looked at, octets written, kicks
with room in the port or not, and entries into the final wait. -/
structure Trace where
  sends : List (Tcb × Bool) := []
  replies : List Segment := []
  acks : List (Tcb × Segment) := []
  writes : List (Tcb × List Octet) := []
  kicks : List (Tcb × Bool) := []
  waits : List Tcb := []

structure Conn where
  tcb : Tcb
  tcbnum : Nat
  timers : List Tqent := []
  oport : List (OutEvent × Nat) := []
  ctr100 : Int := 0
  -- calls of `tcpwr` that wait in `tcpgetspace`, with their data and `isurg`
  writers : List (List Octet × Bool) := []
  trace : Trace := {}

def Conn.key (conn : Conn) (event : OutEvent) : TimerKey := .oport event conn.tcbnum

def Conn.setTimer (conn : Conn) (event : OutEvent) (time : Int) : Conn :=
  { conn with timers := tmset conn.ctr100 (conn.key event) time conn.timers }

def Conn.clearTimer (conn : Conn) (event : OutEvent) : Conn :=
  { conn with timers := (tmclear conn.ctr100 (conn.key event) conn.timers).2 }

def Conn.left (conn : Conn) (event : OutEvent) : Int := tmleft (conn.key event) conn.timers

/-- Send now, or after a delay if the user asked for it and none is running. -/
def tcpkick (conn : Conn) : Conn :=
  if conn.tcb.flags.delack && conn.left .send == 0 then conn.setTimer .send tcpAckdelay
  else
    let room := decide (conn.oport.length < tcpqlen)
    { conn with
      oport := if room then conn.oport ++ [(.send, conn.tcbnum)] else conn.oport
      trace := { conn.trace with kicks := conn.trace.kicks ++ [(conn.tcb, room)] } }

def tcpkilltimers (conn : Conn) : Conn :=
  ((conn.clearTimer .send).clearTimer .retransmit).clearTimer .persist

def tcpwait (conn : Conn) : Conn :=
  let conn := (tcpkilltimers conn).setTimer .delete tcpTwomsl
  { conn with trace := { conn.trace with waits := conn.trace.waits ++ [conn.tcb] } }

def tcpabort (conn : Conn) (error : TcpError) : Conn :=
  let conn := tcpkilltimers conn
  { conn with tcb := { conn.tcb with
    flags := { conn.tcb.flags with rdone := true, sdone := true }
    error := some error } }

def tcbdealloc (conn : Conn) : Conn :=
  if conn.tcb.state = .free then conn
  else
    let conn := tcpkilltimers conn
    { conn with tcb := { conn.tcb with state := .free } }

/-- Octets and sequence numbers that are sent and not acknowledged. -/
def Tcb.pending (tcb : Tcb) : Word := tcb.snext - tcb.suna

def wordMin (left right : Word) : Word := if left.toNat < right.toNat then left else right

/-- Offset into the send buffer and length of the next segment. -/
def tcpsndlen (tcb : Tcb) (rexmt : Bool) : Word × Word :=
  let off := if rexmt || tcb.code.syn then 0 else tcb.pending
  (off, wordMin (wordMin (tcb.sbcount - off) tcb.swindow) tcb.smss)

def tcphowmuch (tcb : Tcb) : Int :=
  (tcb.suna + tcb.sbcount - tcb.snext + (if tcb.code.syn then 1 else 0) +
    (if tcb.flags.sndfin then 1 else 0)).toInt

/-- The MSS option, written by `tcprmss` behind the fixed header. -/
def tcprmss (tcb : Tcb) : List Octet :=
  [2, 4, (tcb.rmss >>> 8).setWidth 8, tcb.rmss.setWidth 8]

/-- `tcb_code` of the segment: the FIN goes with the segment that ends at `slast`. -/
def tcpsendcode (tcb : Tcb) (seq : Tcpseq) (datalen : Word) : Code :=
  if tcb.flags.sndfin ∧ seqcmp (seq + datalen) tcb.slast = 0 then { tcb.code with fin := true }
  else tcb.code

/-- The urgent pointer, a 16-bit signed distance. -/
def tcpsendurg (tcb : Tcb) (seq : Tcpseq) : Option (BitVec 16) :=
  let up : BitVec 16 := (tcb.supseq - seq).setWidth 16
  if tcb.flags.supok ∧ 0 ≤ up.toInt then some up else none

def tcpsendseq (tcb : Tcb) (rexmt : Bool) : Tcpseq := if rexmt then tcb.suna else tcb.snext

/-- The data octets that `tcpsend` copies. -/
def tcpsenddata (tcb : Tcb) (rexmt : Bool) : List Octet :=
  Ring.load tcb.sbsize.toNat tcb.sndbuf
    ((tcb.sbstart + (tcpsndlen tcb rexmt).1).toNat % tcb.sbsize.toNat) (tcpsndlen tcb rexmt).2.toNat

/-- The segment that `tcpsend` builds. -/
def tcpsegment (tcb : Tcb) (rexmt : Bool) : Segment :=
  let datalen := (tcpsndlen tcb rexmt).2
  let seq := tcpsendseq tcb rexmt
  let code := tcpsendcode tcb seq datalen
  { src := tcb.lip
    dst := tcb.rip
    sport := tcb.lport
    dport := tcb.rport
    seq := seq
    ack := tcb.rnext
    offset := if code.syn then 0x60 else tcphoffset
    code := { code with
      ack := code.ack || !tcb.flags.firstsend
      psh := code.psh || decide (0 < datalen.toNat)
      urg := code.urg || (tcpsendurg tcb seq).isSome }
    window := BitVec.ofInt 16 (tcprwindow tcb).1
    urgptr := (tcpsendurg tcb seq).getD 0
    tcpData := (if code.syn then tcprmss tcb else []) ++ tcpsenddata tcb rexmt }

/-- How far `snext` moves. A retransmission only counts octets beyond it. -/
def tcpnewdata (tcb : Tcb) (rexmt : Bool) : Word :=
  let datalen := (tcpsndlen tcb rexmt).2
  let code := tcpsendcode tcb (tcpsendseq tcb rexmt) datalen
  if rexmt then
    let newdata := tcb.suna + datalen - tcb.snext
    if newdata.toInt < 0 then 0 else newdata
  else datalen + (if code.syn then 1 else 0) + (if code.fin then 1 else 0)

/-- The control block after `tcpsend`. -/
def tcpsent (tcb : Tcb) (rexmt : Bool) : Tcb :=
  let datalen := (tcpsndlen tcb rexmt).2
  let code := tcpsendcode tcb (tcpsendseq tcb rexmt) datalen
  { (tcprwindow tcb).2 with
    code := code
    flags := { tcb.flags with needout := false }
    snext := tcb.snext + tcpnewdata tcb rexmt }

def tcpsend (conn : Conn) (rexmt : Bool) : Conn :=
  let sent := { conn with
    tcb := tcpsent conn.tcb rexmt
    trace := { conn.trace with sends := conn.trace.sends ++ [(conn.tcb, rexmt)] } }
  if sent.tcb.state = .timewait then tcpwait sent else sent

/-- The control block after a retransmission timeout: slow start from one segment. -/
def tcpcongested (tcb : Tcb) : Tcb :=
  let ssthresh := if tcb.ostate ≠ .rexmt then tcb.cwnd else tcb.ssthresh
  let half := wordMin tcb.swindow ssthresh / 2
  { tcb with
    ssthresh := if half.toNat < tcb.smss.toNat then tcb.smss else half
    cwnd := tcb.smss }

def tcprexmt (conn : Conn) (event : OutEvent) : Conn :=
  if event ≠ .retransmit then conn
  else
    let conn := { conn with tcb := { conn.tcb with rexmtcount := conn.tcb.rexmtcount + 1 } }
    if tcpMaxretries < conn.tcb.rexmtcount then tcpabort conn .timedout
    else
      let conn := tcpsend conn true
      let conn := conn.setTimer .retransmit
        (min (conn.tcb.rexmt * 2 ^ conn.tcb.rexmtcount) tcpMaxrxt)
      { conn with tcb := tcpcongested conn.tcb }

/-- The send loop of `tcpxmit`. It need not end, so it runs on fuel. -/
def tcpxmitloop (window : Int) : Nat → Conn → Option Conn
  | 0, _ => none
  | fuel + 1, conn =>
      if 0 < tcphowmuch conn.tcb ∧ conn.tcb.pending.toInt < window then
        tcpxmitloop window fuel (tcpsend conn false)
      else some conn

/-- The retransmission timer is started unless it runs. -/
def Conn.startTimer (conn : Conn) : Conn :=
  if conn.left .retransmit = 0 then conn.setTimer .retransmit conn.tcb.rexmt else conn

/-- `tcpxmit` with an empty queue of things to send. -/
def tcpxmitidle (conn : Conn) : Conn :=
  let conn := if conn.tcb.flags.needout then tcpsend conn false else conn
  if conn.tcb.snext = conn.tcb.suna then conn else conn.startTimer

/-- `tcpxmit` with a window of zero: one probe, then the persist timer. -/
def tcpxmitshut (conn : Conn) : Conn :=
  let conn := { conn with tcb := { conn.tcb with
    ostate := .persist
    persist := conn.tcb.rexmt } }
  let conn := tcpsend conn false
  conn.setTimer .persist conn.tcb.persist

def tcpxmit (fuel : Nat) (conn : Conn) (event : OutEvent) : Option Conn :=
  if event = .retransmit then
    let conn := tcprexmt (conn.clearTimer .send) event
    some { conn with tcb := { conn.tcb with ostate := .rexmt } }
  else if tcphowmuch conn.tcb = 0 then some (tcpxmitidle conn)
  else if conn.tcb.swindow = 0 then some (tcpxmitshut conn)
  else
    let conn := { conn with tcb := { conn.tcb with ostate := .xmit } }
    (tcpxmitloop (wordMin conn.tcb.swindow conn.tcb.cwnd).toInt fuel conn).map Conn.startTimer

def tcppersist (conn : Conn) (event : OutEvent) : Conn :=
  if event ≠ .persist ∧ event ≠ .send then conn
  else
    let conn := tcpsend conn true
    let conn := { conn with tcb := { conn.tcb with
      persist := min (conn.tcb.persist * 2) tcpMaxprs } }
    conn.setTimer .persist conn.tcb.persist

def tcpidle (fuel : Nat) (conn : Conn) (event : OutEvent) : Option Conn :=
  if event = .send then tcpxmit fuel conn event else some conn

def tcposwitch (fuel : Nat) (conn : Conn) (event : OutEvent) : Option Conn :=
  match conn.tcb.ostate with
  | .idle => tcpidle fuel conn event
  | .persist => some (tcppersist conn event)
  | .xmit => tcpxmit fuel conn event
  | .rexmt => some (tcprexmt conn event)

/-- `tcpout` on one message. Those of other connections only leave the queue. -/
def tcpout (fuel : Nat) (conn : Conn) : Option Conn :=
  match conn.oport with
  | [] => some conn
  | (event, tcbnum) :: rest =>
      let conn := { conn with oport := rest }
      if tcbnum ≠ conn.tcbnum then some conn
      else if conn.tcb.state.number ≤ TcpState.closed.number then some conn
      else if event = .delete then some (tcbdealloc conn)
      else tcposwitch fuel conn event

end MvsXinu.Tcp
