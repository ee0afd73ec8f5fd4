import MvsXinu.Tcp.Output
import MvsXinu.Tcp.ReceiveTrim

/-!
# Inbound segments

`tcpinp` for one connection: acceptance, options, and the handler of the state. What a
handler reads outside of the connection comes with the segment: whether a fragment queue
can be allocated, and the state of the server behind a passive open.
-/

namespace MvsXinu.Tcp

open MvsXinu.SeqSpace

set_option autoImplicit false

/-- `SYSERR` and `OK` of the functions that return an `int`. -/
def sysErr : Int := -1
def ok : Int := 1

/-- The server of a passive open when its client's handshake ends. -/
inductive Parent where
  | gone
  | notListening
  | full
  | accepts
  deriving DecidableEq, Repr

/-- A segment with what its handler finds outside of the connection. `stale` holds the
octets of the packet buffer behind the packet. -/
structure Inbound where
  segment : Segment
  newqOk : Bool := true
  parent : Parent := .accepts
  stale : Nat → Octet := fun _ => 0

/-- The smoothed round trip and the timeout, from the time the timer ran. -/
def tcprttsample (tcb : Tcb) (rrt : Int) : Tcb :=
  let srt := if tcb.srt = 0 then rrt * 8 else tcb.srt
  let delta := rrt - srt / 8
  let rtde := tcb.rtde + (|delta| - tcb.rtde / 4)
  { tcb with
    srt := srt + delta
    rtde := rtde
    rexmt := max (((srt + delta) / 4 + rtde) / 2) tcpMinrxt }

/-- The congestion window opens by a segment, or by a segment for each window. -/
def tcpcwnd (tcb : Tcb) : Word :=
  if tcb.cwnd.toNat < tcb.ssthresh.toNat then tcb.cwnd + tcb.smss
  else tcb.cwnd + tcb.smss * tcb.smss / tcb.cwnd

def tcprtt (conn : Conn) : Conn :=
  let cleared := tmclear conn.ctr100 (conn.key .retransmit) conn.timers
  let tcb := match cleared.1 with
    | none => conn.tcb
    | some rrt => if conn.tcb.ostate = OutState.rexmt then conn.tcb else tcprttsample conn.tcb rrt
  { conn with
    timers := cleared.2
    tcb := { tcb with cwnd := tcpcwnd tcb } }

def tcpostate (conn : Conn) (acked : Int) : Conn :=
  if acked ≤ 0 then conn
  else
    let conn := if conn.tcb.ostate = .rexmt then
        { conn with tcb := { conn.tcb with rexmtcount := 0, ostate := .xmit } }
      else conn
    if conn.tcb.sbcount = 0 then { conn with tcb := { conn.tcb with ostate := .idle } }
    else tcpkick conn

def Conn.reply (conn : Conn) (segment : Segment) : Conn :=
  { conn with trace := { conn.trace with replies := conn.trace.replies ++ [segment] } }

/-- No reset is sent for a reset. -/
def tcpreset (conn : Conn) (segment : Segment) : Conn :=
  if segment.code.rst then conn
  else conn.reply {
    src := segment.dst
    dst := segment.src
    sport := segment.dport
    dport := segment.sport
    seq := if segment.code.ack then segment.ack else 0
    ack := segment.seq + BitVec.ofInt 32 segment.seglen
    code := { rst := true, ack := !segment.code.ack } }

/-- Only a segment that takes sequence space is answered. -/
def tcpackit (conn : Conn) (segment : Segment) : Conn :=
  if segment.code.rst then conn
  else if segment.datalen ≤ 0 ∧ !segment.code.syn ∧ !segment.code.fin then conn
  else
    { conn.reply {
        src := segment.dst
        dst := segment.src
        sport := segment.dport
        dport := segment.sport
        seq := conn.tcb.snext
        ack := conn.tcb.rnext
        code := { ack := true }
        window := BitVec.ofInt 16 (tcprwindow conn.tcb).1 } with
      tcb := (tcprwindow conn.tcb).2 }

/-- Control octets that an acknowledgement of `acked` numbers up to `ack` covers: the SYN
first, the FIN when everything sent is covered. -/
def tcpackedsyn (tcb : Tcb) : Bool := tcb.code.syn
def tcpackedfin (tcb : Tcb) (ack : Tcpseq) : Bool :=
  tcb.code.fin && decide (seqcmp ack tcb.snext = 0)

/-- The octets acknowledged besides SYN and FIN. -/
def tcpackedlen (tcb : Tcb) (ack : Tcpseq) : Int :=
  seqcmp ack tcb.suna - (if tcpackedsyn tcb then 1 else 0) - (if tcpackedfin tcb ack then 1 else 0)

/-- The control block after an acceptable acknowledgement, `tcprtt` done. -/
def tcpaccepted (tcb : Tcb) (ack : Tcpseq) : Tcb :=
  { tcb with
    suna := ack
    code := { tcb.code with
      syn := false
      fin := tcb.code.fin && !tcpackedfin tcb ack }
    flags := { tcb.flags with
      firstsend := tcb.flags.firstsend && !tcpackedsyn tcb
      sndfin := tcb.flags.sndfin && !tcpackedfin tcb ack
      supok := tcb.flags.supok && !decide (0 ≤ seqcmp ack tcb.supseq) }
    sbstart := BitVec.ofNat 32
      ((tcb.sbstart + BitVec.ofInt 32 (tcpackedlen tcb ack)).toNat % tcb.sbsize.toNat)
    sbcount := tcb.sbcount - BitVec.ofInt 32 (tcpackedlen tcb ack) }

/-- The value returned is the number of octets acknowledged, but also 0 for an old
acknowledgement and the value of `tcpreset` or `tcpackit` for one that is too new. -/
def tcpacked (conn : Conn) (segment : Segment) : Int × Conn :=
  if !segment.code.ack then (sysErr, conn)
  else
    let conn := { conn with trace := { conn.trace with
      acks := conn.trace.acks ++ [(conn.tcb, segment)] } }
    if seqcmp segment.ack conn.tcb.suna ≤ 0 then (0, conn)
    else if 0 < seqcmp segment.ack conn.tcb.snext then
      (ok, if conn.tcb.state = .synrcvd then tcpreset conn segment else tcpackit conn segment)
    else
      let conn := tcprtt conn
      let acked := tcpackedlen conn.tcb segment.ack
      let controls : Int := (if tcpackedsyn conn.tcb then 1 else 0) +
        (if tcpackedfin conn.tcb segment.ack then 1 else 0)
      (acked, tcpostate { conn with tcb := tcpaccepted conn.tcb segment.ack } (acked + controls))

def tcpswindow (conn : Conn) (segment : Segment) : Conn :=
  if seqcmp segment.seq conn.tcb.lwseq < 0 then conn
  else if seqcmp segment.seq conn.tcb.lwseq = 0 ∧ seqcmp segment.ack conn.tcb.lwack < 0 then conn
  else
    let owlast := conn.tcb.lwack + conn.tcb.swindow
    let wlast := segment.ack + segment.window.setWidth 32
    let conn := { conn with tcb := { conn.tcb with
      swindow := segment.window.setWidth 32
      lwseq := segment.seq
      lwack := segment.ack } }
    if seqcmp wlast owlast ≤ 0 then conn
    else if conn.tcb.ostate = .persist then
      let conn := conn.clearTimer .persist
      tcpkick { conn with tcb := { conn.tcb with ostate := .xmit } }
    else tcpkick conn

/-- `tcpdata` with its final kick. -/
def tcpdeliver (conn : Conn) (inbound : Inbound) : Conn :=
  let conn := { conn with tcb := tcpdata conn.tcb inbound.segment inbound.newqOk }
  if conn.tcb.flags.needout then tcpkick conn else conn

def Conn.enter (conn : Conn) (state : TcpState) : Conn :=
  { conn with tcb := { conn.tcb with state := state } }

def tcpsynsent (conn : Conn) (inbound : Inbound) : Conn :=
  let segment := inbound.segment
  if segment.code.ack ∧
      (seqcmp segment.ack conn.tcb.iss ≤ 0 ∨ 0 < seqcmp segment.ack conn.tcb.snext) then
    tcpreset conn segment
  else if segment.code.rst then
    tcpkilltimers { conn with tcb := { conn.tcb with state := .closed, error := some .reset } }
  else if !segment.code.syn then conn
  else
    let conn := { conn with tcb := { conn.tcb with
      swindow := segment.window.setWidth 32
      lwseq := segment.seq
      rnext := segment.seq
      cwin := segment.seq + conn.tcb.rbsize } }
    let conn := tcpdeliver (tcpacked conn segment).2 inbound
    conn.enter (if conn.tcb.code.syn then .synrcvd else .established)

/-- The last part of `tcpsynrcvd`: the server's queue or the opener's semaphore is
signalled. -/
def tcpsynopened (conn : Conn) (inbound : Inbound) : Conn :=
  let conn := tcpdeliver (conn.enter .established) inbound
  if conn.tcb.flags.rdone then conn.enter .closewait else conn

def tcpsynrcvd (conn : Conn) (inbound : Inbound) : Conn :=
  let segment := inbound.segment
  if segment.code.rst then
    if conn.tcb.passive then tcbdealloc conn else tcpabort conn .refused
  else if segment.code.syn then tcpabort (tcpreset conn segment) .reset
  else
    let acked := tcpacked conn segment
    if acked.1 = sysErr then acked.2
    else if acked.2.tcb.passive ∧ inbound.parent ≠ .accepts then
      tcbdealloc (tcpreset acked.2 segment)
    else tcpsynopened acked.2 inbound

/-- A reset, or a SYN that has no business here, ends the connection. -/
def tcpaborts (conn : Conn) (segment : Segment) : Option Conn :=
  if segment.code.rst then some (tcpabort conn .reset)
  else if segment.code.syn then some (tcpabort (tcpreset conn segment) .reset)
  else none

/-- The same in the states that nobody waits on. -/
def tcpfrees (conn : Conn) (segment : Segment) : Option Conn :=
  if segment.code.rst then some (tcbdealloc conn)
  else if segment.code.syn then some (tcbdealloc (tcpreset conn segment))
  else none

def tcpestablished (conn : Conn) (inbound : Inbound) : Conn :=
  (tcpaborts conn inbound.segment).getD <|
    let acked := tcpacked conn inbound.segment
    if acked.1 = sysErr then acked.2
    else
      let conn := tcpswindow (tcpdeliver acked.2 inbound) inbound.segment
      if conn.tcb.flags.rdone then conn.enter .closewait else conn

def tcpfin1 (conn : Conn) (inbound : Inbound) : Conn :=
  (tcpaborts conn inbound.segment).getD <|
    let acked := tcpacked conn inbound.segment
    if acked.1 = sysErr then acked.2
    else
      let conn := tcpswindow (tcpdeliver acked.2 inbound) inbound.segment
      if conn.tcb.flags.rdone then
        if conn.tcb.code.fin then conn.enter .closing else tcpwait (conn.enter .timewait)
      else if conn.tcb.code.fin then conn
      else conn.enter .finwait2

def tcpfin2 (conn : Conn) (inbound : Inbound) : Conn :=
  (tcpaborts conn inbound.segment).getD <|
    let acked := tcpacked conn inbound.segment
    if acked.1 = sysErr then acked.2
    else
      let conn := tcpdeliver acked.2 inbound
      if conn.tcb.flags.rdone then tcpwait (conn.enter .timewait) else conn

def tcpclosewait (conn : Conn) (inbound : Inbound) : Conn :=
  (tcpaborts conn inbound.segment).getD <|
    tcpswindow (tcpacked conn inbound.segment).2 inbound.segment

def tcpclosing (conn : Conn) (inbound : Inbound) : Conn :=
  (tcpfrees conn inbound.segment).getD <|
    let conn := (tcpacked conn inbound.segment).2
    if conn.tcb.code.fin then conn else tcpwait (conn.enter .timewait)

/-- The closer that is signalled deallocates the block. -/
def tcplastack (conn : Conn) (inbound : Inbound) : Conn :=
  (tcpaborts conn inbound.segment).getD (tcpacked conn inbound.segment).2

def tcptimewait (conn : Conn) (inbound : Inbound) : Conn :=
  (tcpfrees conn inbound.segment).getD <|
    tcpwait (tcpdeliver (tcpacked conn inbound.segment).2 inbound)

/-- An option octet, counted from the end of the fixed header. -/
def Inbound.option (inbound : Inbound) (index : Nat) : Octet :=
  inbound.segment.tcpData.getD index (inbound.stale (index - inbound.segment.tcpData.length))

/-- The length octet and the MSS option's effect, which only a SYN has. -/
def tcpsmss (tcb : Tcb) (inbound : Inbound) (popt : Nat) : Nat × Tcb :=
  let len := (inbound.option (popt + 1)).toNat
  if !inbound.segment.code.syn then (len, tcb)
  else
    let octet := fun index => inbound.option (popt + 2 + index)
    let mss : Word :=
      if len = 3 then (octet 0).setWidth 32
      else if len = 4 then (octet 0 ++ octet 1).setWidth 32
      else if len = 6 then octet 0 ++ octet 1 ++ octet 2 ++ octet 3
      else tcb.smss
    let mss := mss - BitVec.ofNat 32 tcpmhlen
    (len, { tcb with smss := if tcb.smss = 0 then mss else wordMin mss tcb.smss })

/-- One option: the place of the next one. -/
def tcpoption (tcb : Tcb) (inbound : Inbound) (popend popt : Nat) : Nat × Tcb :=
  let kind := inbound.option popt
  if kind = 1 then (popt + 1, tcb)
  else if kind = 0 then (popt, tcb)
  else if kind = 2 then
    let taken := tcpsmss tcb inbound popt
    (popt + taken.1, taken.2)
  else
    let len := (inbound.option (popt + 1)).toNat
    (if 0 < len ∧ (len : Int) ≤ (popend : Int) - (popt + 1) - 1 then popt + len else popend, tcb)

/-- An MSS option of length 0 does not advance: the loop does not end. -/
def tcpoptsloop (inbound : Inbound) (popend : Nat) : Nat → Nat → Tcb → Option Tcb
  | 0, _, _ => none
  | fuel + 1, popt, tcb =>
      let next := tcpoption tcb inbound popend popt
      if inbound.option next.1 ≠ 0 ∧ next.1 < popend then
        tcpoptsloop inbound popend fuel next.1 next.2
      else some next.2

/-- The options are read, then deleted. -/
def tcpopts (tcb : Tcb) (inbound : Inbound) : Option (Tcb × Inbound) :=
  if inbound.segment.hlen = tcpmhlen then some (tcb, inbound)
  else
    let popend := inbound.segment.hlen - tcpmhlen
    (tcpoptsloop inbound popend (popend + 1) 0 tcb).map fun tcb =>
      (tcb, { inbound with segment := inbound.segment.bare })

/-- A segment for a block that is CLOSED is reset; `LISTEN` and `FREE` blocks are no
connections. -/
def tcpswitch (conn : Conn) (inbound : Inbound) : Conn :=
  match conn.tcb.state with
  | .free => conn
  | .closed => tcpreset conn inbound.segment
  | .listen => conn
  | .synsent => tcpsynsent conn inbound
  | .synrcvd => tcpsynrcvd conn inbound
  | .established => tcpestablished conn inbound
  | .finwait1 => tcpfin1 conn inbound
  | .finwait2 => tcpfin2 conn inbound
  | .closewait => tcpclosewait conn inbound
  | .lastack => tcplastack conn inbound
  | .closing => tcpclosing conn inbound
  | .timewait => tcptimewait conn inbound

/-- `tcpinp` on a segment that `tcpdemux` found this connection for. -/
def tcpinp (conn : Conn) (inbound : Inbound) : Option Conn :=
  if conn.tcb.state = .free then some conn
  else
    let checked := tcpok conn.tcb inbound.segment
    let inbound := { inbound with segment := checked.2 }
    if checked.1 then
      (tcpopts conn.tcb inbound).map fun read => tcpswitch { conn with tcb := read.1 } read.2
    else some (tcpackit conn inbound.segment)

end MvsXinu.Tcp
