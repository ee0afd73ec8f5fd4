import MvsXinu.Lib.Ring
import MvsXinu.Tcp.Types

/-!
# The receive side of a connection

`tcpok`, `tcprwindow`, `tcpdata`, `tcpdodat`, `tfcoalesce`, `tfinsert` and `tcpgetdata`
as functions of the control block. Out-of-order octets go straight into the circular
receive buffer ahead of `rbcount`, their extents into the fragment queue. Wake-ups of
readers are left out: they change nothing of the control block.

The parameter `newqOk` says whether `newq` can allocate a fragment queue.
-/

namespace MvsXinu.Tcp

open MvsXinu.SeqSpace

set_option autoImplicit false

/-- `rbsize - rbcount` read as an `int`. -/
def Tcb.rwindow (tcb : Tcb) : Int := (tcb.rbsize - tcb.rbcount).toInt

/-- Below `ESTABLISHED` the advertised edge is not recorded. -/
def tcprwindow (tcb : Tcb) : Int × Tcb :=
  if tcb.state.number < TcpState.established.number then (tcb.rwindow, tcb)
  else
    let window :=
      if tcb.rwindow * 4 < tcb.rbsize.toInt ∨ tcb.rwindow < tcb.rmss.toInt then 0
      else tcb.rwindow
    let window := max window (seqcmp tcb.cwin tcb.rnext)
    (window, { tcb with cwin := tcb.rnext + BitVec.ofInt 32 window })

/-- Sequence space of a segment, SYN and FIN included. -/
def Segment.seglen (segment : Segment) : Int :=
  segment.datalen + (if segment.code.syn then 1 else 0) + (if segment.code.fin then 1 else 0)

/-- With no window the data are cut off the packet even though it is then refused. -/
def tcpok (tcb : Tcb) (segment : Segment) : Bool × Segment :=
  if tcb.state.number < TcpState.synrcvd.number then (true, segment)
  else if tcb.rwindow = 0 ∧ segment.seglen = 0 then (decide (segment.seq = tcb.rnext), segment)
  else
    let wlast := tcb.rnext + BitVec.ofInt 32 tcb.rwindow - 1
    let rv := decide (0 ≤ seqcmp segment.seq tcb.rnext ∧ seqcmp segment.seq wlast ≤ 0)
    if segment.seglen = 0 then (rv, segment)
    else
      let slast := segment.seq + BitVec.ofInt 32 segment.seglen - 1
      let rv := rv || decide (0 ≤ seqcmp slast tcb.rnext ∧ seqcmp slast wlast ≤ 0)
      (rv, if tcb.rwindow = 0 then
        { segment with tcpData := segment.tcpData.take (segment.hlen - tcpmhlen) }
      else segment)

def tfinsert (tcb : Tcb) (seq : Tcpseq) (datalen : Word) (newqOk : Bool) : Tcb :=
  if datalen = 0 then tcb
  else
    let allocated := match tcb.rsegq with
      | none => if newqOk then some (Gpq.newq ntcpfrag) else none
      | some queue => some queue
    match allocated with
    | none => tcb
    | some queue =>
        match Gpq.enq queue { seq := seq, len := datalen } (-seq).toInt with
        | none => { tcb with rsegq := some queue }
        | some (_, longer) => { tcb with rsegq := some longer }

/-- The label `alldone`: every fragment is dropped and a FIN is reported. -/
def tfalldone (tcb : Tcb) (code : Code) : Tcb × Code :=
  ({ tcb with rsegq := none }, { code with fin := true })

def tfpush (tcb : Tcb) (code : Code) : Tcb × Code :=
  if 0 ≤ seqcmp tcb.rnext tcb.pushseq then
    ({ tcb with pushseq := 0 }, { code with psh := true })
  else (tcb, code)

/-- `rnext` and `rbcount` move together over stored octets. -/
def Tcb.advance (tcb : Tcb) (count : Word) : Tcb :=
  { tcb with rnext := tcb.rnext + count, rbcount := tcb.rbcount + count }

/-- The part of a fragment that lies beyond `rnext`, a signed count. -/
def Tcpfrag.newcount (frag : Tcpfrag) (rnext : Tcpseq) : Int :=
  (frag.len - (rnext - frag.seq)).toInt

/-- One fragment that starts at or before `rnext`. -/
def tfjoin (tcb : Tcb) (frag : Tcpfrag) : Tcb :=
  if 0 < frag.newcount tcb.rnext then
    tcb.advance (BitVec.ofInt 32 (frag.newcount tcb.rnext))
  else tcb

/-- The loop of `tfcoalesce` over the queue from its head. The first fragment beyond
`rnext` is put back, a queue that runs empty is freed. -/
def tfloop (qMax : Nat) : List (Int × Tcpfrag) → Tcb → Code → Tcb × Code
  | [], tcb, code => ({ tcb with rsegq := none }, code)
  | item :: rest, tcb, code =>
      let queue : Gpq.Queue Tcpfrag := { qMax := qMax, items := rest }
      if 0 < seqcmp item.2.seq tcb.rnext then
        match Gpq.enq queue item.2 (-item.2.seq).toInt with
        | none => ({ tcb with rsegq := some queue }, code)
        | some (_, longer) => ({ tcb with rsegq := some longer }, code)
      else
        let joined := tfjoin tcb item.2
        if joined.rnext = joined.finseq then tfalldone joined code
        else
          let pushed := tfpush joined code
          tfloop qMax rest pushed.1 pushed.2

def tfcoalesce (tcb : Tcb) (datalen : Word) (code : Code) : Tcb × Code :=
  let tcb := tcb.advance datalen
  if tcb.rnext = tcb.finseq then tfalldone tcb code
  else
    let pushed := tfpush tcb code
    match pushed.1.rsegq with
    | none => pushed
    | some queue =>
        match queue.items with
        | [] => pushed
        | _ :: _ => tfloop queue.qMax queue.items pushed.1 pushed.2

/-- The FIN and PSH bits that are due once `rnext` has reached them. -/
def tcpcontrols (tcb : Tcb) (code : Code) : Tcb :=
  let tcb :=
    if code.fin then
      { tcb with
        flags := { tcb.flags with rdone := true, needout := true }
        rnext := tcb.rnext + 1 }
    else tcb
  if code.psh || code.urg then { tcb with flags := { tcb.flags with push := true } } else tcb

def tcpdodat (tcb : Tcb) (seq : Tcpseq) (code : Code) (first : Tcpseq) (datalen : Word)
    (newqOk : Bool) : Tcb :=
  if tcb.rnext = first then
    if 0 < datalen.toNat then
      let joined := tfcoalesce tcb datalen code
      tcpcontrols { joined.1 with flags := { joined.1.flags with needout := true } } joined.2
    else tcpcontrols tcb code
  else
    -- controls that are due later
    let tcb := if code.fin then { tcb with finseq := seq + datalen } else tcb
    let tcb := if code.psh || code.urg then { tcb with pushseq := seq + datalen } else tcb
    tfinsert tcb first datalen newqOk

/-- The urgent pointer, recorded when it is the first or moves forward. -/
def tcpurg (tcb : Tcb) (segment : Segment) : Tcb :=
  if segment.code.urg then
    let rup := segment.seq + segment.urgptr.setWidth 32
    if !tcb.flags.rupok || decide (0 < seqcmp rup tcb.rupseq) then
      { tcb with rupseq := rup, flags := { tcb.flags with rupok := true } }
    else tcb
  else tcb

/-- The data section: trim to `[rnext, wlast]`, copy into the circular buffer at the
place of the first octet kept, then account for it in `tcpdodat`. -/
def tcpsection (tcb : Tcb) (segment : Segment) (seq : Tcpseq) (newqOk : Bool) : Tcb :=
  let wlast := tcb.rnext + BitVec.ofInt 32 tcb.rwindow - 1
  let last := seq + BitVec.ofInt 32 segment.datalen - 1
  let front := if 0 < seqcmp tcb.rnext seq then seqcmp tcb.rnext seq else 0
  let first := if 0 < seqcmp tcb.rnext seq then tcb.rnext else seq
  let cut := 0 < seqcmp last wlast
  let datalen := segment.datalen - front - (if cut then seqcmp last wlast else 0)
  let code := if cut then { segment.code with fin := false } else segment.code
  let pb := (tcb.rbstart + tcb.rbcount + (first - tcb.rnext)).toNat % tcb.rbsize.toNat
  let pp := (first - seq).toNat
  let rcvbuf := Ring.store tcb.rbsize.toNat tcb.rcvbuf pb
    ((segment.tcpData.drop pp).take datalen.toNat)
  tcpdodat { tcb with rcvbuf := rcvbuf } seq code first (BitVec.ofInt 32 datalen) newqOk

/-- `tcpdata` up to its final `tcpkick`, which the caller does when `needout` is set. -/
def tcpdata (tcb : Tcb) (segment : Segment) (newqOk : Bool) : Tcb :=
  let tcb := tcpurg tcb segment
  if segment.code.syn then
    let tcb := { tcb with
      rnext := tcb.rnext + 1
      flags := { tcb.flags with needout := true } }
    tcpsection tcb segment (segment.seq + 1) newqOk
  else tcpsection tcb segment segment.seq newqOk

/-- The copy loop of `tcpgetdata`, at most `len` octets. -/
def tcpgetoctets : Nat → Tcb → List Octet × Tcb
  | 0, tcb => ([], tcb)
  | len + 1, tcb =>
      if tcb.rbcount = 0 then ([], tcb)
      else
        let rest := tcpgetoctets len { tcb with
          rbcount := tcb.rbcount - 1
          rbstart := BitVec.ofNat 32 (Ring.next tcb.rbsize.toNat tcb.rbstart.toNat) }
        (tcb.rcvbuf tcb.rbstart.toNat :: rest.1, rest.2)

/-- The urgent boundary: a request that reaches it is cut there. -/
def tcpgeturg (tcb : Tcb) (len : Word) : Word × Tcb :=
  if tcb.flags.rupok then
    let nbc := (tcb.rnext - tcb.rupseq - 1).toInt
    if 0 ≤ nbc then
      let ubc := tcb.rbcount - BitVec.ofInt 32 nbc
      if ubc.toInt ≤ len.toInt then (ubc, { tcb with flags := { tcb.flags with rupok := false } })
      else (len, tcb)
    else (len, tcb)
  else (len, tcb)

/-- `tcpgetdata` up to the question whether the window opens. -/
def tcpgetcopy (tcb : Tcb) (len : Word) : List Octet × Tcb :=
  let bounded := tcpgeturg tcb len
  let copied := tcpgetoctets bounded.1.toNat bounded.2
  (copied.1, if copied.2.rbcount = 0 then
      { copied.2 with flags := { copied.2.flags with push := false } }
    else copied.2)

/-- The octets copied out, the control block, and whether `tcpkick` is called. -/
def tcpgetdata (tcb : Tcb) (len : Word) : List Octet × Tcb × Bool :=
  let copied := tcpgetcopy tcb len
  if seqcmp copied.2.cwin copied.2.rnext ≤ 0 then
    let window := tcprwindow copied.2
    if window.1 ≠ 0 then
      (copied.1, { window.2 with flags := { window.2.flags with needout := true } }, true)
    else (copied.1, window.2, false)
  else (copied.1, copied.2, false)

end MvsXinu.Tcp
