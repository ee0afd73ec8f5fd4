import MvsXinu.Lib.SeqSpace
import MvsXinu.Kernel.Gpq

/-!
# TCP control block and segments (`tcb.h`, `tcp.h`, `tcpfsm.h`)

`tcpseq` is a signed 32-bit `long` that wraps, `u_int` and `u_long` fields are
32-bit words. Both are `Word`; the signed reading is taken where the source compares.
Flag words are records of booleans. Of the control block the semaphore and device
numbers are left out, checksums and statistics counters of the segments as well.
-/

namespace MvsXinu.Tcp

open MvsXinu.SeqSpace

set_option autoImplicit false

abbrev Octet := BitVec 8
abbrev Tcpseq := Word

/-- `SEQCMP(a, b)`. -/
def seqcmp (left right : Tcpseq) : Int := signedDist left right

def ntcpfrag : Nat := 10
def tcpqlen : Nat := 20
def tcpsbs : Nat := 4096
def tcprbs : Nat := 8192
def tcpmhlen : Nat := 20
def tcphoffset : BitVec 8 := 0x50

inductive TcpState where
  | free
  | closed
  | listen
  | synsent
  | synrcvd
  | established
  | finwait1
  | finwait2
  | closewait
  | lastack
  | closing
  | timewait
  deriving DecidableEq, Repr

/-- The numbers of `TCPS_*`, which the source compares. -/
def TcpState.number : TcpState → Nat
  | .free => 0
  | .closed => 1
  | .listen => 2
  | .synsent => 3
  | .synrcvd => 4
  | .established => 5
  | .finwait1 => 6
  | .finwait2 => 7
  | .closewait => 8
  | .lastack => 9
  | .closing => 10
  | .timewait => 11

/-- Output states `TCPO_*`. -/
inductive OutState where
  | idle
  | persist
  | xmit
  | rexmt
  deriving DecidableEq, Repr

/-- Output events, the low bits of a message built by `MKEVENT`. -/
inductive OutEvent where
  | send
  | persist
  | retransmit
  | delete
  deriving DecidableEq, Repr

/-- Control bits `TCPF_*`. -/
structure Code where
  urg : Bool := false
  ack : Bool := false
  psh : Bool := false
  rst : Bool := false
  syn : Bool := false
  fin : Bool := false
  deriving DecidableEq, Repr

/-- `tcb_flags`, bits `TCBF_*`. -/
structure Flags where
  needout : Bool := false
  firstsend : Bool := false
  rdone : Bool := false
  sdone : Bool := false
  delack : Bool := false
  buffer : Bool := false
  push : Bool := false
  sndfin : Bool := false
  rupok : Bool := false
  supok : Bool := false
  deriving DecidableEq, Repr

inductive TcpError where
  | reset
  | refused
  | toobig
  | timedout
  deriving DecidableEq, Repr

/-- A TCP segment with its IP addresses, in host order. `tcpData` holds the octets
behind the fixed header up to `ip_len`: the options, then the data. -/
structure Segment where
  src : Word := 0
  dst : Word := 0
  sport : BitVec 16 := 0
  dport : BitVec 16 := 0
  seq : Tcpseq
  ack : Tcpseq := 0
  offset : BitVec 8 := tcphoffset
  code : Code := {}
  window : BitVec 16 := 0
  urgptr : BitVec 16 := 0
  tcpData : List Octet := []
  deriving DecidableEq, Repr

/-- `TCP_HLEN`. -/
def Segment.hlen (segment : Segment) : Nat := ((segment.offset &&& 0xf0) >>> 2).toNat

/-- `ip_len - IP_HLEN - TCP_HLEN`, the C `int` that the functions call `datalen`. -/
def Segment.datalen (segment : Segment) : Int :=
  (tcpmhlen + segment.tcpData.length : Nat) - segment.hlen

/-- The data octets, behind the options. -/
def Segment.data (segment : Segment) : List Octet :=
  segment.tcpData.drop (segment.hlen - tcpmhlen)

/-- A header of at least the minimum length that lies within the packet. -/
def Segment.WellFormed (segment : Segment) : Prop :=
  tcpmhlen ≤ segment.hlen ∧ segment.hlen ≤ tcpmhlen + segment.tcpData.length ∧
    segment.tcpData.length < 65536

instance (segment : Segment) : Decidable segment.WellFormed :=
  inferInstanceAs (Decidable (_ ∧ _ ∧ _))

structure Tcpfrag where
  seq : Tcpseq
  len : Word
  deriving DecidableEq, Repr

structure Tcb where
  state : TcpState
  ostate : OutState := .idle
  code : Code := {}
  flags : Flags := {}
  error : Option TcpError := none
  rip : Word := 0
  rport : BitVec 16 := 0
  lip : Word := 0
  lport : BitVec 16 := 0
  suna : Tcpseq := 0
  snext : Tcpseq := 0
  slast : Tcpseq := 0
  swindow : Word := 0
  lwseq : Tcpseq := 0
  lwack : Tcpseq := 0
  cwnd : Word := 0
  ssthresh : Word := 0
  smss : Word := 0
  iss : Tcpseq := 0
  srt : Int := 0
  rtde : Int := 0
  persist : Int := 0
  rexmt : Int := 50
  rexmtcount : Nat := 0
  rnext : Tcpseq := 0
  rupseq : Tcpseq := 0
  supseq : Tcpseq := 0
  -- `tcb_pptcb != 0`: the connection comes from a passive open
  passive : Bool := false
  sndbuf : Nat → Octet := fun _ => 0
  sbstart : Word := 0
  sbcount : Word := 0
  sbsize : Word := BitVec.ofNat 32 tcpsbs
  rcvbuf : Nat → Octet := fun _ => 0
  rbstart : Word := 0
  rbcount : Word := 0
  rbsize : Word := BitVec.ofNat 32 tcprbs
  rmss : Word := 0
  cwin : Tcpseq := 0
  -- `none` is `EMPTY`, no queue allocated
  rsegq : Option (Gpq.Queue Tcpfrag) := none
  finseq : Tcpseq := 0
  pushseq : Tcpseq := 0

/-- The fragments waiting in `tcb_rsegq`. -/
def Tcb.frags (tcb : Tcb) : List Tcpfrag :=
  match tcb.rsegq with
  | none => []
  | some queue => Gpq.elements queue

end MvsXinu.Tcp
