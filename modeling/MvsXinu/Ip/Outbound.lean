import MvsXinu.Lib.Checksum
import MvsXinu.Tcp.Input

/-!
# Datagrams on their way out (`ipsend.c`, `udpsend.c`, `tcpsend.c`, `tcpackit.c`, `tcpreset.c`)

The senders fill a buffer that `getbuf` returned as it was left by its last user, compute the
checksum of their protocol over the addresses that they put into the header, and call
`ipsend`. Built for `MVS38J` that function hands the frame to the device at once, which copies
`ip_len` octets of it; the header is in network order as it stands. The octet behind a
transport part of odd length, which the checksums are taken with, is not among them.
-/

namespace MvsXinu.Outbound

open MvsXinu.SeqSpace MvsXinu.Tcp MvsXinu.Checksum

set_option autoImplicit false

/-- `struct ip` with the octets of its data. -/
structure Pip where
  verlen : Octet
  tos : Octet
  len : BitVec 16
  id : BitVec 16
  fragoff : BitVec 16
  ttl : Octet
  proto : Octet
  cksum : BitVec 16
  src : Word
  dst : Word
  data : List Octet

def ipAnyaddr : Word := 0
def iptIcmp : Octet := 1
def iptTcp : Octet := 6
def iptUdp : Octet := 17
def ipTtl : Octet := 255
def uHlen : Nat := 8

def octets16 (value : BitVec 16) : List Octet := [value.extractLsb' 8 8, value.extractLsb' 0 8]

def octets32 (value : Word) : List Octet :=
  [value.extractLsb' 24 8, value.extractLsb' 16 8, value.extractLsb' 8 8, value.extractLsb' 0 8]

/-- The octets that the device copies. -/
def Pip.octets (pip : Pip) : List Octet :=
  [pip.verlen, pip.tos] ++ octets16 pip.len ++ octets16 pip.id ++ octets16 pip.fragoff ++
    [pip.ttl, pip.proto] ++ octets16 pip.cksum ++ octets32 pip.src ++ octets32 pip.dst ++ pip.data

/-- `IP_HLEN`. -/
def Pip.hlen (pip : Pip) : Nat := (pip.verlen &&& 0xf).toNat * 4

/-- The checksum field counts as zero. -/
def ipcksum (pip : Pip) : BitVec 16 :=
  BitVec.ofNat 16 (cksum (sum16 ((Pip.octets { pip with cksum := 0 }).take pip.hlen)))

/-- The sum over the addresses, the protocol and the length, and the transport part. -/
def transportCksum (proto : Octet) (pip : Pip) (len : Nat) : BitVec 16 :=
  BitVec.ofNat 16 (cksum (sum16 (octets32 pip.src) + sum16 (octets32 pip.dst) +
    (proto.toNat + len) + sum16 (pip.data.take len)))

def tcpcksum (pip : Pip) (len : Nat) : BitVec 16 := transportCksum iptTcp pip len
def udpcksum (pip : Pip) (len : Nat) : BitVec 16 := transportCksum iptUdp pip len

def ipsend (ipackid : BitVec 16) (faddr : Word) (pip : Pip) (datalen : Nat)
    (proto tos ttl : Octet) : Pip :=
  { pip with
    verlen := 0x45
    tos := tos
    len := BitVec.ofNat 16 (datalen + 20)
    id := ipackid
    fragoff := 0
    ttl := ttl
    proto := proto
    dst := faddr
    src := if proto ≠ iptIcmp then ipAnyaddr else pip.src }

/-! ## The senders -/

def Code.octet (code : Code) : Octet :=
  (if code.urg then 0x20 else 0) ||| (if code.ack then 0x10 else 0) |||
    (if code.psh then 0x08 else 0) ||| (if code.rst then 0x04 else 0) |||
    (if code.syn then 0x02 else 0) ||| (if code.fin then 0x01 else 0)

def tcpOctets (segment : Segment) (cksum : BitVec 16) : List Octet :=
  octets16 segment.sport ++ octets16 segment.dport ++ octets32 segment.seq ++
    octets32 segment.ack ++ [segment.offset, Code.octet segment.code] ++
    octets16 segment.window ++ octets16 cksum ++ octets16 segment.urgptr ++ segment.tcpData

/-- The end of `tcpsend`, `tcpackit` and `tcpreset`. -/
def sendSegment (ipackid : BitVec 16) (pep : Pip) (segment : Segment) : Pip :=
  let datalen := tcpmhlen + segment.tcpData.length
  let pip := { pep with src := segment.src, dst := segment.dst, data := tcpOctets segment 0 }
  ipsend ipackid segment.dst { pip with data := tcpOctets segment (tcpcksum pip datalen) } datalen
    iptTcp 0 ipTtl

/-- The interface of a route. -/
inductive Iface where
  | niLocal
  | other (niIp : Word)
  deriving DecidableEq

/-- A call of `udpsend`. `route` is what `rtget` finds for `fip`, and `ttl` that of the host
group where `fip` is the address of one. -/
structure UdpCall where
  fip : Word
  fport : BitVec 16
  lport : BitVec 16
  data : List Octet
  docksum : Bool
  route : Option Iface
  ttl : Octet := ipTtl
  deriving DecidableEq

def UdpCall.datalen (call : UdpCall) : Nat := uHlen + call.data.length

def UdpCall.octets (call : UdpCall) (cksum : BitVec 16) : List Octet :=
  octets16 call.lport ++ octets16 call.fport ++ octets16 (BitVec.ofNat 16 call.datalen) ++
    octets16 cksum ++ call.data

def UdpCall.source (call : UdpCall) : Iface → Word
  | .niLocal => call.fip
  | .other niIp => niIp

/-- `none` where there is no route. -/
def udpsend (ipackid : BitVec 16) (pep : Pip) (call : UdpCall) : Option Pip :=
  let blank := { pep with data := call.octets 0 }
  let sent := fun pip => ipsend ipackid call.fip pip call.datalen iptUdp 0 call.ttl
  if call.docksum then
    match call.route with
    | none => none
    | some iface =>
        let pip := { blank with dst := call.fip, src := call.source iface }
        let ucksum := udpcksum pip call.datalen
        some (sent { pip with data := call.octets (if ucksum = 0 then 0xffff else ucksum) })
  else some (sent blank)

/-- What is handed to `ipsend`. -/
inductive Handed where
  | tcp (segment : Segment)
  | udp (call : UdpCall)

inductive Sender where
  | tcpsend (tcb : Tcb) (rexmt : Bool)
  | tcpackit (conn : Conn) (segment : Segment)
  | tcpreset (conn : Conn) (segment : Segment)
  | udpsend (call : UdpCall)

/-- The segments that a call adds to the replies of a connection. -/
def newReplies (before after : Conn) : List Segment :=
  after.trace.replies.drop before.trace.replies.length

def Sender.handed : Sender → List Handed
  | .tcpsend tcb rexmt => [.tcp (tcpsegment tcb rexmt)]
  | .tcpackit conn segment => (newReplies conn (Tcp.tcpackit conn segment)).map .tcp
  | .tcpreset conn segment => (newReplies conn (Tcp.tcpreset conn segment)).map .tcp
  | .udpsend call => [.udp call]

/-- The datagram that reaches the device. -/
def Handed.sent (ipackid : BitVec 16) (pep : Pip) : Handed → Option Pip
  | .tcp segment => some (sendSegment ipackid pep segment)
  | .udp call => udpsend ipackid pep call

def Handed.datalen : Handed → Nat
  | .tcp segment => tcpmhlen + segment.tcpData.length
  | .udp call => call.datalen

/-! ## The input path -/

/-- The checks of `ipproc`, of `tcpinp` and of `udp_in`, and an address of the sending host. -/
structure Acceptable (addresses : List Word) (pip : Pip) : Prop where
  header : pip.cksum = ipcksum pip
  source : pip.src ∈ addresses
  tcp : pip.proto = iptTcp → tcpcksum pip (pip.len.toNat - pip.hlen) = 0
  udp : pip.proto = iptUdp → sum16 ((pip.data.drop 6).take 2) = 0 ∨
    udpcksum pip (sum16 ((pip.data.drop 4).take 2)) = 0

/-! ## When a datagram is accepted -/

def Handed.proto : Handed → Octet
  | .tcp _ => iptTcp
  | .udp _ => iptUdp

def Handed.ttl : Handed → Octet
  | .tcp _ => ipTtl
  | .udp call => call.ttl

def Handed.dst : Handed → Word
  | .tcp segment => segment.dst
  | .udp call => call.fip

/-- The checksum of a header with these fields and without a source address. -/
def Handed.headerCksum (ipackid : BitVec 16) (handed : Handed) : BitVec 16 :=
  BitVec.ofNat 16 (cksum (0x4500 + (handed.datalen + 20) + ipackid.toNat +
    (handed.ttl.toNat * 256 + handed.proto.toNat) + sum16 (octets32 handed.dst)))

/-- The source address that the checksum was taken with adds nothing to it. -/
def Handed.SourceNeutral : Handed → Prop
  | .tcp segment => sum16 (octets32 segment.src) % 65535 = 0
  | .udp call =>
      call.docksum = true → ∀ iface ∈ call.route, sum16 (octets32 (call.source iface)) % 65535 = 0

theorem sum16_octets16 (value : BitVec 16) : sum16 (octets16 value) = value.toNat := by
  have bound := value.isLt
  simp only [octets16, sum16, BitVec.extractLsb'_toNat]
  omega

theorem octets16_even (value : BitVec 16) : (octets16 value).length % 2 = 0 := by
  simp [octets16]

theorem octets32_length (value : Word) : (octets32 value).length = 4 := rfl

theorem sum16_octets32_le (value : Word) : sum16 (octets32 value) ≤ 131070 := by
  have bound := sum16_le (octets32 value)
  rw [octets32_length] at bound
  omega

theorem ipcksum_ipsend (ipackid : BitVec 16) (faddr : Word) (pip : Pip) {datalen : Nat}
    {proto ttl : Octet} (notIcmp : proto ≠ iptIcmp) (fits : datalen + 20 < 65536) :
    ipcksum (ipsend ipackid faddr pip datalen proto 0 ttl) =
      BitVec.ofNat 16 (cksum (0x4500 + (datalen + 20) + ipackid.toNat +
        (ttl.toNat * 256 + proto.toNat) + sum16 (octets32 faddr))) := by
  have length : (BitVec.ofNat 16 (datalen + 20)).toNat = datalen + 20 := by
    rw [BitVec.toNat_ofNat, Nat.mod_eq_of_lt fits]
  have header : (Pip.octets { ipsend ipackid faddr pip datalen proto 0 ttl with cksum := 0 }).take
      20 = [0x45, 0] ++ (octets16 (BitVec.ofNat 16 (datalen + 20)) ++
        (octets16 ipackid ++ ([0, 0] ++ ([ttl, proto] ++ ([0, 0] ++ ([0, 0, 0, 0] ++
          octets32 faddr)))))) := by
    simp [ipsend, Pip.octets, octets16, octets32, notIcmp, ipAnyaddr]
  have hlen : (ipsend ipackid faddr pip datalen proto 0 ttl).hlen = 20 := by
    have field : (0x45 &&& 0xf : Octet).toNat * 4 = 20 := by decide
    exact field
  unfold ipcksum
  rw [hlen, header]
  congr 2
  rw [sum16_append _ _ (by simp), sum16_append _ _ (octets16_even _),
    sum16_append _ _ (octets16_even _), sum16_append _ _ (by simp), sum16_append _ _ (by simp),
    sum16_append _ _ (by simp), sum16_append _ _ (by simp), sum16_octets16, sum16_octets16, length]
  simp [sum16]
  omega

theorem sum16_tcpOctets (segment : Segment) (cksum : BitVec 16) :
    sum16 (tcpOctets segment cksum) = sum16 (tcpOctets segment 0) + cksum.toNat := by
  have split : ∀ field, tcpOctets segment field =
      (octets16 segment.sport ++ octets16 segment.dport ++ octets32 segment.seq ++
        octets32 segment.ack ++ [segment.offset, Code.octet segment.code] ++
        octets16 segment.window) ++ (octets16 field ++ (octets16 segment.urgptr ++
          segment.tcpData)) := by
    intro field
    simp [tcpOctets]
  have zero : sum16 (octets16 0) = 0 := by decide
  have even : (octets16 segment.sport ++ octets16 segment.dport ++ octets32 segment.seq ++
      octets32 segment.ack ++ [segment.offset, Code.octet segment.code] ++
      octets16 segment.window).length % 2 = 0 := by
    simp [octets16, octets32]
  rw [split, split, sum16_append _ _ even, sum16_append _ _ even, sum16_append _ _ (octets16_even cksum),
    sum16_append _ _ (octets16_even 0), sum16_octets16, zero]
  omega

theorem tcpOctets_length (segment : Segment) (cksum : BitVec 16) :
    (tcpOctets segment cksum).length = tcpmhlen + segment.tcpData.length := by
  simp [tcpOctets, octets16, octets32, tcpmhlen]
  omega

theorem sum16_udpOctets (call : UdpCall) (cksum : BitVec 16) :
    sum16 (call.octets cksum) = sum16 (call.octets 0) + cksum.toNat := by
  have split : ∀ field, call.octets field =
      (octets16 call.lport ++ octets16 call.fport ++
        octets16 (BitVec.ofNat 16 call.datalen)) ++ (octets16 field ++ call.data) := by
    intro field
    simp [UdpCall.octets]
  have zero : sum16 (octets16 0) = 0 := by decide
  have even : (octets16 call.lport ++ octets16 call.fport ++
      octets16 (BitVec.ofNat 16 call.datalen)).length % 2 = 0 := by
    simp [octets16]
  rw [split, split, sum16_append _ _ even, sum16_append _ _ even, sum16_append _ _ (octets16_even cksum),
    sum16_append _ _ (octets16_even 0), sum16_octets16, zero]
  omega

theorem udpOctets_length (call : UdpCall) (cksum : BitVec 16) :
    (call.octets cksum).length = call.datalen := by
  simp [UdpCall.octets, UdpCall.datalen, octets16, uHlen]
  omega

theorem cksum_toNat (sum : Nat) : (BitVec.ofNat 16 (cksum sum)).toNat = cksum sum := by
  rw [BitVec.toNat_ofNat]
  apply Nat.mod_eq_of_lt
  unfold cksum
  omega

theorem ofNat_cksum_eq_zero_iff (sum : Nat) : BitVec.ofNat 16 (cksum sum) = 0 ↔ cksum sum = 0 := by
  have value := cksum_toNat sum
  constructor
  · intro zero
    rw [zero] at value
    exact value.symm
  · intro zero
    rw [zero]
    rfl

/-- A checksum that was taken with a source address, when the address is no longer there. -/
theorem transport_verifies_iff {proto : Octet} {before after : Pip} {len : Nat}
    {field : BitVec 16} (positive : 0 < proto.toNat) (fits : len < 65536)
    (length : before.data.length = len) (lengthAfter : after.data.length = len)
    (added : sum16 after.data = sum16 before.data + field.toNat)
    (gone : after.src = ipAnyaddr) (sameDst : after.dst = before.dst)
    (isField : field.toNat % 65535 = (transportCksum proto before len).toNat % 65535) :
    transportCksum proto after len = 0 ↔ sum16 (octets32 before.src) % 65535 = 0 := by
  have none : sum16 (octets32 ipAnyaddr) = 0 := by decide
  have boundSrc := sum16_octets32_le before.src
  have boundDst := sum16_octets32_le before.dst
  have boundProto := proto.isLt
  have boundField := field.isLt
  have boundData : sum16 before.data ≤ 65535 * 32768 := by
    have half : (before.data.length + 1) / 2 ≤ 32768 := by omega
    exact (sum16_le before.data).trans (Nat.mul_le_mul_left _ half)
  unfold transportCksum at isField ⊢
  rw [List.take_of_length_le (by omega), cksum_toNat] at isField
  rw [List.take_of_length_le (by omega), ofNat_cksum_eq_zero_iff, added, gone, sameDst, none]
  have order : sum16 (octets32 before.src) + sum16 (octets32 before.dst) + (proto.toNat + len) +
      sum16 before.data = (sum16 (octets32 before.dst) + (proto.toNat + len) +
        sum16 before.data) + sum16 (octets32 before.src) := by omega
  have regroup : 0 + sum16 (octets32 before.dst) + (proto.toNat + len) +
      (sum16 before.data + field.toNat) = (sum16 (octets32 before.dst) + (proto.toNat + len) +
        sum16 before.data) + field.toNat := by omega
  rw [order] at isField
  rw [regroup]
  exact verifies_without_iff (by omega) (by omega) (by omega) isField

theorem ipsend_len {ipackid : BitVec 16} {faddr : Word} {pip : Pip} {datalen : Nat}
    {proto tos ttl : Octet} (fits : datalen + 20 < 65536) :
    (ipsend ipackid faddr pip datalen proto tos ttl).len.toNat -
      (ipsend ipackid faddr pip datalen proto tos ttl).hlen = datalen := by
  have field : (0x45 &&& 0xf : Octet).toNat * 4 = 20 := by decide
  have len : (ipsend ipackid faddr pip datalen proto tos ttl).len.toNat = datalen + 20 := by
    change (BitVec.ofNat 16 (datalen + 20)).toNat = _
    rw [BitVec.toNat_ofNat, Nat.mod_eq_of_lt fits]
  have hlen : (ipsend ipackid faddr pip datalen proto tos ttl).hlen = 20 := field
  omega

theorem segment_verifies_iff (ipackid : BitVec 16) (pep : Pip) (segment : Segment)
    (fits : tcpmhlen + segment.tcpData.length + 20 < 65536) :
    tcpcksum (sendSegment ipackid pep segment)
        ((sendSegment ipackid pep segment).len.toNat -
          (sendSegment ipackid pep segment).hlen) = 0 ↔
      sum16 (octets32 segment.src) % 65535 = 0 := by
  generalize isBefore : ({ pep with
    src := segment.src, dst := segment.dst, data := tcpOctets segment 0 } : Pip) = before
  have data : (sendSegment ipackid pep segment).data =
      tcpOctets segment (tcpcksum before (tcpmhlen + segment.tcpData.length)) := by
    rw [← isBefore]
    rfl
  have gone : (sendSegment ipackid pep segment).src = ipAnyaddr := rfl
  have sameDst : (sendSegment ipackid pep segment).dst = before.dst := by
    rw [← isBefore]
    rfl
  have source : before.src = segment.src := by rw [← isBefore]
  have blank : before.data = tcpOctets segment 0 := by rw [← isBefore]
  have datalen : (sendSegment ipackid pep segment).len.toNat -
      (sendSegment ipackid pep segment).hlen = tcpmhlen + segment.tcpData.length := ipsend_len fits
  rw [datalen, ← source]
  apply transport_verifies_iff (by decide) (by omega) _ _ _ gone sameDst rfl
  · rw [blank, tcpOctets_length]
  · rw [data, tcpOctets_length]
  · rw [data, blank]
    exact sum16_tcpOctets segment _

theorem udpsend_cases {ipackid : BitVec 16} {pep : Pip} {call : UdpCall} {pip : Pip}
    (sent : udpsend ipackid pep call = some pip) :
    (call.docksum = false ∧ pip = ipsend ipackid call.fip { pep with data := call.octets 0 }
        call.datalen iptUdp 0 call.ttl) ∨
      ∃ iface, call.docksum = true ∧ call.route = some iface ∧
        let before : Pip :=
          { pep with src := call.source iface, dst := call.fip, data := call.octets 0 }
        let ucksum := udpcksum before call.datalen
        pip = ipsend ipackid call.fip
          { before with data := call.octets (if ucksum = 0 then 0xffff else ucksum) }
          call.datalen iptUdp 0 call.ttl := by
  unfold udpsend at sent
  dsimp only at sent
  split_ifs at sent with docksum
  · cases route : call.route with
    | none =>
        rw [route] at sent
        cases sent
    | some iface =>
        rw [route] at sent
        exact Or.inr ⟨iface, docksum, rfl, (Option.some.inj sent).symm⟩
  · exact Or.inl ⟨by simpa using docksum, (Option.some.inj sent).symm⟩

theorem udp_cksum_field (call : UdpCall) (field : BitVec 16) :
    sum16 (((call.octets field).drop 6).take 2) = field.toNat := by
  have octets : ((call.octets field).drop 6).take 2 = octets16 field := by
    simp [UdpCall.octets, octets16]
  rw [octets, sum16_octets16]

theorem udp_len_field (call : UdpCall) (field : BitVec 16) (fits : call.datalen < 65536) :
    sum16 (((call.octets field).drop 4).take 2) = call.datalen := by
  have octets : ((call.octets field).drop 4).take 2 =
      octets16 (BitVec.ofNat 16 call.datalen) := by
    simp [UdpCall.octets, octets16]
  rw [octets, sum16_octets16, BitVec.toNat_ofNat, Nat.mod_eq_of_lt fits]

theorem udp_verifies_iff {ipackid : BitVec 16} {pep : Pip} {call : UdpCall} {pip : Pip}
    (sent : udpsend ipackid pep call = some pip) (fits : call.datalen + 20 < 65536) :
    (sum16 ((pip.data.drop 6).take 2) = 0 ∨
        udpcksum pip (sum16 ((pip.data.drop 4).take 2)) = 0) ↔
      (Handed.udp call).SourceNeutral := by
  rcases udpsend_cases sent with ⟨unchecked, isPip⟩ | ⟨iface, docksum, route, isPip⟩
  · have data : pip.data = call.octets 0 := by rw [isPip]; rfl
    rw [data, udp_cksum_field]
    refine ⟨fun _ checked => ?_, fun _ => Or.inl rfl⟩
    rw [unchecked] at checked
    cases checked
  · dsimp only at isPip
    generalize isBefore : ({ pep with
      src := call.source iface, dst := call.fip, data := call.octets 0 } : Pip) = before at isPip
    generalize isField : (if udpcksum before call.datalen = 0 then (0xffff : BitVec 16)
      else udpcksum before call.datalen) = field at isPip
    have data : pip.data = call.octets field := by rw [isPip]; rfl
    have gone : pip.src = ipAnyaddr := by rw [isPip]; rfl
    have sameDst : pip.dst = before.dst := by rw [isPip, ← isBefore]; rfl
    have source : before.src = call.source iface := by rw [← isBefore]
    have blank : before.data = call.octets 0 := by rw [← isBefore]
    have nonzero : field.toNat ≠ 0 := by
      rw [← isField]
      split_ifs with zero
      · decide
      · intro none
        exact zero (BitVec.eq_of_toNat_eq none)
    have same : field.toNat % 65535 = (udpcksum before call.datalen).toNat % 65535 := by
      rw [← isField]
      split_ifs with zero
      · rw [zero]
        decide
      · rfl
    have verifies : udpcksum pip call.datalen = 0 ↔
        sum16 (octets32 before.src) % 65535 = 0 := by
      apply transport_verifies_iff (by decide) (by omega) _ _ _ gone sameDst same
      · rw [blank, udpOctets_length]
      · rw [data, udpOctets_length]
      · rw [data, blank]
        exact sum16_udpOctets call field
    rw [data, udp_cksum_field, udp_len_field call field (by omega), verifies, source]
    constructor
    · rintro (zero | neutral)
      · exact absurd zero nonzero
      · intro _ other isOther
        rw [route] at isOther
        rw [← Option.some.inj isOther]
        exact neutral
    · intro neutral
      exact Or.inr (neutral docksum iface route)

/-- What `ipsend` makes of a header, whoever calls it. -/
theorem sent_header {ipackid : BitVec 16} {pep pip : Pip} {handed : Handed}
    (sent : handed.sent ipackid pep = some pip) (fits : handed.datalen + 20 < 65536) :
    pip.cksum = pep.cksum ∧ ipcksum pip = handed.headerCksum ipackid ∧ pip.src = ipAnyaddr ∧
      pip.proto = handed.proto := by
  cases handed with
  | tcp segment =>
      rw [← Option.some.inj sent]
      exact ⟨rfl, ipcksum_ipsend ipackid segment.dst _ (by decide) fits, rfl, rfl⟩
  | udp call =>
      rcases udpsend_cases sent with ⟨-, isPip⟩ | ⟨iface, -, -, isPip⟩
      · rw [isPip]
        exact ⟨rfl, ipcksum_ipsend ipackid call.fip _ (by decide) fits, rfl, rfl⟩
      · rw [isPip]
        exact ⟨rfl, ipcksum_ipsend ipackid call.fip _ (by decide) fits, rfl, rfl⟩

/-- A datagram is acceptable exactly if the host has the address 0.0.0.0, the buffer happens to
hold the checksum of the header, and the transport checksum does not depend on the source
address that it was taken with. -/
theorem acceptable_iff (sender : Sender) (ipackid : BitVec 16) (pep : Pip)
    (addresses : List Word) :
    ∀ handed ∈ sender.handed, ∀ pip, handed.sent ipackid pep = some pip →
      handed.datalen + 20 < 65536 →
      (Acceptable addresses pip ↔
        ipAnyaddr ∈ addresses ∧ pep.cksum = handed.headerCksum ipackid ∧
          handed.SourceNeutral) := by
  intro handed _ pip sent fits
  obtain ⟨stale, header, gone, proto⟩ := sent_header sent fits
  have transport : handed.SourceNeutral ↔
      (pip.proto = iptTcp → tcpcksum pip (pip.len.toNat - pip.hlen) = 0) ∧
      (pip.proto = iptUdp → sum16 ((pip.data.drop 6).take 2) = 0 ∨
        udpcksum pip (sum16 ((pip.data.drop 4).take 2)) = 0) := by
    have differ : iptTcp ≠ iptUdp := by decide
    rw [proto]
    cases handed with
    | tcp segment =>
        have verifies := segment_verifies_iff ipackid pep segment fits
        rw [Option.some.inj sent] at verifies
        constructor
        · intro neutral
          exact ⟨fun _ => verifies.mpr neutral, fun isUdp => absurd isUdp differ⟩
        · rintro ⟨checked, -⟩
          exact verifies.mp (checked rfl)
    | udp call =>
        have verifies := udp_verifies_iff sent fits
        constructor
        · intro neutral
          exact ⟨fun isTcp => absurd isTcp (Ne.symm differ), fun _ => verifies.mpr neutral⟩
        · rintro ⟨-, checked⟩
          exact verifies.mp (checked rfl)
  constructor
  · rintro ⟨isHeader, source, tcp, udp⟩
    rw [stale, header] at isHeader
    rw [gone] at source
    exact ⟨source, isHeader, transport.mpr ⟨tcp, udp⟩⟩
  · rintro ⟨source, isHeader, neutral⟩
    obtain ⟨tcp, udp⟩ := transport.mp neutral
    exact ⟨by rw [stale, header, isHeader], by rw [gone]; exact source, tcp, udp⟩

/-- A buffer as `getbuf` may return it, with `stale` where the checksum belongs. -/
def usedBuffer (stale : BitVec 16) : Pip where
  verlen := 0
  tos := 0
  len := 0
  id := 0
  fragoff := 0
  ttl := 0
  proto := 0
  cksum := stale
  src := 0
  dst := 0
  data := []

/-- A datagram of two octets from 10.0.0.1 to the time server of 10.0.0.2. -/
def timeRequest (docksum : Bool) : UdpCall where
  fip := 0x0a000002
  fport := 37
  lport := 2050
  data := [0x68, 0x69]
  docksum := docksum
  route := some (.other 0x0a000001)

/-- All that `ipproc` and `udp_in` check is wrong, and the source address as well. -/
theorem time_request_rejected :
    ∃ pip, (Handed.udp (timeRequest true)).sent 1 (usedBuffer 0) = some pip ∧
      pip.cksum ≠ ipcksum pip ∧ pip.src ∉ [0x0a000001] ∧
      sum16 ((pip.data.drop 6).take 2) ≠ 0 ∧
      udpcksum pip (sum16 ((pip.data.drop 4).take 2)) ≠ 0 ∧ ¬ Acceptable [0x0a000001] pip := by
  refine ⟨((Handed.udp (timeRequest true)).sent 1 (usedBuffer 0)).get (by decide), ?_⟩
  refine ⟨by simp, by decide, by decide, by decide, by decide, ?_⟩
  intro acceptable
  exact absurd acceptable.source (by decide)

/-- Without a checksum, on a host with the address 0.0.0.0, and in the one buffer of 65536. -/
theorem unchecked_request_accepted :
    ∃ pip, (Handed.udp (timeRequest false)).sent 1
        (usedBuffer ((Handed.udp (timeRequest false)).headerCksum 1)) = some pip ∧
      Acceptable [0] pip := by
  refine ⟨((Handed.udp (timeRequest false)).sent 1
    (usedBuffer ((Handed.udp (timeRequest false)).headerCksum 1))).get (by decide), by simp, ?_⟩
  apply (acceptable_iff (.udpsend (timeRequest false)) 1 _ [0] _ List.mem_cons_self _
    (Option.some_get _).symm (by decide)).mpr
  refine ⟨by decide, rfl, ?_⟩
  intro checked
  cases checked

end MvsXinu.Outbound
