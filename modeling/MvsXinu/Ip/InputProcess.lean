import MvsXinu.Ip.Cksums
import MvsXinu.Route.Table

/-!
# The IP process (`ipproc.c`, `ipdbc.c`, `ipredirect.c`)

One turn of `ipproc` for a frame that `ipgetp` returned, from its header checks to the call
that takes the frame over. Built for `MVS38J` a host forwards whether it is a gateway or not,
and `ipdbc` and `ipredirect` give the whole program up through `panic` where they find
something to do.
-/

namespace MvsXinu.IpProc

open MvsXinu.Octets MvsXinu.Ip MvsXinu.Routing

set_option autoImplicit false

def niLocal : Nat := 0
def ipVersion : Nat := 4
def smallMtu : Nat := 400

def ipClassE (address : IPaddr) : Bool := address &&& 0xf8000000 == 0xf0000000

/-- The address fields of `struct ip`. -/
def ipaddr (pip : Packet) (place : Int) : IPaddr :=
  pip place ++ pip (place + 1) ++ pip (place + 2) ++ pip (place + 3)

def srcAddr (pip : Packet) : IPaddr := ipaddr pip 12
def dstAddr (pip : Packet) : IPaddr := ipaddr pip 16

/-- An interface as it is set up, none with a smaller MTU than `SMALLMTU`. -/
structure Iface where
  addresses : Netif
  niIp : IPaddr
  niDown : Bool
  niMtu : Nat
  wide : smallMtu ≤ niMtu

structure Host where
  gateway : Bool
  count : Nat
  nif : Nat → Iface
  table : RouteTable

def Host.netifs (host : Host) : List Netif :=
  (List.range host.count).map fun index => (host.nif index).addresses

/-- What becomes of a frame: it is counted as an error and freed, goes back in an ICMP message,
or is handed to `ipputp`. -/
inductive Verdict where
  | inHdrErrors
  | inAddrErrors
  | netUnreachable
  | outNoRoutes
  | timeExceeded
  | panicked
  | ipputp (ifn : Nat) (nh : IPaddr) (pip : Packet)

/-- The checks in front of `rtget`; `none` lets the frame pass. -/
def headerCheck (ifnum : Nat) (pip : Packet) : Option Verdict :=
  if ipVerlen pip / 16 ≠ ipVersion then some .inHdrErrors
  else if ipClassE (dstAddr pip) then some .inAddrErrors
  else if ifnum ≠ niLocal ∧ ipcksum pip ≠ halfword pip 10 then some .inHdrErrors
  else none

/-- Whether `ipdbc` comes to its `panic`. -/
def ipdbc (host : Host) (pip : Packet) (prt : Route) : Bool :=
  decide (prt.rtIfnum = niLocal) && isbrc host.netifs (dstAddr pip)

/-- Whether `ipredirect` comes to its `panic`. -/
def ipredirect (host : Host) (ifn : Nat) (pip : Packet) (prt : Route) : Bool :=
  if ifn = niLocal ∨ ifn ≠ prt.rtIfnum then false
  else (rtget host.netifs host.table (srcAddr pip) true).any fun tprt => tprt.rtMetric == 0

/-- From `ipdbc` on. -/
def handOn (host : Host) (ifnum : Nat) (prt : Route) (pip : Packet) : Verdict :=
  if ipdbc host pip prt || ipredirect host ifnum pip prt then .panicked
  else if prt.rtMetric ≠ 0 then .ipputp prt.rtIfnum prt.rtGw pip
  else .ipputp prt.rtIfnum (dstAddr pip) pip

/-- The source of a frame that this host sends and has not filled in. -/
def fillSource (host : Host) (prt : Route) (pip : Packet) : Packet :=
  if srcAddr pip = ipAnyaddr then
    let src := if prt.rtIfnum = niLocal then dstAddr pip else (host.nif prt.rtIfnum).niIp
    memcpy pip 12 ((List.range 4).map (octetAt src))
  else pip

/-- With the route to the destination. -/
def routed (host : Host) (ifnum : Nat) (prt : Route) (pip : Packet) : Verdict :=
  if ifnum = niLocal then handOn host ifnum prt (fillSource host prt pip)
  else
    let ttl := pip 8 - 1
    if ttl = 0 ∧ prt.rtIfnum ≠ niLocal then .timeExceeded
    else handOn host ifnum prt (memcpy pip 8 [ttl])

def ipproc (host : Host) (ifnum : Nat) (pip : Packet) : Verdict :=
  match headerCheck ifnum pip with
  | some verdict => verdict
  | none =>
      match rtget host.netifs host.table (dstAddr pip) (decide (ifnum = niLocal)) with
      | none => if host.gateway then .netUnreachable else .outNoRoutes
      | some prt => routed host ifnum prt pip

/-! ## Header validation -/

def headerOctets (pip : Packet) : List Octet := fetch pip 0 (ipHlen pip).toNat

/-- The ones-complement sum of the header, its checksum field included. -/
def headerSum (pip : Packet) : Nat := EndAround.total 65536 (Cksums.words (headerOctets pip))

/-- The header with a checksum field of zero, and the checksum that belongs into it. -/
def restOctets (pip : Packet) : List Octet :=
  fetch (putHalfword pip 10 0) 0 (ipHlen pip).toNat

def restChecksum (pip : Packet) : Nat := Cksums.internetChecksum (restOctets pip)

/-- In a frame of which `received` octets arrived. -/
def LengthsInOrder (received : Nat) (pip : Packet) : Prop :=
  20 ≤ ipHlen pip ∧ ipHlen pip ≤ ipLen pip ∧ ipLen pip ≤ received

structure ValidHeader (received : Nat) (pip : Packet) : Prop where
  version : ipVerlen pip / 16 = ipVersion
  lengths : LengthsInOrder received pip
  sum : headerSum pip = 0xffff

structure HeaderLaw (received ifnum : Nat) (pip : Packet) : Prop where
  sound : headerCheck ifnum pip = none → ValidHeader received pip
  complete : ValidHeader received pip → ipClassE (dstAddr pip) = false →
    headerCheck ifnum pip = none

instance (received : Nat) (pip : Packet) : Decidable (LengthsInOrder received pip) :=
  inferInstanceAs (Decidable (_ ∧ _ ∧ _))

theorem headerCheck_none_iff (ifnum : Nat) (pip : Packet) (foreign : ifnum ≠ niLocal) :
    headerCheck ifnum pip = none ↔ ipVerlen pip / 16 = ipVersion ∧
      ipClassE (dstAddr pip) = false ∧ ipcksum pip = halfword pip 10 := by
  unfold headerCheck
  split_ifs with version reserved sum
  · simp [version]
  · simp [reserved]
  · simp [sum.2]
  · simp only [not_not, not_and] at version sum
    simp [version, reserved, sum foreign]

theorem ipHlen_toNat_le (pip : Packet) : (ipHlen pip).toNat ≤ 60 := by
  unfold ipHlen
  omega

theorem ipcksum_eq (pip : Packet) : ipcksum pip = restChecksum pip := by
  have short := ipHlen_toNat_le pip
  rw [ipcksum, Cksums.stevensCksum_internet _ _ (by omega), restChecksum, restOctets]

def restSum (pip : Packet) : Nat := (Cksums.words (restOctets pip)).sum

theorem restChecksum_eq (pip : Packet) :
    restChecksum pip = 65535 - EndAround.reduce 65536 (restSum pip) := by
  rw [restChecksum, Cksums.internetChecksum_eq, restSum]

theorem headerSum_eq (pip : Packet) (least : 20 ≤ ipHlen pip) :
    headerSum pip = EndAround.reduce 65536 (restSum pip + halfword pip 10) := by
  have blank : halfword (putHalfword pip 10 0) 10 = 0 := halfword_putHalfword pip 10 0 (by omega)
  have counted := Cksums.words_putHalfword (putHalfword pip 10 0) 0 10 (ipHlen pip).toNat
    (halfword pip 10) (by omega) (by omega) (by omega) blank (halfword_lt pip 10)
  have restored : fetch (putHalfword (putHalfword pip 10 0) 10 (halfword pip 10)) 0
      (ipHlen pip).toNat = headerOctets pip := by
    apply fetch_congr
    intro position inside
    by_cases field : 10 ≤ position ∧ position < 12
    · exact putHalfword_halfword pip _ 10 _ (by omega) (by omega)
    · rw [putHalfword_outside _ 10 _ _ (by omega), putHalfword_outside _ 10 _ _ (by omega)]
  rw [restored] at counted
  rw [headerSum, EndAround.total_eq_reduce (by omega) _ (Cksums.words_small _), counted, restSum,
    restOctets]

theorem restSum_pos (pip : Packet) (version : ipVerlen pip / 16 = ipVersion)
    (least : 20 ≤ ipHlen pip) : 0 < restSum pip := by
  obtain ⟨rest, length⟩ : ∃ rest, (ipHlen pip).toNat = rest + 1 + 1 :=
    ⟨(ipHlen pip).toNat - 2, by omega⟩
  have first : putHalfword pip 10 0 0 = pip 0 := putHalfword_outside pip 10 0 0 (by omega)
  rw [restSum, restOctets, length, fetch_cons, fetch_cons, Cksums.words, List.sum_cons, first]
  unfold ipVerlen ipVersion at version
  omega

/-- The recomputed checksum is the field exactly if the header adds up to ones and the field is
not itself the zero of all ones. -/
theorem restChecksum_agrees_iff (pip : Packet) (version : ipVerlen pip / 16 = ipVersion)
    (least : 20 ≤ ipHlen pip) :
    restChecksum pip = halfword pip 10 ↔ headerSum pip = 0xffff ∧ halfword pip 10 ≠ 0xffff := by
  have digits : 2 ≤ 65536 := by omega
  have some := restSum_pos pip version least
  have field := halfword_lt pip 10
  have reduced := EndAround.reduce_lt digits (restSum pip)
  have nonzero : EndAround.reduce 65536 (restSum pip) ≠ 0 := by
    rw [Ne, EndAround.reduce_eq_zero]
    omega
  have added := EndAround.add_reduce digits (restSum pip) field
  rw [restChecksum_eq, headerSum_eq pip least, ← added, EndAround.add]
  split_ifs <;> omega

/-- A frame whose lengths are in order is treated as the law says unless it verifies with a
checksum field of all ones; one whose lengths are not unless it passes the other checks. -/
theorem header_validated_iff (received ifnum : Nat) (pip : Packet) (foreign : ifnum ≠ niLocal) :
    HeaderLaw received ifnum pip ↔
      if LengthsInOrder received pip then
        ¬ (ipVerlen pip / 16 = ipVersion ∧ ipClassE (dstAddr pip) = false ∧
          headerSum pip = 0xffff ∧ halfword pip 10 = 0xffff)
      else
        ¬ (ipVerlen pip / 16 = ipVersion ∧ ipClassE (dstAddr pip) = false ∧
          restChecksum pip = halfword pip 10) := by
  have passes := headerCheck_none_iff ifnum pip foreign
  rw [ipcksum_eq] at passes
  split_ifs with lengths
  · constructor
    · rintro law ⟨version, unreserved, sum, ones⟩
      obtain ⟨_, _, agrees⟩ := passes.mp (law.complete ⟨version, lengths, sum⟩ unreserved)
      exact ((restChecksum_agrees_iff pip version lengths.1).mp agrees).2 ones
    · intro notOnes
      constructor
      · intro passed
        obtain ⟨version, _, agrees⟩ := passes.mp passed
        exact ⟨version, lengths, ((restChecksum_agrees_iff pip version lengths.1).mp agrees).1⟩
      · intro valid unreserved
        have other : halfword pip 10 ≠ 0xffff := by
          intro ones
          exact notOnes ⟨valid.version, unreserved, valid.sum, ones⟩
        have agrees := (restChecksum_agrees_iff pip valid.version lengths.1).mpr ⟨valid.sum, other⟩
        exact passes.mpr ⟨valid.version, unreserved, agrees⟩
  · constructor
    · intro law passed
      exact lengths (law.sound (passes.mpr passed)).lengths
    · intro refused
      constructor
      · intro passed
        exact absurd (passes.mp passed) refused
      · intro valid
        exact absurd valid.lengths lengths

/-- A datagram of 20 octets from 10.0.0.1 to 10.0.0.2. -/
def sampleFrame : Packet :=
  memcpy (fun _ => 0) 0 [0x45, 0, 0, 20, 0, 1, 0, 0, 64, 17, 0x66, 0xd6, 10, 0, 0, 1, 10, 0, 0, 2]

theorem sample_frame_passes :
    headerCheck 1 sampleFrame = none ∧ HeaderLaw 20 1 sampleFrame := by
  constructor
  · rw [headerCheck_none_iff 1 sampleFrame (by decide)]
    decide
  · exact (header_validated_iff 20 1 sampleFrame (by decide)).mpr (by decide)

/-- A version, a header length of 0 and a checksum of ones. -/
def headerless : Packet := memcpy (fun _ => 0) 0 [0x40, 0, 0, 0, 0, 0, 0, 0, 0, 0, 0xff, 0xff]

theorem headerless_frame_passes : headerCheck 1 headerless = none ∧ ¬ HeaderLaw 12 1 headerless := by
  have passes : headerCheck 1 headerless = none := by
    rw [headerCheck_none_iff 1 headerless (by decide)]
    decide
  constructor
  · exact passes
  · intro law
    have lengths := (law.sound passes).lengths
    exact absurd lengths (by decide)

end MvsXinu.IpProc
