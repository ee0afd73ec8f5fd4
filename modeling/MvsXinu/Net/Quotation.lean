import MvsXinu.Net.PacketPaths
import MvsXinu.Ip.InputProcess

/-!
# What an ICMP error quotes (`icmp.c`, `icsetbuf.c`, `icsetdata.c`, `icsetsrc.c`, `ipsend.c`)

The message is built where the datagram lies that it is about: the quotation is copied behind
the ICMP header, and then the IP header is filled in for the message. `memcpy` says what it does
only for areas that are apart, so the copy within the buffer is a parameter. The fields in front
of the datagram take no part.
-/

namespace MvsXinu.Net

open MvsXinu.Octets MvsXinu.Ip

set_option autoImplicit false

def icHlen : Int := 8
def epDlen : Nat := 1500
def maxnetbuf : Nat := 24 + epDlen
def ippInctl : Octet := 0xc0
def ipTtl : Octet := 255

/-- What `icsetsrc` reads of an interface. -/
structure Source where
  niIp : Routing.IPaddr
  niMask : Routing.IPaddr

/-- `netpool` and `lrgpool` are what `getbuf` returns, `none` is `SYSERR`. -/
structure Sending where
  nif : List Netif
  sources : List Source
  netpool : Option Packet
  lrgpool : Option Packet
  pid : Nat
  ipackid : Nat

/-- A call of `icmp`. The pointer `pa1` is the packet that it leads to, or `seq` as a number. -/
structure IcmpCall where
  type : Nat
  code : Nat
  dst : Routing.IPaddr
  pa1 : Packet
  seq : Nat
  pa2 : Routing.IPaddr

/-- `memcpy` with the destination, the origin and the count, within one storage. -/
abbrev Copy := Storage → Int → Int → Nat → Storage

/-- Nothing is said of areas that overlap. -/
def Documented (copy : Copy) : Prop :=
  ∀ (storage : Storage) (place origin : Int) (count : Nat), origin + count ≤ place ∨ place + count ≤ origin →
    copy storage place origin count = memcpy storage place (fetch storage origin count)

def addrOctets (address : Routing.IPaddr) : List Octet :=
  (List.range 4).map (Routing.octetAt address)

/-! ## The message -/

def icsetbuf (host : Sending) (call : IcmpCall) : Option Packet :=
  if call.type = ictRedirect then
    host.netpool.map fun pep => memcpy pep (-epHlen) (fetch call.pa1 (-epHlen) maxnetbuf)
  else if isErrorType call.type || isReplyType call.type then some call.pa1
  else if isRequestType call.type then host.lrgpool
  else none

def icsetsrc (sources : List Source) (pip : Packet) : Packet :=
  let found := (sources.drop (niLocal + 1)).find? fun pni =>
    Routing.netmatch [] (IpProc.dstAddr pip) pni.niIp pni.niMask false
  memcpy pip 12 (addrOctets ((found.map Source.niIp).getD Routing.ipAnyaddr))

def echomax (pip : Packet) : Nat := 2048 - 8 - (ipHlen pip).toNat - 24 - 4

/-- With the length of the data that it adds. -/
def icsetdata (type : Nat) (pip : Packet) (pa2 : Routing.IPaddr) : Packet × Int :=
  if type = ictEchorp then
    let len := ipLen pip - ipHlen pip - icHlen
    (if len % 2 = 1 then memcpy pip (28 + len) [0] else pip, len)
  else if type = ictDestur ∨ type = ictSrcq ∨ type = ictTimex then
    (memcpy pip 24 [0, 0, 0, 0], 0)
  else if type = ictRedirect then (memcpy pip 24 (addrOctets pa2), 0)
  else if type = ictParamp then (memcpy pip 24 [pa2.extractLsb' 0 8, 0, 0, 0], 0)
  else if type = ictMaskrp then (memcpy pip 28 (addrOctets pa2), 0)
  else if type = ictEchorq then
    let len := min pa2.toNat (echomax pip)
    (memcpy pip 28 ((List.range len).map (BitVec.ofNat 8)), len)
  else if type = ictMaskrq then (memcpy pip 28 (addrOctets Routing.ipAnyaddr), 4)
  else (pip, 0)

/-- From the source address to the data of the message. -/
def icfill (host : Sending) (call : IcmpCall) (pip : Packet) : Packet × Int :=
  let isresp := isErrorType call.type || isReplyType call.type
  let sourced := if isresp then icsetsrc host.sources pip
    else memcpy pip 12 (addrOctets Routing.ipAnyaddr)
  let addressed := memcpy sourced 16 (addrOctets call.dst)
  let typed := memcpy addressed 20 [BitVec.ofNat 8 call.type, BitVec.ofNat 8 call.code]
  let numbered := if isresp then typed
    else putHalfword (putHalfword typed 26 (if call.type = ictEchorq then call.seq else 0)) 24
      host.pid
  icsetdata call.type numbered call.pa2

/-- The whole header; `ipsendHeader` has the fields that decide the way of a packet. -/
def ipsendFrame (ipackid : Nat) (faddr : Routing.IPaddr) (pip : Packet) (datalen : Nat)
    (proto tos ttl : Octet) : Packet :=
  memcpy (putHalfword (memcpy (ipsendHeader pip (addrOctets faddr) datalen proto) 1 [tos]) 4
    ipackid) 8 [ttl]

/-- The checksum of the message, and `ipsend`. -/
def icseal (host : Sending) (call : IcmpCall) (pip : Packet) (datalen : Nat) : Packet :=
  let zeroed := putHalfword pip 22 0
  let summed := putHalfword zeroed 22 (Cksums.stevensCksum zeroed 20 datalen).toNat
  ipsendFrame host.ipackid call.dst summed datalen iptIcmp ippInctl ipTtl

/-- The datagram that is sent, if one is. -/
def icmp (copy : Copy) (host : Sending) (call : IcmpCall) : Option Packet :=
  (icsetbuf host call).bind fun pep =>
    if isErrorType call.type then
      if icerrok host.nif pep then
        let quoted := copy pep 28 0 ((ipHlen pep).toNat + 8)
        let filled := icfill host call quoted
        some (icseal host call filled.1 (icHlen + (ipHlen quoted + 8) + filled.2).toNat)
      else none
    else
      let filled := icfill host call pep
      some (icseal host call filled.1 (icHlen + filled.2).toNat)

/-- The ICMP message in a datagram. -/
def message (sent : Packet) : List Octet := fetch sent 20 ((ipLen sent).toNat - 20)

/-- Behind the ICMP header are the header of the offending datagram and the beginning of its
payload. -/
structure Quoted (offending sent : Packet) : Prop where
  quotation : (message sent).drop 8 =
    fetch offending 0 (ipHlen offending).toNat ++ (payload offending).take 8
  verifies : Cksums.internetChecksum (message sent) = 0

/-- There is a buffer for the message, and the datagram may have one. -/
def Reported (host : Sending) (call : IcmpCall) : Prop :=
  (icsetbuf host call).any (icerrok host.nif) = true

instance (host : Sending) (call : IcmpCall) : Decidable (Reported host call) :=
  inferInstanceAs (Decidable (_ = true))

/-! ## What lies behind the ICMP header -/

theorem addrOctets_length (address : Routing.IPaddr) : (addrOctets address).length = 4 := by
  simp [addrOctets]

theorem icsetdata_error {type : Nat} (isError : isErrorType type = true) (pip : Packet)
    (pa2 : Routing.IPaddr) (place : Int) (behind : 28 ≤ place) :
    (icsetdata type pip pa2).1 place = pip place ∧ (icsetdata type pip pa2).2 = 0 := by
  have kinds : type = ictDestur ∨ type = ictRedirect ∨ type = ictSrcq ∨ type = ictTimex ∨
      type = ictParamp := by
    simpa [isErrorType, or_assoc] using isError
  have length := addrOctets_length pa2
  rcases kinds with rfl | rfl | rfl | rfl | rfl
  all_goals
    refine ⟨?_, rfl⟩
    apply memcpy_outside
    simp only [addrOctets_length, List.length_cons, List.length_nil]
    omega

theorem icfill_error {host : Sending} {call : IcmpCall} (isError : isErrorType call.type = true)
    (pip : Packet) (place : Int) (behind : 28 ≤ place) :
    (icfill host call pip).1 place = pip place ∧ (icfill host call pip).2 = 0 := by
  unfold icfill
  simp only [isError, Bool.true_or, if_true]
  obtain ⟨kept, length⟩ := icsetdata_error isError (memcpy (memcpy (icsetsrc host.sources pip) 16
    (addrOctets call.dst)) 20 [BitVec.ofNat 8 call.type, BitVec.ofNat 8 call.code]) call.pa2 place
    behind
  refine ⟨?_, length⟩
  rw [kept, memcpy_outside _ _ _ _ (by simp only [List.length_cons, List.length_nil]; omega),
    memcpy_outside _ _ _ _ (by rw [addrOctets_length]; omega), icsetsrc,
    memcpy_outside _ _ _ _ (by rw [addrOctets_length]; omega)]

/-- Of the fields that `ipsend` sets, `ip_len` alone is in the halfword at 2. -/
theorem ipsendFrame_at (ipackid : Nat) (faddr : Routing.IPaddr) (pip : Packet) (datalen : Nat)
    (tos ttl : Octet) (place : Int) (inside : place = 2 ∨ place = 3 ∨ 20 ≤ place) :
    ipsendFrame ipackid faddr pip datalen iptIcmp tos ttl place =
      putHalfword pip 2 (datalen + 20) place := by
  have single : ∀ (value : Octet), [value].length = 1 := fun _ => rfl
  have headed : memcpy pip 0 [0x45] place = pip place :=
    memcpy_outside _ _ _ _ (by rw [single]; omega)
  have length : putHalfword (memcpy pip 0 [0x45]) 2 (datalen + 20) place =
      putHalfword pip 2 (datalen + 20) place := memcpy_congr 2 _ headed
  unfold ipsendFrame ipsendHeader
  simp only [if_true]
  rw [memcpy_outside _ 8 place _ (by rw [single]; omega),
    putHalfword_outside _ 4 place _ (by omega), memcpy_outside _ 1 place _ (by rw [single]; omega),
    memcpy_outside _ 16 place _ (by rw [addrOctets_length]; omega),
    memcpy_outside _ 9 place _ (by rw [single]; omega), putHalfword_outside _ 6 place _ (by omega),
    length]

theorem ipsendFrame_behind (ipackid : Nat) (faddr : Routing.IPaddr) (pip : Packet)
    (datalen : Nat) (tos ttl : Octet) (place : Int) (behind : 20 ≤ place) :
    ipsendFrame ipackid faddr pip datalen iptIcmp tos ttl place = pip place := by
  rw [ipsendFrame_at _ _ _ _ _ _ _ (Or.inr (Or.inr behind)),
    putHalfword_outside _ 2 place _ (by omega)]

theorem ipsendFrame_len (ipackid : Nat) (faddr : Routing.IPaddr) (pip : Packet) {datalen : Nat}
    (tos ttl : Octet) (short : datalen + 20 < 65536) :
    ipLen (ipsendFrame ipackid faddr pip datalen iptIcmp tos ttl) = datalen + 20 := by
  have same : halfword (ipsendFrame ipackid faddr pip datalen iptIcmp tos ttl) 2 =
      halfword (putHalfword pip 2 (datalen + 20)) 2 :=
    halfword_congr _ _ _ (ipsendFrame_at _ _ _ _ _ _ 2 (Or.inl rfl))
      (ipsendFrame_at _ _ _ _ _ _ 3 (Or.inr (Or.inl rfl)))
  rw [ipLen, same, halfword_putHalfword _ _ _ short]
  rfl

/-! ## The message that is sent -/

theorem icseal_behind (host : Sending) (call : IcmpCall) (pip : Packet) (datalen : Nat)
    (place : Int) (behind : 24 ≤ place) : icseal host call pip datalen place = pip place := by
  unfold icseal
  rw [ipsendFrame_behind _ _ _ _ _ _ _ (by omega), putHalfword_outside _ 22 place _ (by omega),
    putHalfword_outside _ 22 place _ (by omega)]

theorem icseal_message (host : Sending) (call : IcmpCall) (pip : Packet) {datalen : Nat}
    (short : datalen + 20 < 65536) :
    message (icseal host call pip datalen) = fetch (icseal host call pip datalen) 20 datalen := by
  have len : ipLen (icseal host call pip datalen) = datalen + 20 := ipsendFrame_len _ _ _ _ _ short
  have count : ((datalen : Int) + 20).toNat - 20 = datalen := by omega
  rw [message, len, count]

/-- The checksum was taken with a zero in its field and covers the message. -/
theorem icseal_verifies (host : Sending) (call : IcmpCall) (pip : Packet) {datalen : Nat}
    (header : 4 ≤ datalen) (short : datalen + 20 < 65536) :
    Cksums.internetChecksum (message (icseal host call pip datalen)) = 0 := by
  have spec := (Cksums.stevensSum_spec (putHalfword pip 22 0) 20 datalen (by omega)).2
  have zeroed := halfword_putHalfword pip 22 0 (by omega)
  have counted := Cksums.words_putHalfword (putHalfword pip 22 0) 20 22 datalen
    (Cksums.stevensCksum (putHalfword pip 22 0) 20 datalen).toNat (by decide) (by decide) (by omega)
    zeroed (BitVec.isLt _)
  have sent : fetch (icseal host call pip datalen) 20 datalen =
      fetch (putHalfword (putHalfword pip 22 0) 22
        (Cksums.stevensCksum (putHalfword pip 22 0) 20 datalen).toNat) 20 datalen := by
    apply fetch_congr
    intro position _
    exact ipsendFrame_behind _ _ _ _ _ _ _ (by omega)
  rw [← sent, spec] at counted
  rw [icseal_message host call pip short]
  exact Cksums.internetChecksum_completed counted

/-- An error message with what the copy made of the buffer. -/
theorem icmp_error {copy : Copy} {host : Sending} {call : IcmpCall} {sent : Packet}
    (isError : isErrorType call.type = true) (sends : icmp copy host call = some sent) :
    ∃ pep, icsetbuf host call = some pep ∧
      let quoted := copy pep 28 0 ((ipHlen pep).toNat + 8)
      message sent = fetch sent 20 ((ipHlen quoted).toNat + 16) ∧
        (∀ place, 28 ≤ place → sent place = quoted place) ∧
        Cksums.internetChecksum (message sent) = 0 := by
  obtain ⟨pep, buffer, sends⟩ := Option.bind_eq_some_iff.mp sends
  refine ⟨pep, buffer, ?_⟩
  dsimp only
  simp only [isError, if_true] at sends
  split_ifs at sends with permitted
  have nonneg := ipHlen_nonneg (copy pep 28 0 ((ipHlen pep).toNat + 8))
  have bound := IpProc.ipHlen_toNat_le (copy pep 28 0 ((ipHlen pep).toNat + 8))
  have noData : (icfill host call (copy pep 28 0 ((ipHlen pep).toNat + 8))).2 = 0 :=
    (icfill_error isError _ 28 (le_refl 28)).2
  have total : (icHlen + (ipHlen (copy pep 28 0 ((ipHlen pep).toNat + 8)) + 8) +
      (icfill host call (copy pep 28 0 ((ipHlen pep).toNat + 8))).2).toNat =
        (ipHlen (copy pep 28 0 ((ipHlen pep).toNat + 8))).toNat + 16 := by
    rw [noData, icHlen]
    omega
  rw [total] at sends
  obtain rfl := Option.some.inj sends
  refine ⟨icseal_message host call _ (by omega), ?_, icseal_verifies host call _ (by omega)
    (by omega)⟩
  intro place behind
  rw [icseal_behind host call _ _ place (by omega), (icfill_error isError _ place behind).1]

/-- The buffer holds the datagram as it was when `icmp` was called. -/
theorem icsetbuf_error {host : Sending} {call : IcmpCall} {pep : Packet}
    (isError : isErrorType call.type = true) (buffer : icsetbuf host call = some pep)
    (place : Int) (low : 0 ≤ place) (high : place < epDlen) : pep place = call.pa1 place := by
  unfold icsetbuf at buffer
  split_ifs at buffer with redirect
  · obtain ⟨fresh, _, rfl⟩ := Option.map_eq_some_iff.mp buffer
    unfold epDlen at high
    unfold epHlen maxnetbuf epDlen
    exact memcpy_fetch _ _ _ _ _ (by omega) (by omega)
  · rw [← Option.some.inj buffer]
  all_goals simp_all

/-! ## Copies -/

/-- An octet at a time, from the first one on. -/
def mvcCopy : Copy := fun storage place origin count =>
  (List.range count).foldl (fun moved (position : Nat) =>
    memcpy moved (place + position) [moved (origin + position)]) storage

/-- As documented, and something else where the areas overlap. -/
def overlapLost : Copy := fun storage place origin count =>
  if origin + count ≤ place ∨ place + count ≤ origin then
    memcpy storage place (fetch storage origin count)
  else memcpy storage place ((fetch storage origin count).map fun octet => ~~~octet)

theorem overlapLost_documented : Documented overlapLost := by
  intro storage place origin count apart
  rw [overlapLost, if_pos apart]

theorem mvcCopy_documented : Documented mvcCopy := by
  intro storage place origin count apart
  unfold mvcCopy
  induction count with
  | zero =>
      funext octet
      exact (memcpy_unmoved storage storage place origin octet 0 (by omega)).symm
  | succ count ih =>
      rw [List.range_succ, List.foldl_append, ih (by omega), List.foldl_cons, List.foldl_nil,
        memcpy_unmoved storage storage place origin (origin + count) count (by omega)]
      funext octet
      by_cases last : octet = place + count
      · subst last
        have inside := memcpy_inside (memcpy storage place (fetch storage origin count))
          (place + count) [storage (origin + count)] 0 (by simp)
        rw [Nat.cast_zero, Int.add_zero] at inside
        rw [inside, memcpy_moved storage storage place origin _ (count + 1) (by omega) (by omega),
          List.getElem_cons_zero]
        congr 1
        omega
      · rw [memcpy_outside _ (place + count) octet _ (by rw [List.length_singleton]; omega)]
        by_cases before : place ≤ octet ∧ octet < place + count
        · rw [memcpy_moved storage storage place origin octet count before.1 before.2,
            memcpy_moved storage storage place origin octet (count + 1) before.1 (by omega)]
        · rw [memcpy_unmoved storage storage place origin octet count (by omega),
            memcpy_unmoved storage storage place origin octet (count + 1) (by omega)]

/-! ## Every offending datagram -/

theorem quoted_data {storage : Storage} (hlen : ipHlen storage = 20)
    (long : 8 ≤ (payload storage).length) :
    fetch storage 0 (ipHlen storage).toNat ++ (payload storage).take 8 = fetch storage 0 28 := by
  have enough : 8 ≤ (ipLen storage - 20).toNat := by
    rw [payload, fetch_length, hlen] at long
    exact long
  have head := take_fetch storage 0 28 20
  have tail := drop_fetch storage 0 28 20
  rw [payload, take_fetch, hlen, min_eq_left enough, ← List.take_append_drop 20 (fetch storage 0 28),
    head, tail]
  rfl

theorem icmp_sends (copy : Copy) {host : Sending} {call : IcmpCall}
    (isError : isErrorType call.type = true) (reported : Reported host call) :
    ∃ sent, icmp copy host call = some sent := by
  unfold Reported at reported
  obtain ⟨pep, buffer, permitted⟩ := (Option.any_eq_true _ _).mp reported
  unfold icmp
  rw [buffer, Option.bind_some, if_pos isError, if_pos permitted]
  exact ⟨_, rfl⟩

theorem ipHlen_congr {pip other : Packet} (same : pip 0 = other 0) : ipHlen pip = ipHlen other := by
  rw [ipHlen, ipHlen, ipVerlen, ipVerlen, same]

theorem not_ne_self (octet : Octet) : ~~~octet ≠ octet := by
  intro same
  have values := congrArg BitVec.toNat same
  have bound := octet.isLt
  rw [BitVec.toNat_not] at values
  omega

theorem overlapLost_first (storage : Storage) {count : Nat} (overlaps : 28 < count) :
    overlapLost storage 28 0 count 28 = ~~~storage 0 := by
  have lost : ¬ ((0 : Int) + count ≤ 28 ∨ (28 : Int) + count ≤ 0) := by omega
  have inside := memcpy_inside storage 28 ((fetch storage 0 count).map fun octet => ~~~octet) 0
    (by rw [List.length_map, fetch_length]; omega)
  rw [Nat.cast_zero, Int.add_zero, List.getElem_map, fetch_at] at inside
  rw [overlapLost, if_neg lost, inside]
  rfl

/-- The octets of the message behind the ICMP header. -/
theorem message_drop {sent quoted : Packet} {hlen : Nat}
    (whole : message sent = fetch sent 20 (hlen + 16))
    (behind : ∀ place, 28 ≤ place → sent place = quoted place) :
    (message sent).drop 8 = fetch quoted 28 (hlen + 8) := by
  rw [whole, drop_fetch]
  exact fetch_congr _ _ _ _ fun position _ => behind _ (by omega)

/-- With any `memcpy` that does what is documented, the quotation is right exactly if the header
has no options, so that it does not reach what is written, and eight octets follow it. -/
theorem icmp_quotation_iff (host : Sending) (call : IcmpCall)
    (isError : isErrorType call.type = true) (header : 20 ≤ ipHlen call.pa1)
    (reported : Reported host call) :
    (∀ copy, Documented copy → ∃ sent, icmp copy host call = some sent ∧ Quoted call.pa1 sent) ↔
      ipHlen call.pa1 = 20 ∧ 8 ≤ (payload call.pa1).length := by
  have nonneg := ipHlen_nonneg call.pa1
  have bound := IpProc.ipHlen_toNat_le call.pa1
  constructor
  · intro always
    obtain ⟨sent, sends, quoted⟩ := always overlapLost overlapLost_documented
    obtain ⟨pep, buffer, whole, behind, _⟩ := icmp_error isError sends
    have same := icsetbuf_error isError buffer
    have first := same 0 (le_refl 0) (by decide)
    have hlen : ipHlen pep = ipHlen call.pa1 := ipHlen_congr first
    have unmoved : overlapLost pep 28 0 ((ipHlen pep).toNat + 8) 0 = pep 0 := by
      unfold overlapLost
      split_ifs
      · exact memcpy_outside _ _ _ _ (Or.inl (by decide))
      · exact memcpy_outside _ _ _ _ (Or.inl (by decide))
    rw [ipHlen_congr (unmoved.trans first)] at whole
    have data := message_drop whole behind
    rw [quoted.quotation] at data
    have short : ipHlen call.pa1 = 20 := by
      by_contra options
      obtain ⟨rest, count⟩ : ∃ rest, (ipHlen call.pa1).toNat = rest + 1 :=
        ⟨(ipHlen call.pa1).toNat - 1, by omega⟩
      have lost := overlapLost_first pep (by omega : 28 < (ipHlen pep).toNat + 8)
      rw [count, fetch_cons, Nat.add_right_comm, fetch_cons, List.cons_append] at data
      have head := (List.cons.inj data).1
      rw [lost, first] at head
      exact not_ne_self _ head.symm
    refine ⟨short, ?_⟩
    have lengths := congrArg List.length data
    rw [List.length_append, fetch_length, fetch_length, List.length_take] at lengths
    omega
  · rintro ⟨short, long⟩ copy documented
    obtain ⟨sent, sends⟩ := icmp_sends copy isError reported
    obtain ⟨pep, buffer, whole, behind, verifies⟩ := icmp_error isError sends
    have same := icsetbuf_error isError buffer
    have hlen : ipHlen pep = 20 := by
      rw [← short]
      exact ipHlen_congr (same 0 (le_refl 0) (by decide))
    have apart : copy pep 28 0 ((ipHlen pep).toNat + 8) = memcpy pep 28 (fetch pep 0 28) := by
      rw [hlen]
      exact documented pep 28 0 28 (Or.inl (by decide))
    rw [apart] at whole behind
    have hlenQuoted : ipHlen (memcpy pep 28 (fetch pep 0 28)) = 20 := by
      rw [← hlen]
      exact ipHlen_congr (memcpy_outside _ _ _ _ (Or.inl (by decide)))
    rw [hlenQuoted] at whole
    refine ⟨sent, sends, ?_, verifies⟩
    rw [message_drop whole behind, quoted_data short long]
    have copied := fetch_memcpy pep 28 (fetch pep 0 28)
    rw [fetch_length] at copied
    rw [show ((20 : Int).toNat + 8) = 28 from rfl, copied]
    apply fetch_congr
    intro position inside
    exact same _ (by omega) (by unfold epDlen; omega)

/-- A datagram whose time to live is used up. -/
def expired (octets : List Octet) : IcmpCall where
  type := ictTimex
  code := 0
  dst := 0x0a000001
  pa1 := memcpy (fun _ => 0) 0 octets
  seq := 0
  pa2 := 0

def lonely : Sending where
  nif := []
  sources := []
  netpool := none
  lrgpool := none
  pid := 0
  ipackid := 1

def plainDatagram : List Octet :=
  [0x45, 0, 0, 28, 0, 1, 0, 0, 1, 17, 0, 0, 10, 0, 0, 1, 192, 0, 2, 1, 0, 7, 0, 9, 0, 8, 0, 0]

def routedDatagram : List Octet :=
  [0x46, 0, 0, 36, 0, 1, 0, 0, 1, 17, 0, 0, 10, 0, 0, 1, 192, 0, 2, 1, 0x44, 4, 5, 0, 0, 7, 0, 9,
    0, 12, 0, 0, 1, 2, 3, 4]

theorem plain_datagram_quoted :
    ∃ sent, icmp mvcCopy lonely (expired plainDatagram) = some sent ∧
      Quoted (expired plainDatagram).pa1 sent :=
  (icmp_quotation_iff lonely (expired plainDatagram) (by decide) (by decide) (by decide)).mpr
    ⟨by decide, by decide⟩ mvcCopy mvcCopy_documented

/-- From octet 28 on the copy reads what it has written: behind a header of 24 octets the version
octet comes again. -/
theorem options_misquoted :
    ¬ ∀ (host : Sending) (call : IcmpCall), isErrorType call.type = true → 20 ≤ ipHlen call.pa1 →
      Reported host call → ∀ copy, Documented copy →
        ∃ sent, icmp copy host call = some sent ∧ Quoted call.pa1 sent := by
  intro always
  obtain ⟨sent, sends, quoted⟩ := always lonely (expired routedDatagram) (by decide) (by decide)
    (by decide) mvcCopy mvcCopy_documented
  obtain ⟨pep, buffer, whole, behind, _⟩ := icmp_error rfl sends
  obtain rfl : (expired routedDatagram).pa1 = pep := Option.some.inj buffer
  have hlen : ipHlen (mvcCopy (expired routedDatagram).pa1 28 0
      ((ipHlen (expired routedDatagram).pa1).toNat + 8)) = 24 := by decide
  rw [hlen] at whole
  have data := message_drop whole behind
  rw [quoted.quotation] at data
  have octet := congrArg (fun octets => octets[28]?) data
  exact absurd octet (by decide)

end MvsXinu.Net
