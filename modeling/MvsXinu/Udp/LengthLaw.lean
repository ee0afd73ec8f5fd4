import MvsXinu.Udp.Lengths

/-!
# When the lengths of a datagram are safe

The packet that `udp_in` queues has the lengths and the data of the one that arrived, unless
`u_len` is shorter than the header, where the octet that pads the checksum may fall into it. From
there on the four lengths decide.
-/

namespace MvsXinu.UdpLengths

open MvsXinu.Octets MvsXinu.Ip
open MvsXinu.Net (udpLen ipdstopts)
open MvsXinu.Datagrams (Upq)
open MvsXinu.Outbound (Pip UdpCall Iface octets16 octets32 udpsend)

set_option autoImplicit false

/-! ## What is queued -/

/-- `udp_in` gets a packet without options. -/
theorem ipdstopts_hlen (raw : Packet) : ipHlen (ipdstopts raw) = 20 := by
  unfold ipdstopts
  split_ifs with plain
  · exact plain
  · have bound := (raw 0).isLt
    have verlen : ∀ cut : Packet, ipVerlen (memcpy cut 0 [BitVec.ofNat 8 (ipVerlen raw / 16 * 16 + 5)]) =
        ipVerlen raw / 16 * 16 + 5 := by
      intro cut
      have written := memcpy_inside cut 0 [BitVec.ofNat 8 (ipVerlen raw / 16 * 16 + 5)] 0 (by simp)
      simp only [Nat.cast_zero, add_zero, List.getElem_cons_zero] at written
      rw [ipVerlen, written, BitVec.toNat_ofNat, Nat.mod_eq_of_lt]
      unfold ipVerlen
      omega
    dsimp only
    rw [ipHlen, verlen]
    omega

theorem udpData_eq {pip : Packet} (plain : ipHlen pip = 20) :
    udpData pip = fetch pip 28 (min (udpLen pip - uHlen) (room pip)) := by
  have octets : min (udpLen pip) (ipLen pip - 20).toNat - uHlen =
      min (udpLen pip - uHlen) (room pip) := by
    unfold room
    omega
  have place : (20 : Int) + (uHlen : Int) = 28 := rfl
  rw [udpData, payload, plain, take_fetch, drop_fetch, octets, place]

/-- The packet is queued as it is or with an octet behind its last one set to zero. -/
theorem udpIn_queued {upqs : Nat → Upq} {pcount : Int → Nat} {arrived pip : Packet} {xport : Int}
    (accepted : udpIn upqs pcount arrived = (ok, some (xport, pip))) :
    pip = arrived ∨ pip = Cksums.padded arrived (udpLen arrived) := by
  have queued : pip = (if halfword arrived 26 ≠ 0 then
      Cksums.udpcksum arrived (udpLen arrived) else (arrived, 0)).1 := by
    unfold udpIn at accepted
    dsimp only at accepted
    generalize (if halfword arrived 26 ≠ 0 then
      Cksums.udpcksum arrived (udpLen arrived) else (arrived, 0)) = checked at accepted ⊢
    split_ifs at accepted
    · cases accepted
    · cases found : upqFor upqs (halfword checked.1 22) with
      | none =>
          rw [found] at accepted
          cases accepted
      | some pup =>
          rw [found] at accepted
          dsimp only at accepted
          split_ifs at accepted
          · cases accepted
          · cases accepted
            rfl
  split_ifs at queued
  · exact Or.inr queued
  · exact Or.inl queued

/-- What `dgread` goes by agrees with what has arrived. -/
structure SameLengths (arrived pip : Packet) : Prop where
  length : uHlen ≤ udpLen pip ∨ uHlen ≤ udpLen arrived → udpLen arrived = udpLen pip
  space : room arrived = room pip
  data : ∀ count, uHlen + count ≤ udpLen arrived → fetch arrived 28 count = fetch pip 28 count

theorem padded_lengths (pip : Packet) : SameLengths pip (Cksums.padded pip (udpLen pip)) := by
  have elsewhere : ∀ place : Int, place ≠ 20 + udpLen pip →
      Cksums.padded pip (udpLen pip) place = pip place :=
    Cksums.padded_outside pip (udpLen pip)
  have high : Cksums.padded pip (udpLen pip) 24 = pip 24 := by
    by_cases four : udpLen pip = 4
    · rw [four]
      rfl
    · exact elsewhere 24 (by omega)
  refine ⟨?_, ?_, ?_⟩
  · by_cases five : udpLen pip = 5
    · intro long
      have low : Cksums.padded pip (udpLen pip) 25 = 0 := by
        rw [five]
        exact memcpy_inside pip 25 [0] 0 (by simp)
      have zero : (pip 24).toNat = 0 := by
        unfold udpLen halfword at five
        have bound := (pip 25).isLt
        omega
      have short : udpLen (Cksums.padded pip (udpLen pip)) = 0 := by
        rw [udpLen, halfword, high, zero]
        have next : (24 : Int) + 1 = 25 := rfl
        rw [next, low]
        rfl
      rw [short, five] at long
      unfold uHlen at long
      omega
    · intro _
      have low : Cksums.padded pip (udpLen pip) (24 + 1) = pip (24 + 1) :=
        elsewhere (24 + 1) (by omega)
      have same : halfword (Cksums.padded pip (udpLen pip)) 24 = halfword pip 24 := by
        rw [halfword, halfword, high, low]
      exact same.symm
  · have first : Cksums.padded pip (udpLen pip) 2 = pip 2 := elsewhere 2 (by omega)
    have second : Cksums.padded pip (udpLen pip) (2 + 1) = pip (2 + 1) :=
      elsewhere (2 + 1) (by omega)
    rw [room, room, ipLen, ipLen, halfword, halfword, first, second]
  · intro count inside
    apply fetch_congr
    intro position below
    unfold uHlen at inside
    exact (elsewhere _ (by omega)).symm

theorem sameLengths_self (pip : Packet) : SameLengths pip pip :=
  ⟨fun _ => rfl, rfl, fun _ _ => rfl⟩

/-- The data that have arrived, read off the packet in the queue. -/
theorem SameLengths.arrived_data {arrived pip : Packet} (same : SameLengths arrived pip)
    (plain : ipHlen arrived = 20) :
    udpData arrived = fetch pip 28 (min (udpLen pip - uHlen) (room pip)) := by
  rw [udpData_eq plain, same.space]
  by_cases long : uHlen ≤ udpLen arrived
  · have length := same.length (Or.inr long)
    rw [← length]
    apply same.data
    omega
  · have short : ¬ uHlen ≤ udpLen pip := by
      intro other
      have length := same.length (Or.inl other)
      omega
    have none : min (udpLen arrived - uHlen) (room pip) = 0 := by omega
    have nothing : min (udpLen pip - uHlen) (room pip) = 0 := by omega
    rw [none, nothing]
    rfl

/-! ## `dgread` -/

theorem udpLen_short (pip : Packet) : udpLen pip < 65536 := by
  have high := (pip 24).isLt
  have low := (pip (24 + 1)).isLt
  unfold udpLen halfword
  omega

/-- The subtraction goes below zero where `u_len` is shorter than the header. -/
theorem datalen_toNat (pip : Packet) :
    (BitVec.ofNat 32 (udpLen pip) - BitVec.ofNat 32 uHlen).toNat =
      if uHlen ≤ udpLen pip then udpLen pip - uHlen else 2 ^ 32 - uHlen + udpLen pip := by
  have short := udpLen_short pip
  rw [BitVec.toNat_sub, BitVec.toNat_ofNat, BitVec.toNat_ofNat]
  unfold uHlen
  split_ifs <;> omega

/-- The header of a datagram for the caller is as long as that of UDP. -/
theorem needed_eq (pip : Packet) :
    BitVec.ofNat 32 (udpLen pip) - BitVec.ofNat 32 uHlen + BitVec.ofNat 32 xghlen =
      BitVec.ofNat 32 (udpLen pip) := by
  have same : BitVec.ofNat 32 xghlen = BitVec.ofNat 32 uHlen := rfl
  rw [same, BitVec.sub_add_cancel]

section Reads

variable {arrived pip : Packet}
  (data : udpData arrived = fetch pip 28 (min (udpLen pip - uHlen) (room pip)))

include data

/-- How many octets are copied decides whether they were received. -/
theorem readLaw_iff (len : Word) (reading : Reading)
    (copied : reading.data = fetch pip 28 reading.datalen.toNat) :
    ReadLaw arrived len reading ↔
      reading.header.length + reading.datalen.toNat ≤ len.toNat ∧
        reading.datalen.toNat ≤ min (udpLen pip - uHlen) (room pip) := by
  have length : reading.data.length = reading.datalen.toNat := by rw [copied, fetch_length]
  constructor
  · rintro ⟨fits, received, _⟩
    have shorter := received.length_le
    rw [data, length, fetch_length] at shorter
    rw [length] at fits
    exact ⟨fits, shorter⟩
  · rintro ⟨fits, few⟩
    refine ⟨by rw [length]; exact fits, ?_, length.symm⟩
    rw [copied, data]
    exact fetch_prefix pip 28 few

theorem copyOut_normal (pdg : Dgblk) (len : Word) (normal : pdg.has dgNmode = true) :
    (∀ reading, copyOut pdg pip len = .ok reading → ReadLaw arrived len reading) ↔
      len.toNat < udpLen pip ∨ (uHlen ≤ udpLen pip ∧ udpLen pip - uHlen ≤ room pip) := by
  have short := udpLen_short pip
  have bound := len.isLt
  have datalen := datalen_toNat pip
  have refused : len.ult (BitVec.ofNat 32 (udpLen pip)) = decide (len.toNat < udpLen pip) := by
    rw [BitVec.ult, BitVec.toNat_ofNat, Nat.mod_eq_of_lt (by omega)]
  rw [copyOut, if_pos normal, needed_eq, refused]
  by_cases small : len.toNat < udpLen pip
  · simp [small]
  · have enough : decide (len.toNat < udpLen pip) = false := decide_eq_false small
    rw [enough, if_neg Bool.false_ne_true]
    simp only [Except.ok.injEq, forall_eq', small, false_or]
    rw [readLaw_iff data len _ rfl]
    have header : (fetch pip 12 4 ++ fetch pip 20 2 ++ octets16 pdg.dgLport).length = uHlen := by
      simp [octets16, uHlen]
    dsimp only
    rw [header, datalen]
    unfold uHlen
    split_ifs <;> omega

theorem copyOut_dataOnly (pdg : Dgblk) (len : Word) (dataOnly : ¬ pdg.has dgNmode = true) :
    (∀ reading, copyOut pdg pip len = .ok reading → ReadLaw arrived len reading) ↔
      len = 0 ∨ (uHlen ≤ udpLen pip ∧ min (udpLen pip - uHlen) len.toNat ≤ room pip) := by
  have short := udpLen_short pip
  have bound := len.isLt
  have datalen := datalen_toNat pip
  have zero : len = 0 ↔ len.toNat = 0 := by
    constructor
    · intro empty
      rw [empty]
      rfl
    · intro empty
      exact BitVec.eq_of_toNat_eq empty
  rw [copyOut, if_neg dataOnly]
  generalize BitVec.ofNat 32 (udpLen pip) - BitVec.ofNat 32 uHlen = all at datalen ⊢
  simp only [Except.ok.injEq, forall_eq']
  rw [readLaw_iff data len _ rfl, zero]
  dsimp only
  have count : (if len.ult all then len else all).toNat = min all.toNat len.toNat := by
    rw [BitVec.ult]
    split_ifs with less
    · have smaller := of_decide_eq_true less
      omega
    · have larger : ¬ len.toNat < all.toNat := by simpa using less
      omega
  rw [count, datalen, List.length_nil]
  unfold uHlen
  split_ifs <;> omega

theorem dgread_iff (pdg : Dgblk) (scene : Scene) (len : Word) :
    (∀ reading, dgread pdg scene pip len = .ok reading → ReadLaw arrived len reading) ↔
      ReadFits pdg scene pip len := by
  have copying : (∀ reading, copyOut pdg pip len = .ok reading → ReadLaw arrived len reading) ↔
      if pdg.has dgNmode then
        len.toNat < udpLen pip ∨ (uHlen ≤ udpLen pip ∧ udpLen pip - uHlen ≤ room pip)
      else len = 0 ∨ (uHlen ≤ udpLen pip ∧ min (udpLen pip - uHlen) len.toNat ≤ room pip) := by
    by_cases normal : pdg.has dgNmode = true
    · rw [if_pos normal]
      exact copyOut_normal data pdg len normal
    · rw [if_neg normal]
      exact copyOut_dataOnly data pdg len normal
  rw [ReadFits, ← copying, dgread, Copies]
  by_cases timed : pdg.has dgTmode = true
  · by_cases alone : Datagrams.isbadpid scene.upPid
    · by_cases late : scene.queued ≤ 0 ∧ scene.timedOut = true
      · simp [timed, alone, late]
      · have served : 0 < scene.queued ∨ scene.timedOut = false := by
          by_contra missed
          push Not at missed
          exact late ⟨missed.1, by simpa using missed.2⟩
        simp [timed, alone, late, served]
    · simp [timed, alone]
  · simp [timed]

end Reads

/-! ## `dgwrite` -/

/-- A datagram is as long as its headers and its data. -/
theorem udpsend_length {ipackid : BitVec 16} {pep pip : Pip} {call : UdpCall}
    (sent : udpsend ipackid pep call = some pip) :
    pip.octets.length = 20 + uHlen + call.data.length := by
  have octets : ∀ cksum, (call.octets cksum).length = uHlen + call.data.length := by
    intro cksum
    simp [UdpCall.octets, octets16, uHlen]
    omega
  have whole : ∀ frame : Pip, frame.octets.length = 20 + frame.data.length := by
    intro frame
    simp [Pip.octets, octets16, octets32]
    omega
  have content : pip.data.length = uHlen + call.data.length := by
    rcases Outbound.udpsend_cases sent with ⟨_, isPip⟩ | ⟨_, _, _, isPip⟩
    · rw [isPip]
      exact octets 0
    · rw [isPip]
      exact octets _
  rw [whole, content]
  omega

section Writes

variable (network : Network) (pdg : Dgblk)

/-- The checksum needs a route, and the buffer has room for what the headers leave. -/
theorem send_iff (pep : Pip) (ipa : Word) (dst : BitVec 16) (octets : List Octet) :
    (∀ sent, network.send pdg pep ipa dst octets = some sent → WriteLaw sent) ↔
      (pdg.has dgCmode = true ∧ network.rtget ipa = none) ∨
        octets.length ≤ epDlen - 20 - uHlen := by
  have law : ∀ sent, network.send pdg pep ipa dst octets = some sent →
      (WriteLaw sent ↔ octets.length ≤ epDlen - 20 - uHlen) := by
    intro sent sends
    rw [WriteLaw, udpsend_length sends]
    unfold maxnetbuf epDlen uHlen
    dsimp only
    omega
  by_cases stopped : pdg.has dgCmode = true ∧ network.rtget ipa = none
  · have none : network.send pdg pep ipa dst octets = none := by
      rw [Network.send, udpsend]
      dsimp only
      rw [if_pos stopped.1, stopped.2]
    rw [none]
    simp [stopped]
  · obtain ⟨sent, sends⟩ : ∃ sent, network.send pdg pep ipa dst octets = some sent := by
      rw [Network.send, udpsend]
      dsimp only
      by_cases docksum : pdg.has dgCmode = true
      · rw [if_pos docksum]
        cases route : network.rtget ipa with
        | none => exact absurd ⟨docksum, route⟩ stopped
        | some iface => exact ⟨_, rfl⟩
      · rw [if_neg docksum]
        exact ⟨_, rfl⟩
    rw [sends]
    simp only [Option.some.injEq, forall_eq', stopped, false_or]
    exact law sent sends

theorem dgwrite_iff (user : Storage) (pxg : Int) (len : Word) :
    (∀ sent, dgwrite network pdg user pxg len = some sent → WriteLaw sent) ↔
      WriteFits network pdg user pxg len := by
  rw [WriteFits, dgwrite]
  by_cases long : uMaxlen < len.toNat
  · simp [long]
  · rw [if_neg long]
    simp only [long, false_or]
    cases netpool : network.netpool with
    | none => simp
    | some pep =>
        have sends := send_iff network pdg pep
        simp only [reduceCtorEq, false_or]
        rw [destination]
        by_cases normal : pdg.has dgNmode = true
        · by_cases named : pdg.dgFport = 0
          · simp only [normal, named, if_true, decide_true, ne_eq, not_true_eq_false, if_false]
            rw [sends, fetch_length]
            simp
          · simp only [normal, named, if_true, decide_false, ne_eq, not_false_eq_true,
              Bool.false_eq_true, if_false]
            rw [sends, fetch_length]
            simp
        · by_cases named : pdg.dgFport = 0
          · simp [normal, named]
          · simp only [normal, named, ne_eq, not_false_eq_true, Bool.false_eq_true, if_true,
              if_false]
            rw [sends, fetch_length]
            simp

end Writes

/-- For every datagram that is accepted, reads copy only what was received, and for every write
the datagram fits its buffer, exactly if the lengths are as they should be. -/
theorem udp_lengths_iff (raw pip : Packet) (upqs : Nat → Upq) (pcount : Int → Nat) (xport : Int)
    (accepted : udpIn upqs pcount (ipdstopts raw) = (ok, some (xport, pip))) :
    (∀ (pdg : Dgblk) (scene : Scene) (len : Word),
        (∀ reading, dgread pdg scene pip len = .ok reading →
            ReadLaw (ipdstopts raw) len reading) ↔ ReadFits pdg scene pip len) ∧
      ∀ (network : Network) (pdg : Dgblk) (user : Storage) (pxg : Int) (len : Word),
        (∀ sent, dgwrite network pdg user pxg len = some sent → WriteLaw sent) ↔
          WriteFits network pdg user pxg len := by
  constructor
  · intro pdg scene len
    have same : SameLengths (ipdstopts raw) pip := by
      rcases udpIn_queued accepted with rfl | rfl
      · exact sameLengths_self _
      · exact padded_lengths _
    exact dgread_iff (same.arrived_data (ipdstopts_hlen raw)) pdg scene len
  · intro network pdg user pxg len
    exact dgwrite_iff network pdg user pxg len

/-- Four octets of data from port 9 to port 2050, without a checksum and without options. -/
def fourOctets : Packet :=
  memcpy (fun _ => 0) 0
    [0x45, 0, 0, 32, 0, 0, 0, 0, 255, 17, 0, 0, 10, 0, 0, 1, 10, 0, 0, 2,
      0, 9, 8, 2, 0, 12, 0, 0, 1, 2, 3, 4]

/-- The same with a `u_len` of 7. -/
def shortLength : Packet := putHalfword fourOctets 24 7

def oneReader : Nat → Upq := fun index => ⟨index == 0, if index = 0 then 2050 else 0, -1, 5⟩

def normalMode : Dgblk := ⟨2050, 0x0a000001, 9, 0o11⟩

def idle : Scene := ⟨-1, 0, false⟩

def ready : Network where
  netpool := some ⟨0, 0, 0, 0, 0, 0, 0, 0, 0, 0, []⟩
  rtget := fun _ => some .niLocal
  ttl := fun _ => 255
  ipackid := 1

theorem plain_accepted (pip : Packet) (plain : ipHlen pip = 20) (unchecked : halfword pip 26 = 0)
    (dst : halfword pip 22 = 2050) :
    udpIn oneReader (fun _ => 0) (ipdstopts pip) = (ok, some (5, pip)) := by
  have entry : upqFor oneReader 2050 = some (oneReader 0) := by decide
  rw [ipdstopts, if_pos plain, udpIn, unchecked]
  simp only [ne_eq, not_true_eq_false, if_false]
  rw [dst, entry]
  rfl

theorem four_octets_read_and_written :
    (∀ reading, dgread normalMode idle fourOctets 64 = .ok reading →
        ReadLaw (ipdstopts fourOctets) 64 reading) ∧
      ∀ sent, dgwrite ready normalMode (fun _ => 0) 0 1472 = some sent → WriteLaw sent := by
  obtain ⟨reads, writes⟩ := udp_lengths_iff fourOctets fourOctets oneReader (fun _ => 0) 5
    (plain_accepted fourOctets (by decide) (by decide) (by decide))
  constructor
  · rw [reads]
    intro _
    exact Or.inr ⟨by decide, by decide⟩
  · rw [writes]
    exact Or.inr (Or.inr (Or.inr (by decide)))

/-- A datagram whose `u_len` is shorter than its header is queued, and a caller with room for 64
octets gets almost 2^32 of them; a write of 1473 octets leaves the buffer. -/
theorem short_length_overruns :
    udpIn oneReader (fun _ => 0) (ipdstopts shortLength) = (ok, some (5, shortLength)) ∧
      (¬ ∀ reading, dgread normalMode idle shortLength 64 = .ok reading →
        ReadLaw (ipdstopts shortLength) 64 reading) ∧
      ¬ ∀ sent, dgwrite ready normalMode (fun _ => 0) 0 1473 = some sent → WriteLaw sent := by
  have plain : ipHlen shortLength = 20 := by decide
  have same : SameLengths (ipdstopts shortLength) shortLength := by
    rw [ipdstopts, if_pos plain]
    exact sameLengths_self _
  refine ⟨plain_accepted shortLength plain (by decide) (by decide), ?_, ?_⟩
  · rw [dgread_iff (same.arrived_data (ipdstopts_hlen shortLength))]
    intro fits
    have length : udpLen shortLength = 7 := by decide
    have reads := fits fun timed => absurd timed (by decide)
    rw [if_pos (by decide), length] at reads
    rcases reads with small | ⟨header, _⟩
    · exact absurd small (by decide)
    · exact absurd header (by decide)
  · rw [dgwrite_iff]
    rintro (long | none | noRoute | short)
    · exact absurd long (by decide)
    · cases none
    · have route := (noRoute 0x0a000001 rfl).2
      cases route
    · exact absurd short (by decide)

end MvsXinu.UdpLengths
