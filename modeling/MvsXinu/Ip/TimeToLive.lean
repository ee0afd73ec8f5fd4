import MvsXinu.Ip.InputProcess

/-!
# The time to live of what is forwarded (`ipproc.c`, `ipputp.c`)

`ip_ttl` is an unsigned octet that is counted down before it is tested. Whatever `ipputp` makes
of a datagram, in one packet or in fragments, has the octet that the datagram has; a header
copy that does not come to an end is followed as far as its fuel goes, so that the packets
given here include those that leave.
-/

namespace MvsXinu.IpProc

open MvsXinu.Octets MvsXinu.Ip MvsXinu.Routing

set_option autoImplicit false

/-- The packets that go out on the way that the verdict names. -/
def transmitted (host : Host) (buffers : Nat → Packet) : Verdict → List Packet
  | .ipputp ifn _ pip =>
      if (host.nif ifn).niDown then [] else ipputp (host.nif ifn).niMtu buffers pip
  | _ => []

/-- A frame for another host, which came in from the network. -/
structure Forwarded (host : Host) (ifnum : Nat) (pip : Packet) (prt : Route) : Prop where
  foreign : ifnum ≠ niLocal
  checked : headerCheck ifnum pip = none
  found : rtget host.netifs host.table (dstAddr pip) false = some prt
  nonlocal : prt.rtIfnum ≠ niLocal

structure TtlLaw (host : Host) (buffers : Nat → Packet) (ifnum : Nat) (pip : Packet) : Prop where
  lowered : ∀ sent ∈ transmitted host buffers (ipproc host ifnum pip),
    (sent 8).toNat + 1 = (pip 8).toNat ∧ 1 ≤ (sent 8).toNat
  expired : (pip 8).toNat ≤ 1 → ipproc host ifnum pip = .timeExceeded

/-! ## The octet in the packets of `ipputp` -/

/-- The option loop writes where it stands and further on. -/
theorem optionLoop_before (pepfrom : Packet → Packet) (maxhlen : Int) (fuel : Nat)
    (pepto : Packet) (hlen i place : Int) (before : place < hlen) :
    (optionLoop pepfrom maxhlen fuel pepto hlen i).1 place = pepto place ∧
      hlen ≤ (optionLoop pepfrom maxhlen fuel pepto hlen i).2 := by
  induction fuel generalizing pepto hlen i with
  | zero =>
      constructor
      · rfl
      · exact le_refl hlen
  | succ fuel ih =>
      rw [optionLoop]
      dsimp only
      split_ifs with inside copies ends steps
      · obtain ⟨kept, further⟩ := ih (memcpy pepto hlen (fetch (pepfrom pepto) i
          (pepfrom pepto (i + 1)).toNat)) (hlen + (pepfrom pepto (i + 1)).toNat)
          (i + (pepfrom pepto (i + 1)).toNat) (by omega)
        constructor
        · rw [kept, memcpy_outside pepto hlen place _ (Or.inl before)]
        · omega
      · constructor
        · exact memcpy_outside pepto hlen place _ (Or.inl before)
        · dsimp only
          omega
      · obtain ⟨kept, further⟩ := ih (memcpy pepto hlen [pepfrom pepto i]) (hlen + 1) (i + 1)
          (by omega)
        constructor
        · rw [kept, memcpy_outside pepto hlen place _ (Or.inl before)]
        · omega
      · exact ih pepto hlen _ before
      · constructor
        · rfl
        · exact le_refl hlen

/-- The fixed part of a later fragment's header. -/
theorem ipfhcopy_fixed (pepto pepfrom : Packet) (shared : Bool) (offindg : Int)
    (later : offindg ≠ 0) (place : Int) (low : 0 ≤ place) (high : place < 20) :
    (ipfhcopy pepto pepfrom shared offindg).1 place = pepfrom place ∧
      20 ≤ (ipfhcopy pepto pepfrom shared offindg).2 := by
  rw [ipfhcopy, if_neg later]
  dsimp only
  obtain ⟨kept, further⟩ := optionLoop_before (if shared then id else fun _ => pepfrom)
    (ipHlen pepfrom) optionFuel (memcpy pepto 0 (fetch pepfrom 0 20)) 20 20 place (by omega)
  constructor
  · rw [memcpy_outside _ _ place _ (Or.inl (by omega)), kept,
      memcpy_fetch pepto pepfrom 0 place 20 low (by omega)]
  · omega

/-- None of the fields that a fragment gets of its own. -/
theorem putFields_ttl (pip : Packet) (fragoff : Nat) (len : Int) :
    putFields pip fragoff len 8 = pip 8 := by
  rw [putFields, putHalfword_outside _ 10 8 _ (by omega), putHalfword_outside _ 2 8 _ (by omega),
    putHalfword_outside _ 6 8 _ (by omega)]

theorem ipfsend_ttl (buffer pep : Packet) (offset maxdlen offindg : Int) (room : 8 < maxdlen)
    (first : offindg = 0 → offset = 0) :
    ipfsend buffer pep offset maxdlen offindg 8 = pep 8 := by
  rw [ipfsend]
  by_cases start : offindg = 0
  · have nonneg := ipHlen_nonneg pep
    rw [ipfhcopy, if_pos start, first start]
    dsimp only
    -- a header that is too short for the octet leaves it to the data behind
    by_cases header : 8 < ipHlen pep
    · rw [memcpy_unmoved _ _ _ _ 8 _ (Or.inl header), putHalfword_outside _ 10 8 _ (by omega),
        putFields_ttl, memcpy_fetch buffer pep 0 8 _ (by omega) (by omega)]
    · rw [memcpy_moved _ pep _ _ 8 _ (by omega) (by omega)]
      congr 1
      omega
  · obtain ⟨kept, further⟩ := ipfhcopy_fixed buffer pep false offindg start 8 (by omega) (by omega)
    rw [memcpy_unmoved _ _ _ _ 8 _ (Or.inl (by omega)), putHalfword_outside _ 10 8 _ (by omega),
      putFields_ttl, kept]

theorem lastFragment_ttl (pep : Packet) (offset tosend offindg : Int) (later : offindg ≠ 0) :
    lastFragment pep offset tosend offindg 8 = pep 8 := by
  obtain ⟨kept, further⟩ := ipfhcopy_fixed pep pep true offindg later 8 (by omega) (by omega)
  rw [lastFragment]
  rw [putHalfword_outside _ 10 8 _ (by omega), putFields_ttl,
    memcpy_unmoved _ _ _ _ 8 _ (Or.inl (by omega)), kept]

/-- The loop is entered with data for more than one fragment, and a later turn is not at the
beginning of the datagram. -/
theorem fragmentLoop_ttl (buffers : Nat → Packet) (pep : Packet) (maxdlen : Int)
    (room : 8 < maxdlen) (fuel : Nat) (tosend offset offindg : Int) (placed : 0 ≤ offset)
    (behind : offset ≤ offindg) (more : 0 < offset ∨ maxdlen < tosend) :
    ∀ sent ∈ fragmentLoop buffers pep maxdlen fuel tosend offset offindg, sent 8 = pep 8 := by
  induction fuel generalizing tosend offset offindg with
  | zero =>
      intro sent member
      cases member
  | succ fuel ih =>
      intro sent member
      rw [fragmentLoop] at member
      split_ifs at member with full
      · rcases List.mem_cons.mp member with rfl | member
        · exact ipfsend_ttl _ pep offset maxdlen offindg room (by omega)
        · exact ih (tosend - maxdlen) (offset + maxdlen) (offindg + maxdlen) (by omega) (by omega)
            (by omega) sent member
      · rw [List.mem_singleton] at member
        rw [member]
        exact lastFragment_ttl pep offset tosend offindg (by omega)

theorem ipputp_ttl (niMtu : Nat) (wide : smallMtu ≤ niMtu) (buffers : Nat → Packet)
    (pep : Packet) : ∀ sent ∈ ipputp niMtu buffers pep, sent 8 = pep 8 := by
  intro sent member
  have header := ipHlen_toNat_le pep
  have nonneg := ipHlen_nonneg pep
  have placed := packoff_nonneg pep
  unfold smallMtu at wide
  rw [ipputp] at member
  split_ifs at member with fits whole
  · rw [List.mem_singleton] at member
    rw [member, putHalfword_outside _ 10 8 _ (by omega), putHalfword_outside _ 10 8 _ (by omega)]
  · cases member
  · exact fragmentLoop_ttl buffers pep _ (by omega) _ _ 0 _ (by omega) placed
      (by omega) sent member

/-! ## The count -/

theorem ipproc_forwarded {host : Host} {ifnum : Nat} {pip : Packet} {prt : Route}
    (forwarded : Forwarded host ifnum pip prt) :
    ipproc host ifnum pip =
      if pip 8 - 1 = 0 then .timeExceeded else handOn host ifnum prt (memcpy pip 8 [pip 8 - 1]) := by
  have foreign := forwarded.foreign
  have found := forwarded.found
  have nonlocal := forwarded.nonlocal
  have islocal : decide (ifnum = niLocal) = false := by simp [foreign]
  rw [← islocal] at found
  rw [ipproc, forwarded.checked]
  dsimp only
  rw [found]
  dsimp only
  rw [routed, if_neg foreign]
  simp only [nonlocal, ne_eq, not_false_eq_true, and_true]

theorem transmitted_handOn (host : Host) (buffers : Nat → Packet) (ifnum : Nat) (prt : Route)
    (pip : Packet) : ∀ sent ∈ transmitted host buffers (handOn host ifnum prt pip),
      sent 8 = pip 8 := by
  intro sent member
  rw [handOn] at member
  split_ifs at member with stops
  · cases member
  · rw [transmitted] at member
    split_ifs at member with down
    · cases member
    · exact ipputp_ttl _ (host.nif prt.rtIfnum).wide buffers pip sent member
  · rw [transmitted] at member
    split_ifs at member with down
    · cases member
    · exact ipputp_ttl _ (host.nif prt.rtIfnum).wide buffers pip sent member

/-- A time to live of 0 counts as 256; every other one is counted down or expires. -/
theorem time_to_live_iff (host : Host) (buffers : Nat → Packet) (ifnum : Nat) (pip : Packet)
    (prt : Route) (forwarded : Forwarded host ifnum pip prt) :
    TtlLaw host buffers ifnum pip ↔ pip 8 ≠ 0 := by
  have result := ipproc_forwarded forwarded
  constructor
  · intro law zero
    have expired := law.expired (by simp [zero])
    rw [result, zero, if_neg (by decide), handOn] at expired
    split_ifs at expired
  · intro nonzero
    have positive : 0 < (pip 8).toNat := by
      apply Nat.pos_of_ne_zero
      intro zero
      exact nonzero (BitVec.eq_of_toNat_eq zero)
    have octet := (pip 8).isLt
    have lowered : (pip 8 - 1).toNat = (pip 8).toNat - 1 := by
      rw [BitVec.toNat_sub]
      have one : (1 : Octet).toNat = 1 := rfl
      rw [one]
      omega
    have last : pip 8 - 1 = 0 ↔ (pip 8).toNat = 1 := by
      rw [← BitVec.toNat_inj, lowered]
      have zero : (0 : Octet).toNat = 0 := rfl
      omega
    constructor
    · intro sent member
      rw [result] at member
      split_ifs at member with expires
      · cases member
      · have kept := transmitted_handOn host buffers ifnum prt _ sent member
        have written : memcpy pip 8 [pip 8 - 1] 8 = pip 8 - 1 := by
          have inside := memcpy_inside pip 8 [pip 8 - 1] 0 (by simp)
          simpa using inside
        have unexpired := last.not.mp expires
        rw [kept, written, lowered]
        omega
    · intro small
      rw [result, if_pos (last.mpr (by omega))]

def farIface : Iface where
  addresses := ⟨0, 0, 0, 0⟩
  niIp := 0
  niDown := false
  niMtu := 1500
  wide := by decide

/-- The default route goes out on interface 2. -/
def farHost : Host where
  gateway := false
  count := 0
  nif := fun _ => farIface
  table := ⟨fun _ => [], some ⟨0, 0, 0x0a010001, 1, 2, 0, 100⟩⟩

theorem sample_frame_forwarded :
    Forwarded farHost 1 sampleFrame ⟨0, 0, 0x0a010001, 1, 2, 0, 100⟩ where
  foreign := by decide
  checked := by
    rw [headerCheck_none_iff 1 sampleFrame (by decide)]
    decide
  found := by decide
  nonlocal := by decide

theorem sample_frame_lowered : TtlLaw farHost (fun _ _ => 0) 1 sampleFrame :=
  (time_to_live_iff farHost _ 1 sampleFrame _ sample_frame_forwarded).mpr (by decide)

/-- `sampleFrame` with a time to live of 0. -/
def spentFrame : Packet :=
  memcpy (fun _ => 0) 0 [0x45, 0, 0, 20, 0, 1, 0, 0, 0, 17, 0xa6, 0xd6, 10, 0, 0, 1, 10, 0, 0, 2]

theorem spent_frame_forwarded : ¬ TtlLaw farHost (fun _ _ => 0) 1 spentFrame := by
  intro law
  have expired := law.expired (by decide)
  have checked : headerCheck 1 spentFrame = none := by
    rw [headerCheck_none_iff 1 spentFrame (by decide)]
    decide
  rw [ipproc, checked] at expired
  have found : rtget farHost.netifs farHost.table (dstAddr spentFrame) (decide (1 = niLocal)) =
      some ⟨0, 0, 0x0a010001, 1, 2, 0, 100⟩ := by decide
  dsimp only at expired
  rw [found] at expired
  dsimp only [routed] at expired
  rw [if_neg (by decide), if_neg (by decide), handOn] at expired
  split_ifs at expired

end MvsXinu.IpProc
