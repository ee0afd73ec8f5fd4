import MvsXinu.Lib.Checksum
import MvsXinu.Lib.EndAround
import MvsXinu.Ip.FragmentSlices

/-!
# The checksum functions (`ipcksum.c`, `comer_cksum.c`, `tcpcksum.c`, `udpcksum.c`)

The four functions add halfwords up in an accumulator of 32 bits, which is signed in
`stevens_cksum` and unsigned elsewhere. The values that are assigned to it are kept beside it,
as they are before the accumulator cuts them to its width. A result is its 16 bits, whether the
source returns them as a `short` or as an `unsigned short`; `hs2net` is the identity on this
machine.
-/

namespace MvsXinu.Cksums

open MvsXinu.Octets MvsXinu.Ip

set_option autoImplicit false

def signed32 (value : Int) : Int := Int.bmod value (2 ^ 32)
def unsigned32 (value : Int) : Int := value % 2 ^ 32

structure Accumulator where
  value : Int
  assigned : List Int

def Accumulator.zero : Accumulator := ⟨0, []⟩

def Accumulator.assign (wrap : Int → Int) (sum : Accumulator) (expression : Int) :
    Accumulator where
  value := wrap expression
  assigned := expression :: sum.assigned

/-- The two foldings in front of the complement. -/
def Accumulator.addCarries (wrap : Int → Int) (sum : Accumulator) : Accumulator :=
  let once := sum.assign wrap (sum.value / 65536 + sum.value % 65536)
  once.assign wrap (once.value + once.value / 65536)

def Accumulator.complement (sum : Accumulator) : BitVec 16 := ~~~(BitVec.ofInt 16 sum.value)

/-- The loop over `nleft` octets; an odd one is the high octet of the last halfword. -/
def stevensLoop (storage : Storage) : Nat → Int → Accumulator → Accumulator
  | nleft + 2, w, sum =>
      stevensLoop storage nleft (w + 2) (sum.assign signed32 (sum.value + halfword storage w))
  | 1, w, sum => sum.assign signed32 (sum.value + ((storage w).toNat * 256 : Nat))
  | 0, _, sum => sum

def stevensSum (storage : Storage) (addr : Int) (len : Nat) : Accumulator :=
  (stevensLoop storage len addr .zero).addCarries signed32

def stevensCksum (storage : Storage) (addr : Int) (len : Nat) : BitVec 16 :=
  (stevensSum storage addr len).complement

/-- `sum += *sptr++`, `count` times. -/
def addShorts (storage : Storage) : Nat → Int → Accumulator → Accumulator
  | 0, _, sum => sum
  | count + 1, sptr, sum =>
      addShorts storage count (sptr + 2)
        (sum.assign unsigned32 (sum.value + halfword storage sptr))

def comerSum (storage : Storage) (buf : Int) (nwords : Nat) : Accumulator :=
  (addShorts storage nwords buf .zero).addCarries unsigned32

def comerCksum (storage : Storage) (buf : Int) (nwords : Nat) : BitVec 16 :=
  (comerSum storage buf nwords).complement

def ipAlen : Nat := 4
def iptTcp : Nat := 6
def iptUdp : Nat := 17

/-- The octet behind a transport part of odd length is set to zero. -/
def padded (pep : Packet) (len : Nat) : Packet :=
  if len % 2 = 1 then memcpy pep (20 + len) [0] else pep

/-- `tcpcksum` and `udpcksum` differ in the protocol and in the type of `len`. -/
def transportSum (ipt : Nat) (pep : Packet) (len : Nat) : Accumulator :=
  let addresses := addShorts pep ipAlen 12 .zero
  let header := addresses.assign unsigned32 (addresses.value + (ipt + len : Nat))
  let even := if len % 2 = 1 then len + 1 else len
  (addShorts (padded pep len) (even / 2) 20 header).addCarries unsigned32

/-- With the packet as the call leaves it. -/
def tcpcksum (pep : Packet) (len : Nat) : Packet × BitVec 16 :=
  (padded pep len, (transportSum iptTcp pep len).complement)

def udpcksum (pep : Packet) (len : Nat) : Packet × BitVec 16 :=
  (padded pep len, (transportSum iptUdp pep len).complement)

/-! ## The reference -/

/-- Big-endian halfwords, with a zero behind an odd octet. -/
def words : List Octet → List Nat
  | [] => []
  | [last] => [last.toNat * 256]
  | high :: low :: rest => (high.toNat * 256 + low.toNat) :: words rest

def internetChecksum (octets : List Octet) : Nat :=
  65535 - EndAround.total 65536 (words octets)

/-- The addresses, a zero octet, the protocol and the length of the transport part. -/
def pseudoHeader (pep : Packet) (ipt len : Nat) : List Octet :=
  fetch pep 12 8 ++ [0, BitVec.ofNat 8 ipt, BitVec.ofNat 8 (len / 256), BitVec.ofNat 8 len]

theorem words_sum (octets : List Octet) : (words octets).sum = Checksum.sum16 octets := by
  induction octets using words.induct with
  | case1 => rfl
  | case2 last => simp [words, Checksum.sum16]
  | case3 high low rest ih => simp [words, Checksum.sum16, ih]

theorem words_small (octets : List Octet) : ∀ word ∈ words octets, word < 65536 := by
  induction octets using words.induct with
  | case1 => simp [words]
  | case2 last =>
      have octet := last.isLt
      simp only [words, List.mem_singleton, forall_eq]
      omega
  | case3 high low rest ih =>
      have highOctet := high.isLt
      have lowOctet := low.isLt
      simp only [words, List.mem_cons, forall_eq_or_imp]
      constructor
      · omega
      · exact ih

theorem internetChecksum_eq (octets : List Octet) :
    internetChecksum octets = 65535 - EndAround.reduce 65536 (words octets).sum := by
  rw [internetChecksum, EndAround.total_eq_reduce (by omega) _ (words_small octets)]

theorem words_append (front back : List Octet) (even : front.length % 2 = 0) :
    (words (front ++ back)).sum = (words front).sum + (words back).sum := by
  simp only [words_sum, Checksum.sum16_append front back even]

theorem words_sum_le (octets : List Octet) :
    (words octets).sum ≤ 65535 * ((octets.length + 1) / 2) := by
  rw [words_sum]
  exact Checksum.sum16_le octets

/-! ## What the accumulators hold -/

/-- The accumulator holds the number, and nothing that was assigned to it was cut. -/
structure Holding (limit : Int) (number : Nat) (sum : Accumulator) : Prop where
  value : sum.value = number
  fits : ∀ assigned ∈ sum.assigned, 0 ≤ assigned ∧ assigned < limit

/-- The type of an accumulator keeps every number below the limit. -/
structure Width (wrap : Int → Int) (limit : Int) : Prop where
  carries : 2 ^ 17 ≤ limit
  keeps : ∀ number : Int, 0 ≤ number → number < limit → wrap number = number

theorem signed32_width : Width signed32 (2 ^ 31) where
  carries := by decide
  keeps := by
    intro number low high
    rw [signed32, Int.bmod_def]
    split_ifs <;> omega

theorem unsigned32_width : Width unsigned32 (2 ^ 32) where
  carries := by decide
  keeps := by
    intro number low high
    exact Int.emod_eq_of_lt low high

theorem zero_holding (limit : Int) : Holding limit 0 .zero where
  value := rfl
  fits := by simp [Accumulator.zero]

theorem assign_holding {wrap : Int → Int} {limit : Int} (width : Width wrap limit) {number : Nat}
    {sum : Accumulator} (holding : Holding limit number sum) {expression : Int} {next : Nat}
    (same : expression = next) (bound : (next : Int) < limit) :
    Holding limit next (sum.assign wrap expression) where
  value := by
    rw [Accumulator.assign, same]
    exact width.keeps next (by omega) bound
  fits := by
    intro assigned member
    rcases List.mem_cons.mp member with rfl | before
    · omega
    · exact holding.fits assigned before

theorem stevensLoop_holding (storage : Storage) (nleft : Nat) (w : Int) (number : Nat)
    (sum : Accumulator) (holding : Holding (2 ^ 31) number sum)
    (bound : number + 65535 * ((nleft + 1) / 2) < 2 ^ 31) :
    Holding (2 ^ 31) (number + (words (fetch storage w nleft)).sum)
      (stevensLoop storage nleft w sum) := by
  induction nleft using Nat.twoStepInduction generalizing w number sum with
  | zero => simpa [stevensLoop, fetch, words] using holding
  | one =>
      have octet := (storage w).isLt
      have single : (words (fetch storage w 1)).sum = (storage w).toNat * 256 := by
        simp [fetch, words]
      rw [stevensLoop, single]
      apply assign_holding signed32_width holding
      · rw [holding.value]
        omega
      · omega
  | more nleft ih _ =>
      have short := halfword_lt storage w
      have next : Holding (2 ^ 31) (number + halfword storage w)
          (sum.assign signed32 (sum.value + halfword storage w)) := by
        apply assign_holding signed32_width holding
        · rw [holding.value]
          omega
        · omega
      have step : (words (fetch storage w (nleft + 2))).sum =
          halfword storage w + (words (fetch storage (w + 2) nleft)).sum := by
        rw [fetch_cons, fetch_cons, words, List.sum_cons, halfword, Int.add_assoc]
        norm_num
      rw [stevensLoop, step, ← Nat.add_assoc]
      exact ih (w + 2) _ _ next (by omega)

/-- `count` halfwords at an even distance from each other are the words of their octets. -/
theorem addShorts_holding (storage : Storage) (count : Nat) (sptr : Int) (number : Nat)
    (sum : Accumulator) (holding : Holding (2 ^ 32) number sum)
    (bound : number + 65535 * count < 2 ^ 32) :
    Holding (2 ^ 32) (number + (words (fetch storage sptr (2 * count))).sum)
      (addShorts storage count sptr sum) := by
  induction count generalizing sptr number sum with
  | zero => simpa [addShorts, fetch, words] using holding
  | succ count ih =>
      have short := halfword_lt storage sptr
      have next : Holding (2 ^ 32) (number + halfword storage sptr)
          (sum.assign unsigned32 (sum.value + halfword storage sptr)) := by
        apply assign_holding unsigned32_width holding
        · rw [holding.value]
          omega
        · omega
      have step : (words (fetch storage sptr (2 * (count + 1)))).sum =
          halfword storage sptr + (words (fetch storage (sptr + 2) (2 * count))).sum := by
        rw [Nat.mul_succ, fetch_cons, fetch_cons, words, List.sum_cons, halfword, Int.add_assoc]
        norm_num
      rw [addShorts, step, ← Nat.add_assoc]
      exact ih (sptr + 2) _ _ next (by omega)

/-- Two foldings are enough: the second one may leave a carry, which the 16 bits do not hold. -/
theorem addCarries_spec {wrap : Int → Int} {limit : Int} (width : Width wrap limit) {number : Nat}
    (bound : number < 2 ^ 32) {sum : Accumulator} (holding : Holding limit number sum) :
    Holding limit (EndAround.fold 65536 number + EndAround.fold 65536 number / 65536)
        (sum.addCarries wrap) ∧
      ((sum.addCarries wrap).complement).toNat = 65535 - EndAround.reduce 65536 number := by
  obtain ⟨small, reduced⟩ := EndAround.fold_twice (by omega : 2 ≤ 65536) (by omega : number < 65536 * 65536)
  have wide := width.carries
  have once : Holding limit (EndAround.fold 65536 number)
      (sum.assign wrap (sum.value / 65536 + sum.value % 65536)) := by
    apply assign_holding width holding
    · rw [holding.value, EndAround.fold]
      omega
    · omega
  have twice : Holding limit (EndAround.fold 65536 number + EndAround.fold 65536 number / 65536)
      (sum.addCarries wrap) := by
    apply assign_holding width once
    · rw [once.value]
      omega
    · omega
  constructor
  · exact twice
  · rw [Accumulator.complement, twice.value, BitVec.toNat_not, BitVec.toNat_ofInt, ← reduced]
    omega

theorem stevensSum_spec (storage : Storage) (addr : Int) (len : Nat) (short : len ≤ 65535) :
    (∀ assigned ∈ (stevensSum storage addr len).assigned, 0 ≤ assigned ∧ assigned < 2 ^ 31) ∧
      (stevensCksum storage addr len).toNat = internetChecksum (fetch storage addr len) := by
  have bound := words_sum_le (fetch storage addr len)
  rw [fetch_length] at bound
  have holding := stevensLoop_holding storage len addr 0 .zero (zero_holding _) (by omega)
  rw [Nat.zero_add] at holding
  obtain ⟨folded, result⟩ := addCarries_spec signed32_width (by omega) holding
  constructor
  · exact folded.fits
  · rw [internetChecksum_eq]
    exact result

theorem comerSum_spec (storage : Storage) (buf : Int) (nwords : Nat) (short : nwords ≤ 65535) :
    (∀ assigned ∈ (comerSum storage buf nwords).assigned, 0 ≤ assigned ∧ assigned < 2 ^ 32) ∧
      (comerCksum storage buf nwords).toNat =
        internetChecksum (fetch storage buf (2 * nwords)) := by
  have bound := words_sum_le (fetch storage buf (2 * nwords))
  rw [fetch_length] at bound
  have holding := addShorts_holding storage nwords buf 0 .zero (zero_holding _) (by omega)
  rw [Nat.zero_add] at holding
  obtain ⟨folded, result⟩ := addCarries_spec unsigned32_width (by omega) holding
  constructor
  · exact folded.fits
  · rw [internetChecksum_eq]
    exact result

/-! ## The pseudo-header -/

theorem pseudoHeader_sum (pep : Packet) (ipt len : Nat) (protocol : ipt < 256)
    (short : len ≤ 65535) :
    (words (pseudoHeader pep ipt len)).sum = (words (fetch pep 12 8)).sum + (ipt + len) := by
  rw [pseudoHeader, words_append _ _ (by simp)]
  have zero : (0 : Octet).toNat = 0 := rfl
  simp only [words, List.sum_cons, List.sum_nil, BitVec.toNat_ofNat, zero]
  omega

theorem padded_outside (pep : Packet) (len : Nat) (place : Int) (apart : place ≠ 20 + len) :
    padded pep len place = pep place := by
  unfold padded
  split_ifs
  · apply memcpy_outside
    rw [List.length_singleton]
    omega
  · rfl

theorem words_append_zero (octets : List Octet) :
    (words (octets ++ [0])).sum = (words octets).sum := by
  induction octets using words.induct with
  | case1 => simp [words]
  | case2 last => simp [words]
  | case3 high low rest ih => simpa [words] using ih

theorem fetch_behind (storage : Storage) (place : Int) (count : Nat) :
    fetch storage place (count + 1) = fetch storage place count ++ [storage (place + count)] := by
  simp [fetch, List.range_succ]

/-- The zero behind the transport part makes whole halfwords of it. -/
theorem words_padded (pep : Packet) (len : Nat) :
    (words (fetch (padded pep len) 20 (2 * ((len + 1) / 2)))).sum = (words (fetch pep 20 len)).sum := by
  have kept : fetch (padded pep len) 20 len = fetch pep 20 len := by
    apply fetch_congr
    intro position inside
    exact padded_outside pep len _ (by omega)
  by_cases odd : len % 2 = 1
  · have zero : padded pep len (20 + len) = 0 := by
      rw [padded, if_pos odd]
      have behind := memcpy_inside pep (20 + len) [0] 0 (by simp)
      simpa using behind
    have length : 2 * ((len + 1) / 2) = len + 1 := by omega
    rw [length, fetch_behind, zero, kept, words_append_zero]
  · have length : 2 * ((len + 1) / 2) = len := by omega
    rw [length, kept]

theorem transportSum_spec (ipt : Nat) (pep : Packet) (len : Nat) (protocol : ipt < 256)
    (short : len ≤ 65535) :
    (∀ assigned ∈ (transportSum ipt pep len).assigned, 0 ≤ assigned ∧ assigned < 2 ^ 32) ∧
      ((transportSum ipt pep len).complement).toNat =
        internetChecksum (pseudoHeader pep ipt len ++ fetch pep 20 len) := by
  have even : (if len % 2 = 1 then len + 1 else len) / 2 = (len + 1) / 2 := by
    split_ifs <;> omega
  have addressBound := words_sum_le (fetch pep 12 8)
  have dataBound := words_sum_le (fetch pep 20 len)
  rw [fetch_length] at addressBound dataBound
  have addresses := addShorts_holding pep ipAlen 12 0 .zero (zero_holding _) (by decide)
  rw [Nat.zero_add, show 2 * ipAlen = 8 from rfl] at addresses
  have header : Holding (2 ^ 32) ((words (fetch pep 12 8)).sum + (ipt + len))
      ((addShorts pep ipAlen 12 .zero).assign unsigned32
        ((addShorts pep ipAlen 12 .zero).value + (ipt + len : Nat))) := by
    apply assign_holding unsigned32_width addresses
    · rw [addresses.value]
      omega
    · omega
  have holding := addShorts_holding (padded pep len) ((len + 1) / 2) 20 _ _ header (by omega)
  rw [words_padded] at holding
  obtain ⟨folded, result⟩ := addCarries_spec unsigned32_width (by omega) holding
  rw [internetChecksum_eq, words_append _ _ (by simp [pseudoHeader]),
    pseudoHeader_sum pep ipt len protocol short, transportSum, even]
  constructor
  · exact folded.fits
  · exact result

/-! ## A completed packet -/

/-- A field that lies on the halfwords of a sum counts with its value. -/
theorem words_putHalfword (storage : Storage) (place field : Int) (len value : Nat)
    (even : (field - place) % 2 = 0) (low : place ≤ field) (high : field + 2 ≤ place + len)
    (zeroed : halfword storage field = 0) (small : value < 65536) :
    (words (fetch (putHalfword storage field value) place len)).sum =
      (words (fetch storage place len)).sum + value := by
  have split : ∀ (octets : Storage) (start : Int) (count : Nat),
      (words (fetch octets start (count + 2))).sum =
        halfword octets start + (words (fetch octets (start + 2) count)).sum := by
    intro octets start count
    rw [fetch_cons, fetch_cons, words, List.sum_cons, halfword, Int.add_assoc]
    norm_num
  induction len using Nat.twoStepInduction generalizing place with
  | zero => omega
  | one => omega
  | more len ih _ =>
      rw [split, split]
      by_cases here : place = field
      · subst here
        have behind : fetch (putHalfword storage place value) (place + 2) len =
            fetch storage (place + 2) len := by
          apply fetch_congr
          intro position _
          exact putHalfword_outside storage place _ value (by omega)
        rw [halfword_putHalfword storage place value small, behind, zeroed]
        omega
      · rw [halfword_put_apart storage field place value (by omega),
          ih (place + 2) (by omega) (by omega) (by omega)]
        omega

/-- A sum that its own complement was added to verifies. -/
theorem internetChecksum_completed {octets completed : List Octet}
    (counted : (words completed).sum = (words octets).sum + internetChecksum octets) :
    internetChecksum completed = 0 := by
  rw [internetChecksum_eq octets] at counted
  have ones := EndAround.reduce_complement (by omega : 2 ≤ 65536) (words octets).sum
  rw [← counted] at ones
  rw [internetChecksum_eq, ones]

/-- A function over the halfwords from `first` to `last`, with its accumulator; the packet is
returned as the function leaves it. -/
structure Correct (limit : Int) (sum : Packet → Accumulator) (check : Packet → Packet × BitVec 16)
    (covered : Packet → List Octet) (first last : Int) : Prop where
  value : ∀ pep, ((check pep).2).toNat = internetChecksum (covered pep)
  fits : ∀ pep, ∀ assigned ∈ (sum pep).assigned, 0 ≤ assigned ∧ assigned < limit
  verifies : ∀ pep field, (field - first) % 2 = 0 → first ≤ field → field + 2 ≤ last →
    halfword pep field = 0 → (check (putHalfword (check pep).1 field ((check pep).2).toNat)).2 = 0

theorem Correct.of_spec {limit : Int} {sum : Packet → Accumulator}
    {check : Packet → Packet × BitVec 16} {covered : Packet → List Octet} {first last : Int}
    (spec : ∀ pep, (∀ assigned ∈ (sum pep).assigned, 0 ≤ assigned ∧ assigned < limit) ∧
      ((check pep).2).toNat = internetChecksum (covered pep))
    (counts : ∀ pep field, ∀ value < 65536, (field - first) % 2 = 0 → first ≤ field →
      field + 2 ≤ last → halfword pep field = 0 →
      (words (covered (putHalfword (check pep).1 field value))).sum =
        (words (covered pep)).sum + value) :
    Correct limit sum check covered first last where
  value := fun pep => (spec pep).2
  fits := fun pep => (spec pep).1
  verifies := by
    intro pep field even low high zeroed
    have result := (spec pep).2
    have small := ((check pep).2).isLt
    have counted := counts pep field _ small even low high zeroed
    apply BitVec.eq_of_toNat_eq
    rw [(spec _).2]
    exact internetChecksum_completed (counted.trans (congrArg _ result))

theorem transport_correct (ipt len : Nat) (protocol : ipt < 256) (short : len ≤ 65535) :
    Correct (2 ^ 32) (fun pep => transportSum ipt pep len)
      (fun pep => (padded pep len, (transportSum ipt pep len).complement))
      (fun pep => pseudoHeader pep ipt len ++ fetch pep 20 len) 20 (20 + len) := by
  apply Correct.of_spec
  · intro pep
    exact transportSum_spec ipt pep len protocol short
  · intro pep field value small even low high zeroed
    have apart : ∀ place, place ≠ 20 + (len : Int) → place < field ∨ field + 2 ≤ place →
        putHalfword (padded pep len) field value place = pep place := by
      intro place inside outside
      rw [putHalfword_outside _ field place value outside, padded_outside pep len place inside]
    have front : fetch (putHalfword (padded pep len) field value) 12 8 = fetch pep 12 8 := by
      apply fetch_congr
      intro position near
      exact apart _ (by omega) (by omega)
    have unpadded : fetch (padded pep len) 20 len = fetch pep 20 len := by
      apply fetch_congr
      intro position near
      exact padded_outside pep len _ (by omega)
    have field_zero : halfword (padded pep len) field = 0 := by
      rw [← zeroed]
      apply halfword_congr
      · exact padded_outside pep len field (by omega)
      · exact padded_outside pep len (field + 1) (by omega)
    have data := words_putHalfword (padded pep len) 20 field len value even low high field_zero small
    rw [words_append _ _ (by simp [pseudoHeader]), words_append _ _ (by simp [pseudoHeader]), data,
      unpadded, pseudoHeader, pseudoHeader, front]
    omega

/-- Every length that a packet can have, and every content: the functions return the reference,
no accumulator is cut, and a packet that takes its checksum into a field that was zero verifies. -/
theorem cksums_correct (len : Nat) (short : len ≤ 65535) :
    (∀ addr, Correct (2 ^ 31) (fun pep => stevensSum pep addr len)
      (fun pep => (pep, stevensCksum pep addr len)) (fun pep => fetch pep addr len)
      addr (addr + len)) ∧
    (∀ buf, len % 2 = 0 → Correct (2 ^ 32) (fun pep => comerSum pep buf (len / 2))
      (fun pep => (pep, comerCksum pep buf (len / 2))) (fun pep => fetch pep buf len)
      buf (buf + len)) ∧
    Correct (2 ^ 32) (fun pep => transportSum iptTcp pep len) (fun pep => tcpcksum pep len)
      (fun pep => pseudoHeader pep iptTcp len ++ fetch pep 20 len) 20 (20 + len) ∧
    Correct (2 ^ 32) (fun pep => transportSum iptUdp pep len) (fun pep => udpcksum pep len)
      (fun pep => pseudoHeader pep iptUdp len ++ fetch pep 20 len) 20 (20 + len) := by
  refine ⟨?_, ?_, ?_, ?_⟩
  · intro addr
    apply Correct.of_spec
    · intro pep
      exact stevensSum_spec pep addr len short
    · intro pep field value small even low high zeroed
      exact words_putHalfword pep addr field len value even low high zeroed small
  · intro buf even
    have length : 2 * (len / 2) = len := by omega
    apply Correct.of_spec
    · intro pep
      have spec := comerSum_spec pep buf (len / 2) (by omega)
      rw [length] at spec
      exact spec
    · intro pep field value small halfwords low high zeroed
      exact words_putHalfword pep buf field len value halfwords low high zeroed small
  · exact transport_correct iptTcp len (by decide) short
  · exact transport_correct iptUdp len (by decide) short

/-- The odd octet of a packet of ones, which comes to the other zero. -/
theorem ones_packet_verifies :
    (tcpcksum (fun _ => 255) 19).2 ≠ 0 ∧
      Correct (2 ^ 32) (fun pep => transportSum iptTcp pep 19) (fun pep => tcpcksum pep 19)
        (fun pep => pseudoHeader pep iptTcp 19 ++ fetch pep 20 19) 20 39 := by
  constructor
  · decide
  · exact (cksums_correct 19 (by decide)).2.2.1

/-! ## The sums of the other modules -/

theorem cksum_internet (sum : Nat) (octets : List Octet) (same : sum = (words octets).sum)
    (bound : sum < 2 ^ 32) : Checksum.cksum sum = internetChecksum octets := by
  obtain ⟨_, reduced⟩ := EndAround.fold_twice (by omega : 2 ≤ 65536) (by omega : sum < 65536 * 65536)
  rw [internetChecksum_eq, ← same, ← reduced, Checksum.cksum, Nat.mod_eq_of_lt bound]
  rfl

theorem words_halfwords (storage : Storage) (count : Nat) :
    ((List.range count).map fun word : Nat => halfword storage (2 * (word : Int))).sum =
      (words (fetch storage 0 (2 * count))).sum := by
  induction count with
  | zero => rfl
  | succ count ih =>
      have last : words [storage (2 * (count : Int)), storage (2 * (count : Int) + 1)] =
          [halfword storage (2 * (count : Int))] := rfl
      rw [List.range_succ, List.map_append, List.sum_append, ih, Nat.mul_succ, fetch_behind,
        fetch_behind, List.append_assoc, words_append _ _ (by simp)]
      simp only [List.map_cons, List.map_nil, List.cons_append, List.nil_append, zero_add,
        Nat.cast_mul, Nat.cast_ofNat, Nat.cast_add, Nat.cast_one, last]

/-- The closed form that the fragments are made with. -/
theorem stevensCksum_internet (storage : Packet) (len : Nat) (short : len ≤ 65535) :
    Ip.stevensCksum storage len = internetChecksum (fetch storage 0 len) := by
  have bound := words_sum_le (fetch storage 0 len)
  rw [fetch_length] at bound
  have same : (words (fetch storage 0 len)).sum =
      ((List.range (len / 2)).map fun word : Nat => halfword storage (2 * (word : Int))).sum +
        if len % 2 = 1 then 256 * (storage ((len : Int) - 1)).toNat else 0 := by
    rw [words_halfwords]
    split_ifs with odd
    · obtain ⟨half, rfl⟩ : ∃ half, len = 2 * half + 1 := ⟨len / 2, by omega⟩
      have halves : 2 * ((2 * half + 1) / 2) = 2 * half := by omega
      rw [halves, fetch_behind, words_append _ _ (by simp)]
      simp [words, Nat.mul_comm]
    · have halves : 2 * (len / 2) = len := by omega
      rw [halves, Nat.add_zero]
  obtain ⟨_, reduced⟩ := EndAround.fold_twice (by omega : 2 ≤ 65536)
    (by omega : (words (fetch storage 0 len)).sum < 65536 * 65536)
  rw [internetChecksum_eq, ← reduced, same]
  rfl

theorem stevensCksum_fragment (storage : Packet) (len : Nat) (short : len ≤ 65535) :
    Ip.stevensCksum storage len = (stevensCksum storage 0 len).toNat := by
  rw [stevensCksum_internet storage len short, (stevensSum_spec storage 0 len short).2]

end MvsXinu.Cksums
