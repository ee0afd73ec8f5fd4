import MvsXinu.Ip.Packet
import MvsXinu.Kernel.Gpq

/-!
# Reassembly (`ipreass.c`, `ipfadd.c`, `ipfjoin.c`, `ipfcons.c`, `ipftimer.c`)

Fragments wait in the queues of `ipfqt`, in the order of their offsets. Every call runs
under `ipfmutex`. The queues and the large buffer are taken to be available, as `newq` and
`getbuf` fail only when the system is out of storage or has no pools.
-/

namespace MvsXinu.Ip

open MvsXinu.Octets

set_option autoImplicit false

def epHlen : Int := 24
def maxLrgbuf : Int := 2048
def ipFqsize : Nat := 10
def ipFttl : Int := 60

inductive IpfState where
  | valid
  | bogus
  | free
deriving DecidableEq

structure Ipfq where
  ipfState : IpfState
  ipfSrc : List Octet
  ipfId : Nat
  ipfTtl : Int
  ipfQ : Gpq.Queue Packet

/-- What a call leads to: no packet, a packet, or a copy of negative length, which runs
over the storage behind the buffer. -/
inductive Outcome where
  | nothing
  | packet (pep : Packet)
  | overrun

def release (iq : Ipfq) (state : IpfState) : Ipfq :=
  { iq with ipfState := state, ipfQ := { iq.ipfQ with items := [] } }

def ipfadd (iq : Ipfq) (pep : Packet) : Bool × Ipfq :=
  if iq.ipfState ≠ IpfState.valid then (false, iq)
  else
    match Gpq.enq iq.ipfQ pep (-(fragOffset pep : Int)) with
    | none => (false, release iq IpfState.bogus)
    | some (_, queue) => (true, { iq with ipfQ := queue, ipfTtl := ipFttl })

/-! ## The datagram from its fragments -/

/-- One `memcpy` of the loop in `ipfcons`. -/
structure Copy where
  fragment : Packet
  off : Int
  doff : Int
  dlen : Int

def copies (off seq : Int) : List Packet → List Copy
  | [] => []
  | peptmp :: rest =>
      let doff := ipHlen peptmp + seq - packoff peptmp
      let dlen := ipLen peptmp - doff
      ⟨peptmp, off, doff, dlen⟩ :: copies (off + dlen) (seq + dlen) rest

def perform (pep : Packet) (copy : Copy) : Packet :=
  memcpy pep copy.off (fetch copy.fragment copy.doff copy.dlen.toNat)

def consCopies : List Packet → List Copy
  | [] => []
  | first :: rest => copies (ipHlen first) 0 (first :: rest)

/-- `buffer` is what the new large buffer held before. -/
def ipfcons (buffer : Packet) : List Packet → Option Packet
  | [] => none
  | first :: rest =>
      let hlen := ipHlen first
      let calls := consCopies (first :: rest)
      if calls.all fun copy => decide (0 ≤ copy.dlen) then
        let pep := calls.foldl perform (memcpy buffer 0 (fetch first 0 hlen.toNat))
        let off := hlen + (calls.map Copy.dlen).sum
        some (putHalfword (putHalfword pep 2 off.toNat) 6 0)
      else none

/-- The scan of `ipfjoin`: `none` at a hole, else the offset reached and the last
fragment. -/
def scan (off : Int) (pip : Option Packet) : List Packet → Option (Int × Option Packet)
  | [] => some (off, pip)
  | pep :: rest => if off < packoff pep then none else scan (packend pep) (some pep) rest

inductive Verdict where
  | wait
  | tooBig
  | construct
deriving DecidableEq

def joinVerdict (frags : List Packet) : Verdict :=
  match scan 0 none frags with
  | none => Verdict.wait
  | some (off, pip) =>
      if maxLrgbuf < off then Verdict.tooBig
      else if pip.elim true fun last => !moreFragments last then Verdict.construct
      else Verdict.wait

def ipfjoin (buffer : Packet) (iq : Ipfq) : Outcome × Ipfq :=
  if iq.ipfState = IpfState.bogus then (Outcome.nothing, iq)
  else
    match joinVerdict (Gpq.elements iq.ipfQ) with
    | Verdict.wait => (Outcome.nothing, iq)
    | Verdict.tooBig => (Outcome.nothing, release iq IpfState.free)
    | Verdict.construct =>
        match ipfcons buffer (Gpq.elements iq.ipfQ) with
        | none => (Outcome.overrun, release iq IpfState.free)
        | some pep => (Outcome.packet pep, release iq IpfState.free)

/-! ## The table of queues -/

def keyed (pep : Packet) (iq : Ipfq) : Bool :=
  decide (iq.ipfState ≠ IpfState.free) && decide (iq.ipfId = ipId pep) &&
    decide (iq.ipfSrc = ipSrc pep)

def addAndJoin (buffer pep : Packet) (iq : Ipfq) : Outcome × Ipfq :=
  let added := ipfadd iq pep
  if added.1 then ipfjoin buffer added.2 else (Outcome.nothing, added.2)

def startQueue (pep : Packet) (iq : Ipfq) : Ipfq :=
  (ipfadd { iq with
    ipfQ := Gpq.newq ipFqsize
    ipfSrc := ipSrc pep
    ipfId := ipId pep
    ipfTtl := ipFttl
    ipfState := IpfState.valid } pep).2

/-- The first entry with the key of the packet takes it. -/
def joinMatch (buffer pep : Packet) : List Ipfq → Option (Outcome × List Ipfq)
  | [] => none
  | iq :: rest =>
      if keyed pep iq then
        let joined := addAndJoin buffer pep iq
        some (joined.1, joined.2 :: rest)
      else (joinMatch buffer pep rest).map fun joined => (joined.1, iq :: joined.2)

/-- The first free entry starts a queue with the packet. -/
def takeFree (pep : Packet) : List Ipfq → List Ipfq
  | [] => []
  | iq :: rest =>
      if iq.ipfState = IpfState.free then startQueue pep iq :: rest else iq :: takeFree pep rest

def ipreass (ipfqt : List Ipfq) (buffer pep : Packet) : Outcome × List Ipfq :=
  if isFragment pep then
    (joinMatch buffer pep ipfqt).getD (Outcome.nothing, takeFree pep ipfqt)
  else (Outcome.packet pep, ipfqt)

def expire (gran : Int) (iq : Ipfq) : Ipfq :=
  if iq.ipfState = IpfState.free then iq
  else if iq.ipfTtl - gran ≤ 0 then
    { release iq IpfState.free with ipfTtl := iq.ipfTtl - gran }
  else { iq with ipfTtl := iq.ipfTtl - gran }

def ipftimer (ipfqt : List Ipfq) (gran : Int) : List Ipfq := ipfqt.map (expire gran)

def ipfinit : List Ipfq :=
  List.replicate ipFqsize
    { ipfState := IpfState.free, ipfSrc := [], ipfId := 0, ipfTtl := 0, ipfQ := Gpq.newq ipFqsize }

/-! ## The copies and the scan -/

/-- The number of octets copied so far is where the last fragment copied ends. -/
theorem copies_cons (off seq : Int) (peptmp : Packet) (rest : List Packet) :
    copies off seq (peptmp :: rest) =
      ⟨peptmp, off, ipHlen peptmp + seq - packoff peptmp, packend peptmp - seq⟩ ::
        copies (off + (packend peptmp - seq)) (packend peptmp) rest := by
  have length : ipLen peptmp - (ipHlen peptmp + seq - packoff peptmp) = packend peptmp - seq := by
    unfold packend
    omega
  have next : seq + (packend peptmp - seq) = packend peptmp := by omega
  simp only [copies, length, next]

theorem copies_sum (off seq : Int) (frags : List Packet) :
    ((copies off seq frags).map Copy.dlen).sum = Spans.finish packend seq frags - seq := by
  induction frags generalizing off seq with
  | nil => simp [copies, Spans.finish]
  | cons peptmp rest ih =>
      rw [copies_cons, List.map_cons, List.sum_cons, ih]
      change packend peptmp - seq + (Spans.finish packend (packend peptmp) rest - packend peptmp) =
        Spans.finish packend (packend peptmp) rest - seq
      omega

theorem scan_eq (off : Int) (pip : Option Packet) (frags : List Packet) (reached : Int)
    (last : Option Packet) :
    scan off pip frags = some (reached, last) ↔
      Spans.Gapless packoff packend off frags ∧ reached = Spans.finish packend off frags ∧
        last = (frags.getLast?).or pip := by
  induction frags generalizing off pip with
  | nil =>
      simp only [scan, Option.some.injEq, Prod.mk.injEq, Spans.Gapless, Spans.finish,
        List.foldl_nil, List.getLast?_nil, Option.none_or, true_and]
      constructor
      · rintro ⟨same, lastSame⟩
        exact ⟨same.symm, lastSame.symm⟩
      · rintro ⟨same, lastSame⟩
        exact ⟨same.symm, lastSame.symm⟩
  | cons pep rest ih =>
      have lasts : ((pep :: rest).getLast?).or pip = (rest.getLast?).or (some pep) := by
        cases rest with
        | nil => rfl
        | cons next others =>
            rw [List.getLast?_cons_cons]
            cases shape : (next :: others).getLast? with
            | none => simp at shape
            | some _ => rfl
      rw [lasts]
      by_cases hole : off < packoff pep
      · rw [scan, if_pos hole]
        constructor
        · intro impossible
          cases impossible
        · rintro ⟨gapless, _⟩
          have start := gapless.1
          omega
      · rw [scan, if_neg hole, ih]
        have start : packoff pep ≤ off := by omega
        simp only [Spans.Gapless, start, true_and]
        rfl

end MvsXinu.Ip
