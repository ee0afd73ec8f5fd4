import MvsXinu.Ip.Reassembly

/-!
# The copies of a reassembly

The scan of `ipfjoin` keeps the end of the fragment it saw last, and so does the loop of
`ipfcons`. A fragment that ends before the one in front of it passes the scan and makes
the copy length negative; and the limit of the scan leaves out both headers.
-/

namespace MvsXinu.Ip

open MvsXinu.Octets

set_option autoImplicit false

/-- The queue that `ipfadd` builds from fragments, in the order of their arrival. -/
inductive Gathered : List Packet → Ipfq → Prop where
  | start (pep : Packet) (iq : Ipfq) : Gathered [pep] (startQueue pep iq)
  | add {frags : List Packet} {iq after : Ipfq} (pep : Packet) (before : Gathered frags iq)
      (added : ipfadd iq pep = (true, after)) : Gathered (frags ++ [pep]) after

/-- `ipfjoin` calls `ipfcons`. -/
def Constructs (iq : Ipfq) : Prop :=
  iq.ipfState ≠ IpfState.bogus ∧ joinVerdict (Gpq.elements iq.ipfQ) = Verdict.construct

/-- A copy reads octets of its fragment and writes into the large buffer. -/
structure Copy.Safe (copy : Copy) : Prop where
  length : 0 ≤ copy.dlen
  low : 0 ≤ copy.doff
  high : copy.doff + copy.dlen ≤ ipLen copy.fragment
  room : epHlen + copy.off + copy.dlen ≤ maxLrgbuf

def CopiesSafe (iq : Ipfq) : Prop :=
  ∀ copy ∈ consCopies (Gpq.elements iq.ipfQ), copy.Safe

/-- In the order of the queue no fragment ends before an earlier one. -/
def EndsRise (iq : Ipfq) : Prop :=
  (Gpq.elements iq.ipfQ).Pairwise fun first second => packend first ≤ packend second

/-- Both headers and the data up to the end of the last fragment fit. -/
def HeadersFit (iq : Ipfq) : Prop :=
  ∀ first ∈ (Gpq.elements iq.ipfQ).head?, ∀ last ∈ (Gpq.elements iq.ipfQ).getLast?,
    epHlen + ipHlen first + packend last ≤ maxLrgbuf

/-! ## One copy after the other -/

theorem ipfadd_true (iq after : Ipfq) (pep : Packet) (added : ipfadd iq pep = (true, after)) :
    iq.ipfState = IpfState.valid ∧ ∃ left queue,
      Gpq.enq iq.ipfQ pep (-(fragOffset pep : Int)) = some (left, queue) ∧
        after = { iq with ipfQ := queue, ipfTtl := ipFttl } := by
  unfold ipfadd at added
  split_ifs at added with invalid
  · cases added
  · have valid : iq.ipfState = IpfState.valid := by simpa using invalid
    split at added
    · cases added
    · rename_i left queue accepted
      cases added
      exact ⟨valid, left, queue, accepted, rfl⟩

theorem startQueue_elements (pep : Packet) (iq : Ipfq) :
    Gpq.elements (startQueue pep iq).ipfQ = [pep] := rfl

theorem Gathered.mem_elements {frags : List Packet} {iq : Ipfq} (gathered : Gathered frags iq)
    (pep : Packet) : pep ∈ Gpq.elements iq.ipfQ ↔ pep ∈ frags := by
  induction gathered with
  | start first iq => rw [startQueue_elements]
  | @add frags iq after new before added ih =>
      obtain ⟨_, left, queue, accepted, rfl⟩ := ipfadd_true iq after new added
      rw [Gpq.enq_elements iq.ipfQ queue new _ left accepted, ih, List.mem_append,
        List.mem_singleton, Or.comm]

theorem copies_safe_iff (off seq : Int) (frags : List Packet)
    (gapless : Spans.Gapless packoff packend seq frags) :
    (∀ copy ∈ copies off seq frags, copy.Safe) ↔
      List.IsChain (fun first second : Int => first ≤ second) (seq :: frags.map packend) ∧
        ∀ pep ∈ frags, epHlen + (off - seq) + packend pep ≤ maxLrgbuf := by
  induction frags generalizing off seq with
  | nil => simp [copies]
  | cons peptmp rest ih =>
      obtain ⟨start, gaplessRest⟩ := gapless
      have shift : off + (packend peptmp - seq) - packend peptmp = off - seq := by omega
      have step := ih (off + (packend peptmp - seq)) (packend peptmp) gaplessRest
      rw [shift] at step
      rw [copies_cons, List.map_cons, List.isChain_cons_cons, List.forall_mem_cons,
        List.forall_mem_cons, step]
      have header := ipHlen_nonneg peptmp
      have source : ipHlen peptmp + seq - packoff peptmp + (packend peptmp - seq) =
          ipLen peptmp := by
        unfold packend
        omega
      constructor
      · rintro ⟨safe, chain, room⟩
        have length := safe.length
        have here := safe.room
        simp only at length here
        exact ⟨⟨by omega, chain⟩, by omega, room⟩
      · rintro ⟨⟨rises, chain⟩, here, room⟩
        refine ⟨⟨?_, ?_, ?_, ?_⟩, chain, room⟩
        · change 0 ≤ packend peptmp - seq
          omega
        · change 0 ≤ ipHlen peptmp + seq - packoff peptmp
          omega
        · exact source.le
        · change epHlen + off + (packend peptmp - seq) ≤ maxLrgbuf
          omega

theorem packend_nonneg (pep : Packet) (valid : ipHlen pep ≤ ipLen pep) : 0 ≤ packend pep :=
  (packoff_nonneg pep).trans (packoff_le_packend pep valid)

theorem joinVerdict_construct (frags : List Packet) :
    joinVerdict frags = Verdict.construct ↔
      Spans.Gapless packoff packend 0 frags ∧ Spans.finish packend 0 frags ≤ maxLrgbuf ∧
        ∀ last ∈ frags.getLast?, moreFragments last = false := by
  unfold joinVerdict
  cases outcome : scan 0 none frags with
  | none =>
      constructor
      · intro impossible
        cases impossible
      · rintro ⟨gapless, _⟩
        have found := (scan_eq 0 none frags _ _).mpr ⟨gapless, rfl, rfl⟩
        rw [outcome] at found
        cases found
  | some found =>
      obtain ⟨off, pip⟩ := found
      obtain ⟨gapless, reached, last⟩ := (scan_eq 0 none frags off pip).mp outcome
      rw [Option.or_none] at last
      simp only [gapless, true_and, ← reached, last]
      cases frags.getLast? with
      | none =>
          by_cases big : maxLrgbuf < off
          · simp [big]
          · simp [big, not_lt.mp big]
      | some final =>
          by_cases big : maxLrgbuf < off
          · simp [big]
          · cases more : moreFragments final <;> simp [big, not_lt.mp big, more]

/-! ## Fragments at fixed places -/

def rawPacket (octets : List Octet) : Packet := memcpy (fun _ => 0) 0 octets

/-- A fragment of one fixed datagram, with a header of 20 octets. -/
def piece (offset : Nat) (more : Bool) (count : Nat) : Packet :=
  rawPacket ([0x45, 0, BitVec.ofNat 8 ((20 + count) / 256), BitVec.ofNat 8 (20 + count), 0, 7,
    BitVec.ofNat 8 ((offset + if more then 8192 else 0) / 256), BitVec.ofNat 8 offset, 64, 17, 0, 0,
    10, 0, 0, 1, 10, 0, 0, 2] ++ List.replicate count 0xaa)

def emptyEntry : Ipfq where
  ipfState := IpfState.free
  ipfSrc := []
  ipfId := 0
  ipfTtl := 0
  ipfQ := Gpq.newq ipFqsize

def gather (first : Packet) (others : List Packet) : Ipfq :=
  others.foldl (fun iq pep => (ipfadd iq pep).2) (startQueue first emptyEntry)

theorem gathered_three (first second third : Packet)
    (addedSecond : (ipfadd (gather first []) second).1 = true)
    (addedThird : (ipfadd (gather first [second]) third).1 = true) :
    Gathered [first, second, third] (gather first [second, third]) := by
  have started : Gathered [first] (gather first []) := Gathered.start first emptyEntry
  have two : Gathered [first, second] (gather first [second]) :=
    Gathered.add second started (Prod.ext addedSecond rfl)
  exact Gathered.add third two (Prod.ext addedThird rfl)

/-! ## The whole reassembly -/

end MvsXinu.Ip
