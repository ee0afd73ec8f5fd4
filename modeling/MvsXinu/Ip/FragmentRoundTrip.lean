import Mathlib.Data.List.Pairwise
import MvsXinu.Ip.FragmentSlices
import MvsXinu.Ip.ReassemblyComplete

/-!
# From fragments back to the datagram

The reassembler takes the length of every header from `ip_verlen`. It is right about a
later fragment as long as the options that were left out of it are made up for by its
padding; then the fragments cut the data without gap or overlap, in whatever order and
however often they arrive.
-/

namespace MvsXinu.Ip

open MvsXinu.Octets

set_option autoImplicit false

structure Restored (pep result : Packet) : Prop where
  payload : payload result = payload pep
  identity : identity result = identity pep

/-- Packets that are taken in without giving one back. -/
def Waits (buffer : Packet) : List Ipfq → List Packet → Prop
  | _, [] => True
  | ipfqt, frag :: rest =>
      (ipreass ipfqt buffer frag).1 = Outcome.nothing ∧
        Waits buffer (ipreass ipfqt buffer frag).2 rest

def tableAfter (buffer : Packet) (ipfqt : List Ipfq) (frags : List Packet) : List Ipfq :=
  frags.foldl (fun table frag => (ipreass table buffer frag).2) ipfqt

/-- Nothing comes back before `final`, and with it the datagram. -/
def RoundTrip (ipfqt : List Ipfq) (buffer pep : Packet) (early : List Packet) (final : Packet) :
    Prop :=
  Waits buffer ipfqt early ∧
    ∃ result, (ipreass (tableAfter buffer ipfqt early) buffer final).1 = Outcome.packet result ∧
      Restored pep result

/-! ## Cuts -/

/-- Fragments that divide the places from `start` to `limit`. -/
structure Cut (frags : List Packet) (start limit : Int) : Prop where
  within : ∀ frag ∈ frags, start ≤ packoff frag ∧ packoff frag < packend frag ∧
    packend frag ≤ limit
  apart : frags.Pairwise fun first second => packend first ≤ packoff second
  closing : ∀ frag ∈ frags, moreFragments frag = false ↔ packend frag = limit
  covers : ∀ place, start ≤ place → place < limit →
    ∃ frag ∈ frags, Spans.Occupies packoff packend frag place

theorem Slice.hlen_eq {pep frag : Packet} {hlen start count : Int} {more : Bool}
    (slice : Slice pep hlen start count more frag) : ipHlen frag = ipHlen pep := by
  unfold ipHlen ipVerlen
  rw [slice.kept 0 (Or.inl rfl)]

theorem Slice.packend_eq {pep frag : Packet} {hlen start count : Int} {more : Bool}
    (slice : Slice pep hlen start count more frag) :
    packend frag = start + count + hlen - ipHlen pep := by
  unfold packend
  rw [slice.offset, slice.length, slice.hlen_eq]
  omega

theorem identity_of_kept {pep other : Packet}
    (kept : ∀ place, Kept place → other place = pep place) : identity other = identity pep := by
  have addresses : ∀ base : Int, 12 ≤ base → base ≤ 16 → fetch other base 4 = fetch pep base 4 := by
    intro base low high
    apply fetch_congr
    intro position bound
    exact kept _ (Or.inr (Or.inr (Or.inr (Or.inr ⟨by omega, by omega⟩))))
  have id : halfword other 4 = halfword pep 4 :=
    halfword_congr other pep 4 (kept 4 (by unfold Kept; omega)) (kept 5 (by unfold Kept; omega))
  simp only [identity, ipSrc, ipDst, ipProto, ipId, Identity.mk.injEq]
  exact ⟨addresses 12 (by omega) (by omega), addresses 16 (by omega) (by omega),
    kept 9 (by unfold Kept; omega), id⟩

theorem Sliced.cut {pep : Packet} {opts : Options} {maxdlen start : Int} {frags : List Packet}
    (sliced : Sliced pep opts maxdlen start frags) (positive : 0 < maxdlen)
    (same : laterHlen opts = ipHlen pep) : Cut frags start (ipLen pep - ipHlen pep) := by
  have hlen : ∀ offindg, fragHlen pep opts offindg = ipHlen pep := by
    intro offindg
    unfold fragHlen
    split_ifs
    · rfl
    · exact same
  have place : ∀ offindg frag, SliceAt pep opts maxdlen offindg frag →
      packoff frag = offindg ∧
        packend frag = offindg + min maxdlen (ipLen pep - ipHlen pep - offindg) ∧
          (moreFragments frag = false ↔ ipLen pep - ipHlen pep - offindg ≤ maxdlen) := by
    intro offindg frag slice
    have ends := slice.packend_eq
    rw [hlen offindg] at ends
    refine ⟨slice.offset, by omega, ?_⟩
    rw [slice.closing, decide_eq_false_iff_not, not_lt]
  induction sliced with
  | last start frag slice left fits =>
      obtain ⟨offset, ends, closing⟩ := place start frag slice
      rw [min_eq_right fits] at ends
      refine ⟨?_, List.pairwise_singleton _ _, ?_, ?_⟩
      · intro other member
        rw [List.mem_singleton.mp member]
        omega
      · intro other member
        rw [List.mem_singleton.mp member, closing]
        omega
      · intro spot low high
        exact ⟨frag, List.mem_singleton_self frag, by omega, by omega⟩
  | more start frag rest slice left others ih =>
      obtain ⟨offset, ends, closing⟩ := place start frag slice
      rw [min_eq_left left.le] at ends
      refine ⟨?_, List.pairwise_cons.mpr ⟨?_, ih.apart⟩, ?_, ?_⟩
      · intro other member
        rcases List.mem_cons.mp member with first | later
        · rw [first]
          omega
        · have bounds := ih.within other later
          omega
      · intro other later
        have bounds := ih.within other later
        omega
      · intro other member
        rcases List.mem_cons.mp member with first | later
        · rw [first, closing]
          omega
        · exact ih.closing other later
      · intro spot low high
        by_cases first : spot < start + maxdlen
        · exact ⟨frag, List.mem_cons_self, by omega, by omega⟩
        · obtain ⟨other, later, occupies⟩ := ih.covers spot (by omega) high
          exact ⟨other, List.mem_cons_of_mem frag later, occupies⟩

theorem Cut.apart_of_le {frags : List Packet} {start limit : Int} (cut : Cut frags start limit)
    (first second : Packet) (firstMember : first ∈ frags) (secondMember : second ∈ frags)
    (order : packoff first ≤ packoff second) : first = second ∨ packend first ≤ packoff second := by
  by_cases same : first = second
  · exact Or.inl same
  · right
    have symmetric : Std.Symm fun first second : Packet =>
        packend first ≤ packoff second ∨ packend second ≤ packoff first :=
      ⟨fun _ _ => Or.symm⟩
    have either := (cut.apart.imp fun before => Or.inl before :
      frags.Pairwise fun first second : Packet =>
        packend first ≤ packoff second ∨ packend second ≤ packoff first)
    rcases either.forall firstMember secondMember same with before | behind
    · exact before
    · have bounds := cut.within second secondMember
      omega

theorem Cut.complete_iff {frags : List Packet} {limit : Int} (cut : Cut frags 0 limit)
    (positive : 0 < limit) (done : List Packet) (members : ∀ frag ∈ done, frag ∈ frags) :
    Complete done ↔ ∀ frag ∈ frags, frag ∈ done := by
  constructor
  · rintro ⟨last, lastMember, closed, covers⟩ frag member
    have bounds := cut.within frag member
    rw [(cut.closing last (members last lastMember)).mp closed] at covers
    obtain ⟨other, found, low, high⟩ := covers (packoff frag) (by omega) (by omega)
    rcases cut.apart_of_le other frag (members other found) member low with same | before
    · rw [← same]
      exact found
    · omega
  · intro all
    obtain ⟨last, lastMember, low, high⟩ := cut.covers (limit - 1) (by omega) (by omega)
    have bounds := cut.within last lastMember
    have ends : packend last = limit := by omega
    refine ⟨last, all last lastMember, (cut.closing last lastMember).mpr ends, ?_⟩
    rw [ends]
    intro place low high
    obtain ⟨frag, member, occupies⟩ := cut.covers place low high
    exact ⟨frag, all frag member, occupies⟩

theorem Cut.inOrder {frags : List Packet} {limit : Int} (cut : Cut frags 0 limit)
    (small : limit ≤ maxLrgbuf) (queued : List Packet) (members : ∀ frag ∈ queued, frag ∈ frags)
    (sorted : queued.Pairwise fun first second => packoff first ≤ packoff second) :
    InOrder queued := by
  have cases : ∀ {first second : Packet}, first ∈ queued → second ∈ queued →
      packoff first ≤ packoff second → first = second ∨ packend first ≤ packoff second :=
    fun firstMember secondMember => cut.apart_of_le _ _ (members _ firstMember)
      (members _ secondMember)
  refine ⟨?_, ?_, ?_⟩
  · apply List.Pairwise.imp_of_mem _ sorted
    intro first second firstMember secondMember order
    rcases cases firstMember secondMember order with same | before
    · rw [same]
    · have bounds := cut.within second (members second secondMember)
      omega
  · apply List.Pairwise.imp_of_mem _ sorted
    intro first second firstMember secondMember order closed
    rcases cases firstMember secondMember order with same | before
    · rw [← same]
      exact ⟨closed, rfl⟩
    · have ends := (cut.closing first (members first firstMember)).mp closed
      have bounds := cut.within second (members second secondMember)
      omega
  · intro frag member
    have bounds := cut.within frag (members frag member)
    omega

/-! ## What `ipfcons` builds -/

/-- `data` is what the datagram holds at each place; the fragment has its part of it. -/
def Carries (data : Int → Octet) (frag : Packet) : Prop :=
  ∀ place, packoff frag ≤ place → place < packend frag →
    frag (ipHlen frag + (place - packoff frag)) = data place

theorem perform_below (off seq : Int) (frags : List Packet)
    (lengths : ∀ copy ∈ copies off seq frags, 0 ≤ copy.dlen) (pep : Packet) (place : Int)
    (below : place < off) : (copies off seq frags).foldl perform pep place = pep place := by
  induction frags generalizing off seq pep with
  | nil => rfl
  | cons frag rest ih =>
      rw [copies_cons, List.forall_mem_cons] at lengths
      have first : 0 ≤ packend frag - seq := lengths.1
      rw [copies_cons, List.foldl_cons, ih _ _ lengths.2 _ (by omega)]
      exact memcpy_unmoved _ _ _ _ _ _ (Or.inl below)

theorem perform_carries (data : Int → Octet) (base seq : Int) (frags : List Packet)
    (gapless : Spans.Gapless packoff packend seq frags)
    (rising : List.IsChain (fun first second : Int => first ≤ second) (seq :: frags.map packend))
    (carries : ∀ frag ∈ frags, Carries data frag) (pep : Packet) (place : Int)
    (low : seq ≤ place) (high : place < Spans.finish packend seq frags) :
    (copies (base + seq) seq frags).foldl perform pep (base + place) = data place := by
  induction frags generalizing seq pep with
  | nil =>
      have empty : place < seq := high
      omega
  | cons frag rest ih =>
      obtain ⟨start, gaplessRest⟩ := gapless
      rw [List.map_cons, List.isChain_cons_cons] at rising
      have first := rising.1
      have next : base + seq + (packend frag - seq) = base + packend frag := by omega
      rw [copies_cons, next, List.foldl_cons]
      by_cases own : place < packend frag
      · rw [perform_below _ _ _ (copies_lengths _ _ _ rising.2) _ _ (by omega)]
        have inside : base + place < base + seq + ((packend frag - seq).toNat : Int) := by omega
        change memcpy pep (base + seq) (fetch frag (ipHlen frag + seq - packoff frag)
          (packend frag - seq).toNat) (base + place) = data place
        rw [memcpy_moved _ _ _ _ _ _ (by omega) inside,
          ← carries frag List.mem_cons_self place (by omega) own]
        congr 1
        omega
      · exact ih (packend frag) gaplessRest rising.2
          (fun other member => carries other (List.mem_cons_of_mem frag member)) _ (by omega) high

theorem ipfcons_some (buffer result : Packet) (frags : List Packet)
    (built : ipfcons buffer frags = some result) :
    ∃ first rest, frags = first :: rest ∧
      (∀ copy ∈ copies (ipHlen first) 0 frags, 0 ≤ copy.dlen) ∧
      result = putHalfword (putHalfword ((copies (ipHlen first) 0 frags).foldl perform
        (memcpy buffer 0 (fetch first 0 (ipHlen first).toNat))) 2
          (ipHlen first + Spans.finish packend 0 frags).toNat) 6 0 := by
  cases frags with
  | nil => cases built
  | cons first rest =>
      simp only [ipfcons] at built
      split_ifs at built with lengths
      rw [Option.some.injEq] at built
      refine ⟨first, rest, rfl, ?_, ?_⟩
      · intro copy member
        exact of_decide_eq_true (List.all_eq_true.mp lengths copy member)
      · rw [← built, consCopies, copies_sum, sub_zero]

/-- The result has the header of the first fragment, apart from the two fields set. -/
theorem ipfcons_header (buffer result : Packet) (frags : List Packet)
    (built : ipfcons buffer frags = some result) :
    ∃ first ∈ frags, ∀ place, 0 ≤ place → place < ipHlen first →
      place < 2 ∨ place = 4 ∨ place = 5 ∨ 8 ≤ place → result place = first place := by
  obtain ⟨first, rest, rfl, lengths, shape⟩ := ipfcons_some buffer result frags built
  refine ⟨first, List.mem_cons_self, ?_⟩
  intro place low high apart
  rw [shape, putHalfword_outside _ _ _ _ (by omega), putHalfword_outside _ _ _ _ (by omega),
    perform_below _ _ _ lengths _ _ high, memcpy_fetch _ _ _ _ _ low (by omega)]

theorem ipfcons_length (buffer result : Packet) (frags : List Packet) (hlen : Int)
    (headers : ∀ frag ∈ frags, ipHlen frag = hlen)
    (low : 0 ≤ hlen + Spans.finish packend 0 frags)
    (high : hlen + Spans.finish packend 0 frags < 65536)
    (built : ipfcons buffer frags = some result) :
    ipLen result = hlen + Spans.finish packend 0 frags := by
  obtain ⟨first, rest, rfl, _, rfl⟩ := ipfcons_some buffer result frags built
  rw [headers first List.mem_cons_self]
  unfold ipLen
  rw [halfword_put_apart _ _ _ _ (by omega), halfword_putHalfword _ _ _ (by omega)]
  omega

theorem ipfcons_restores (pep buffer : Packet) (header : 20 ≤ ipHlen pep)
    (lengths : ipHlen pep ≤ ipLen pep) (frags : List Packet)
    (kept : ∀ frag ∈ frags, ∀ place, Kept place → frag place = pep place)
    (carries : ∀ frag ∈ frags, Carries (fun place => pep (ipHlen pep + place)) frag)
    (gapless : Spans.Gapless packoff packend 0 frags)
    (rising : List.IsChain (fun first second : Int => first ≤ second) (0 :: frags.map packend))
    (whole : Spans.finish packend 0 frags = ipLen pep - ipHlen pep) (result : Packet)
    (built : ipfcons buffer frags = some result) : Restored pep result := by
  have total : ipLen pep < 65536 := by
    have bound := halfword_lt pep 2
    unfold ipLen
    omega
  have headers : ∀ frag ∈ frags, ipHlen frag = ipHlen pep := by
    intro frag member
    unfold ipHlen ipVerlen
    rw [kept frag member 0 (Or.inl rfl)]
  have length := ipfcons_length buffer result frags (ipHlen pep) headers (by omega)
    (by omega) built
  have keptResult : ∀ place, Kept place → result place = pep place := by
    intro place fixed
    obtain ⟨first, member, same⟩ := ipfcons_header buffer result frags built
    rw [← kept first member place fixed]
    have length := headers first member
    unfold Kept at fixed
    exact same place (by omega) (by omega) (by omega)
  have headerResult : ipHlen result = ipHlen pep := by
    unfold ipHlen ipVerlen
    rw [keptResult 0 (Or.inl rfl)]
  refine ⟨?_, identity_of_kept keptResult⟩
  have count : ipLen result - ipHlen result = ipLen pep - ipHlen pep := by omega
  unfold payload
  rw [count, headerResult]
  apply fetch_congr
  intro position bound
  obtain ⟨first, rest, rfl, _, shape⟩ := ipfcons_some buffer result frags built
  have written := perform_carries (fun place => pep (ipHlen pep + place)) (ipHlen pep) 0
    (first :: rest) gapless rising carries
    (memcpy buffer 0 (fetch first 0 (ipHlen first).toNat)) position (by omega) (by omega)
  rw [add_zero, ← headers first List.mem_cons_self] at written
  rw [shape, putHalfword_outside _ _ _ _ (by omega), putHalfword_outside _ _ _ _ (by omega),
    ← headers first List.mem_cons_self]
  exact written

/-! ## Arrivals of one datagram -/

theorem Gathered.valid {frags : List Packet} {iq : Ipfq} (gathered : Gathered frags iq) :
    iq.ipfState = IpfState.valid := by
  cases gathered with
  | start pep iq => rfl
  | @add _ before _ pep _ added =>
      obtain ⟨valid, _, _, _, rfl⟩ := ipfadd_true before iq pep added
      exact valid

theorem Gathered.room {frags : List Packet} {iq : Ipfq} (gathered : Gathered frags iq) :
    iq.ipfQ.qMax = ipFqsize ∧ iq.ipfQ.items.length = frags.length := by
  induction gathered with
  | start pep iq => exact ⟨rfl, rfl⟩
  | @add frags before after pep _ added ih =>
      obtain ⟨_, left, queue, accepted, rfl⟩ := ipfadd_true before after pep added
      have bounded : before.ipfQ.items.length < before.ipfQ.qMax := by
        by_contra full
        unfold Gpq.enq at accepted
        rw [if_pos (Nat.not_lt.mp full)] at accepted
        cases accepted
      obtain ⟨_, same, again, most, count⟩ :=
        Gpq.enq_accepts before.ipfQ pep (-(fragOffset pep : Int)) bounded
      rw [accepted] at again
      cases again
      rw [List.length_append, List.length_singleton, ← ih.2]
      exact ⟨most.trans ih.1, count⟩

theorem Gathered.queued {frags : List Packet} {iq : Ipfq} (gathered : Gathered frags iq)
    (pep : Packet) (same : ∀ frag ∈ frags, identity frag = identity pep) :
    Queued iq ∧ iq.ipfSrc = ipSrc pep ∧ iq.ipfId = ipId pep := by
  induction gathered with
  | start first iq =>
      have own := same first (List.mem_singleton_self first)
      exact ⟨startQueue_queued first iq, congrArg Identity.src own, congrArg Identity.id own⟩
  | @add frags before after new _ added ih =>
      obtain ⟨queued, src, id⟩ := ih fun frag member => same frag (List.mem_append_left _ member)
      have own := same new (List.mem_append_right _ (List.mem_singleton_self new))
      have kept := queued.ipfadd ((congrArg Identity.src own).trans src.symm)
        ((congrArg Identity.id own).trans id.symm)
      have key := ipfadd_key before new
      rw [added] at kept key
      exact ⟨kept, key.1.trans src, key.2.trans id⟩

theorem Gathered.accepts {frags : List Packet} {iq : Ipfq} (gathered : Gathered frags iq)
    (few : frags.length < ipFqsize) (pep : Packet) : (ipfadd iq pep).1 = true := by
  obtain ⟨most, count⟩ := gathered.room
  obtain ⟨left, queue, accepted, _⟩ := Gpq.enq_accepts iq.ipfQ pep (-(fragOffset pep : Int))
    (by rw [most, count]; exact few)
  have usable : ¬ iq.ipfState ≠ IpfState.valid := not_not.mpr gathered.valid
  unfold ipfadd
  rw [if_neg usable, accepted]

/-- The entry of the table in which the packets of a datagram are gathered. -/
structure Gathering (pep : Packet) (ipfqt : List Ipfq) (done : List Packet) (iq : Ipfq) : Prop where
  found : ipfqt.find? (keyed pep) = some iq
  gathered : Gathered done iq

theorem keyed_congr (pep frag : Packet) (same : identity frag = identity pep) :
    keyed frag = keyed pep := by
  have id : ipId frag = ipId pep := congrArg Identity.id same
  have src : ipSrc frag = ipSrc pep := congrArg Identity.src same
  funext iq
  rw [keyed, keyed, id, src]

theorem find_replaced (pep : Packet) (before after : List Ipfq) (iq : Ipfq)
    (absent : before.find? (keyed pep) = none) (matched : keyed pep iq = true) :
    (before ++ iq :: after).find? (keyed pep) = some iq := by
  rw [List.find?_append, absent, Option.none_or, List.find?_cons, matched]

theorem takeFree_first (pep frag : Packet) (same : identity frag = identity pep)
    (ipfqt : List Ipfq) (unmatched : ipfqt.find? (keyed pep) = none)
    (free : ∃ iq ∈ ipfqt, iq.ipfState = IpfState.free) :
    ∃ iq, Gathering pep (takeFree frag ipfqt) [frag] iq := by
  induction ipfqt with
  | nil =>
      obtain ⟨iq, member, _⟩ := free
      cases member
  | cons first rest ih =>
      rw [List.find?_cons] at unmatched
      split at unmatched
      · cases unmatched
      · rename_i other
        by_cases own : first.ipfState = IpfState.free
        · refine ⟨startQueue frag first, ?_, Gathered.start frag first⟩
          rw [takeFree, if_pos own]
          apply find_replaced pep [] rest _ rfl
          rw [← keyed_congr pep frag same]
          apply (keyed_iff _ _).mpr
          exact ⟨IpfState.noConfusion, rfl, rfl⟩
        · obtain ⟨iq, member, isFree⟩ := free
          rcases List.mem_cons.mp member with head | later
          · exact absurd (head ▸ isFree) own
          · obtain ⟨taken, found, gathered⟩ := ih unmatched ⟨iq, later, isFree⟩
            refine ⟨taken, ?_, gathered⟩
            rw [takeFree, if_neg own, List.find?_cons, other]
            exact found

/-- A packet that finds room is added, and the queue is looked at. -/
theorem Gathering.arrival {pep : Packet} {ipfqt : List Ipfq} {done : List Packet} {iq : Ipfq}
    (gathering : Gathering pep ipfqt done iq) (buffer frag : Packet)
    (fragment : isFragment frag = true) (same : identity frag = identity pep)
    (few : done.length < ipFqsize) :
    ∃ after, Gathered (done ++ [frag]) after ∧
      (ipreass ipfqt buffer frag).1 = (ipfjoin buffer after).1 ∧
      ((ipfjoin buffer after).2 = after → keyed pep after = true →
        Gathering pep (ipreass ipfqt buffer frag).2 (done ++ [frag]) after) := by
  have accepted := gathering.gathered.accepts few frag
  have found := gathering.found
  rw [← keyed_congr pep frag same] at found
  obtain ⟨before, behind, _, absent, joined⟩ := joinMatch_some buffer frag ipfqt iq found
  have added : ipfadd iq frag = (true, (ipfadd iq frag).2) := Prod.ext accepted rfl
  have gathered := Gathered.add frag gathering.gathered added
  refine ⟨(ipfadd iq frag).2, gathered, ?_, ?_⟩
  · unfold ipreass
    rw [if_pos fragment, joined, Option.getD_some]
    simp only [addAndJoin, accepted, if_true]
  · intro kept matched
    refine ⟨?_, gathered⟩
    unfold ipreass
    rw [if_pos fragment, joined, Option.getD_some]
    simp only [addAndJoin, accepted, if_true, kept]
    rw [keyed_congr pep frag same] at absent
    exact find_replaced pep before behind _ absent matched

/-! ## All fragments in, one datagram out -/

theorem Sliced.mem {pep : Packet} {opts : Options} {maxdlen start : Int} {frags : List Packet}
    (sliced : Sliced pep opts maxdlen start frags) (positive : 0 < maxdlen) (frag : Packet)
    (member : frag ∈ frags) : ∃ offindg, start ≤ offindg ∧ SliceAt pep opts maxdlen offindg frag := by
  induction sliced with
  | last start only slice _ _ =>
      rw [List.mem_singleton.mp member]
      exact ⟨start, le_rfl, slice⟩
  | more start first rest slice _ _ ih =>
      rcases List.mem_cons.mp member with same | later
      · rw [same]
        exact ⟨start, le_rfl, slice⟩
      · obtain ⟨offindg, behind, found⟩ := ih later
        exact ⟨offindg, by omega, found⟩

/-- What every fragment of a divided datagram is. -/
structure Emitted (pep : Packet) (frag : Packet) : Prop where
  kept : ∀ place, Kept place → frag place = pep place
  fragment : isFragment frag = true

theorem Sliced.emitted {pep : Packet} {opts : Options} {maxdlen : Int} {frags : List Packet}
    (sliced : Sliced pep opts maxdlen 0 frags) (positive : 0 < maxdlen)
    (divided : maxdlen < ipLen pep - ipHlen pep) (frag : Packet) (member : frag ∈ frags) :
    Emitted pep frag := by
  obtain ⟨offindg, low, slice⟩ := sliced.mem positive frag member
  refine ⟨slice.kept, ?_⟩
  rw [isFragment, slice.closing]
  by_cases first : offindg = 0
  · rw [first, sub_zero, decide_eq_true divided, Bool.or_true]
  · have offset := slice.offset
    unfold packoff at offset
    rw [decide_eq_true (by omega), Bool.true_or]

theorem SliceAt.carries {pep : Packet} {opts : Options} {maxdlen offindg : Int} {frag : Packet}
    (slice : SliceAt pep opts maxdlen offindg frag)
    (same : fragHlen pep opts offindg = ipHlen pep) :
    Carries (fun place => pep (ipHlen pep + place)) frag := by
  intro place low high
  have ends := slice.packend_eq
  have data := slice.data (place - offindg)
  rw [same] at ends data
  rw [slice.offset] at low ⊢
  rw [slice.hlen_eq, data (by omega) (by omega)]
  congr 1
  omega

theorem joinVerdict_not_big (frags : List Packet)
    (small : ∀ frag ∈ frags, packend frag ≤ maxLrgbuf) : joinVerdict frags ≠ Verdict.tooBig := by
  intro big
  unfold joinVerdict at big
  cases outcome : scan 0 none frags with
  | none =>
      rw [outcome] at big
      cases big
  | some found =>
      obtain ⟨off, pip⟩ := found
      obtain ⟨_, reached, _⟩ := (scan_eq 0 none frags off pip).mp outcome
      rw [outcome] at big
      simp only at big
      split_ifs at big with exceeds
      cases frags with
      | nil =>
          have zero : off = 0 := reached
          rw [zero] at exceeds
          exact absurd exceeds (by decide)
      | cons first rest =>
          rw [Spans.finish_getLast 0 _ (List.cons_ne_nil first rest)] at reached
          have bound := small _ (List.getLast_mem (List.cons_ne_nil first rest))
          omega

/-- The queue of gathered fragments, seen by `ipfjoin`. -/
theorem gathered_orderly {pep : Packet} {frags : List Packet} {limit : Int}
    (cut : Cut frags 0 limit) (small : limit ≤ maxLrgbuf)
    (emitted : ∀ frag ∈ frags, Emitted pep frag) {done : List Packet} {iq : Ipfq}
    (gathered : Gathered done iq) (members : ∀ frag ∈ done, frag ∈ frags) :
    (Gpq.elements iq.ipfQ).Pairwise (fun first second => packoff first ≤ packoff second) ∧
      Orderly (Gpq.elements iq.ipfQ) ∧ InOrder (Gpq.elements iq.ipfQ) := by
  have identities : ∀ frag ∈ frags, identity frag = identity pep :=
    fun frag member => identity_of_kept (emitted frag member).kept
  have queuedMembers : ∀ frag ∈ Gpq.elements iq.ipfQ, frag ∈ frags :=
    fun frag member => members frag ((gathered.mem_elements frag).mp member)
  have sorted := (gathered.queued pep fun frag member =>
    identities frag (members frag member)).1.offsets
  have inOrder := cut.inOrder small _ queuedMembers sorted
  refine ⟨sorted, ⟨?_, ?_, fun _ => inOrder⟩, inOrder⟩
  · intro first firstMember second secondMember
    have same := (identities first (queuedMembers first firstMember)).trans
      (identities second (queuedMembers second secondMember)).symm
    exact ⟨congrArg Identity.dst same, congrArg Identity.proto same⟩
  · intro frag member
    have bounds := cut.within frag (queuedMembers frag member)
    unfold packend at bounds
    omega

theorem gathered_waits {pep : Packet} {frags : List Packet} {limit : Int}
    (cut : Cut frags 0 limit) (positive : 0 < limit) (small : limit ≤ maxLrgbuf)
    (emitted : ∀ frag ∈ frags, Emitted pep frag) {done : List Packet} {iq : Ipfq}
    (gathered : Gathered done iq) (members : ∀ frag ∈ done, frag ∈ frags)
    (missing : ∃ frag ∈ frags, frag ∉ done) (nonempty : done ≠ []) (buffer : Packet) :
    ipfjoin buffer iq = (Outcome.nothing, iq) := by
  obtain ⟨_, _, inOrder⟩ := gathered_orderly cut small emitted gathered members
  have incomplete : ¬ Complete (Gpq.elements iq.ipfQ) := by
    intro complete
    obtain ⟨frag, member, absent⟩ := missing
    exact absent ((cut.complete_iff positive done members).mp
      (complete.congr gathered.mem_elements) frag member)
  have filled : Gpq.elements iq.ipfQ ≠ [] := by
    obtain ⟨frag, rest, shape⟩ := List.exists_cons_of_ne_nil nonempty
    apply List.ne_nil_of_mem ((gathered.mem_elements frag).mpr _)
    rw [shape]
    exact List.mem_cons_self
  have usable : iq.ipfState ≠ IpfState.bogus := by
    rw [gathered.valid]
    exact IpfState.noConfusion
  unfold ipfjoin
  rw [if_neg usable]
  cases verdict : joinVerdict (Gpq.elements iq.ipfQ) with
  | wait => rfl
  | tooBig => exact absurd verdict (joinVerdict_not_big _ inOrder.small)
  | construct => exact absurd (complete_of_construct _ filled verdict) incomplete

theorem gathered_restores {pep : Packet} {frags : List Packet}
    (header : 20 ≤ ipHlen pep) (positive : ipHlen pep < ipLen pep)
    (cut : Cut frags 0 (ipLen pep - ipHlen pep)) (small : ipLen pep - ipHlen pep ≤ maxLrgbuf)
    (emitted : ∀ frag ∈ frags, Emitted pep frag)
    (carries : ∀ frag ∈ frags, Carries (fun place => pep (ipHlen pep + place)) frag)
    {done : List Packet} {iq : Ipfq} (gathered : Gathered done iq)
    (members : ∀ frag ∈ done, frag ∈ frags) (all : ∀ frag ∈ frags, frag ∈ done)
    (buffer : Packet) :
    ∃ result, (ipfjoin buffer iq).1 = Outcome.packet result ∧ Restored pep result := by
  obtain ⟨sorted, orderly, inOrder⟩ := gathered_orderly cut small emitted gathered members
  have complete : Complete (Gpq.elements iq.ipfQ) :=
    ((cut.complete_iff (by omega) done members).mpr all).congr
      fun frag => (gathered.mem_elements frag).symm
  have queuedMembers : ∀ frag ∈ Gpq.elements iq.ipfQ, frag ∈ frags :=
    fun frag member => members frag ((gathered.mem_elements frag).mp member)
  have construct := construct_of_complete _ sorted orderly complete
  have nonempty : Gpq.elements iq.ipfQ ≠ [] := by
    obtain ⟨last, member, _⟩ := complete
    exact List.ne_nil_of_mem member
  obtain ⟨gapless, _, closing⟩ := (joinVerdict_construct _).mp construct
  have finish : Spans.finish packend 0 (Gpq.elements iq.ipfQ) = ipLen pep - ipHlen pep := by
    rw [Spans.finish_getLast 0 _ nonempty]
    apply (cut.closing _ (queuedMembers _ (List.getLast_mem nonempty))).mp
    exact closing _ (List.getLast?_eq_getLast_of_ne_nil nonempty)
  have chain := chain_of_rising _ orderly.lengths inOrder.rising
  obtain ⟨result, built⟩ := ipfcons_of_rising buffer _ nonempty orderly.lengths inOrder.rising
  refine ⟨result, (ipfjoin_packet buffer iq gathered.valid result).mpr ⟨construct, built⟩, ?_⟩
  exact ipfcons_restores pep buffer header positive.le _
    (fun frag member => (emitted frag (queuedMembers frag member)).kept)
    (fun frag member => carries frag (queuedMembers frag member)) gapless chain finish result built

theorem gathered_keyed {pep : Packet} {frags done : List Packet} {iq : Ipfq}
    (emitted : ∀ frag ∈ frags, Emitted pep frag) (gathered : Gathered done iq)
    (members : ∀ frag ∈ done, frag ∈ frags) : keyed pep iq = true := by
  obtain ⟨_, src, id⟩ := gathered.queued pep fun frag member =>
    identity_of_kept (emitted frag (members frag member)).kept
  apply (keyed_iff pep iq).mpr
  refine ⟨?_, id, src⟩
  rw [gathered.valid]
  exact IpfState.noConfusion

/-- As long as a fragment is missing the queue grows and nothing comes back. -/
theorem waits_while_missing {pep : Packet} {frags : List Packet} {limit : Int}
    (cut : Cut frags 0 limit) (positive : 0 < limit) (small : limit ≤ maxLrgbuf)
    (emitted : ∀ frag ∈ frags, Emitted pep frag) (buffer : Packet) (early : List Packet)
    (ipfqt : List Ipfq) (done : List Packet) (iq : Ipfq)
    (gathering : Gathering pep ipfqt done iq) (members : ∀ frag ∈ done ++ early, frag ∈ frags)
    (few : done.length + early.length ≤ ipFqsize) (missing : ∃ frag ∈ frags, frag ∉ done ++ early) :
    Waits buffer ipfqt early ∧
      ∃ after, Gathering pep (tableAfter buffer ipfqt early) (done ++ early) after := by
  induction early generalizing ipfqt done iq with
  | nil =>
      rw [List.append_nil]
      exact ⟨trivial, iq, gathering⟩
  | cons frag rest ih =>
      have regroup : done ++ frag :: rest = (done ++ [frag]) ++ rest := by
        rw [List.append_assoc, List.singleton_append]
      rw [regroup] at members missing ⊢
      rw [List.length_cons] at few
      have own := emitted frag (members frag (List.mem_append_left _
        (List.mem_append_right _ (List.mem_singleton_self frag))))
      have grown : ∀ other ∈ done ++ [frag], other ∈ frags :=
        fun other member => members other (List.mem_append_left _ member)
      obtain ⟨after, gathered, outcome, kept⟩ := gathering.arrival buffer frag own.fragment
        (identity_of_kept own.kept) (by omega)
      have still : ∃ other ∈ frags, other ∉ done ++ [frag] := by
        obtain ⟨other, member, absent⟩ := missing
        exact ⟨other, member, fun present => absent (List.mem_append_left _ present)⟩
      have waits := gathered_waits cut positive small emitted gathered grown still
        (List.append_ne_nil_of_right_ne_nil done (List.cons_ne_nil frag [])) buffer
      rw [waits] at outcome kept
      have next := kept rfl (gathered_keyed emitted gathered grown)
      obtain ⟨restWaits, final, finalGathering⟩ := ih (ipreass ipfqt buffer frag).2
        (done ++ [frag]) after next members
        (by rw [List.length_append, List.length_singleton]; omega) missing
      exact ⟨⟨outcome, restWaits⟩, final, finalGathering⟩

theorem round_trip_of_cut {pep : Packet} {frags : List Packet}
    (header : 20 ≤ ipHlen pep) (positive : ipHlen pep < ipLen pep)
    (cut : Cut frags 0 (ipLen pep - ipHlen pep)) (small : ipLen pep - ipHlen pep ≤ maxLrgbuf)
    (emitted : ∀ frag ∈ frags, Emitted pep frag)
    (carries : ∀ frag ∈ frags, Carries (fun place => pep (ipHlen pep + place)) frag)
    (ipfqt : List Ipfq) (unmatched : ipfqt.find? (keyed pep) = none)
    (free : ∃ iq ∈ ipfqt, iq.ipfState = IpfState.free) (buffer : Packet) (early : List Packet)
    (final : Packet) (members : ∀ frag ∈ early ++ [final], frag ∈ frags)
    (all : ∀ frag ∈ frags, frag ∈ early ++ [final]) (missing : ∃ frag ∈ frags, frag ∉ early)
    (few : (early ++ [final]).length ≤ ipFqsize) : RoundTrip ipfqt buffer pep early final := by
  have finalMember := members final (List.mem_append_right _ (List.mem_singleton_self final))
  have ownFinal := emitted final finalMember
  rw [List.length_append, List.length_singleton] at few
  cases early with
  | nil =>
      -- one fragment alone is never the whole datagram
      have complete := (cut.complete_iff (by omega) [final] members).mpr all
      have bounds := cut.within final finalMember
      have lengths : ipHlen final ≤ ipLen final := by
        unfold packend at bounds
        omega
      exact absurd complete (not_complete_alone final ownFinal.fragment lengths)
  | cons first rest =>
      have own := emitted first (members first List.mem_cons_self)
      have same := identity_of_kept own.kept
      obtain ⟨iq, gathering⟩ := takeFree_first pep first same ipfqt unmatched free
      have unmatchedFirst := unmatched
      rw [← keyed_congr pep first same] at unmatchedFirst
      have started : ipreass ipfqt buffer first = (Outcome.nothing, takeFree first ipfqt) := by
        unfold ipreass
        rw [if_pos own.fragment, joinMatch_none buffer first ipfqt unmatchedFirst,
          Option.getD_none]
      obtain ⟨waits, after, gatheringAll⟩ := waits_while_missing cut (by omega) small emitted
        buffer rest (takeFree first ipfqt) [first] iq gathering
        (fun frag member => members frag (List.mem_append_left _ member))
        (by rw [List.length_cons] at few; rw [List.length_singleton]; omega) missing
      obtain ⟨last, gathered, outcome, _⟩ := gatheringAll.arrival buffer final ownFinal.fragment
        (identity_of_kept ownFinal.kept) (by exact few)
      obtain ⟨result, returned, restored⟩ := gathered_restores header positive cut small emitted
        carries gathered members all buffer
      have table : tableAfter buffer ipfqt (first :: rest) =
          tableAfter buffer (takeFree first ipfqt) rest := by
        unfold tableAfter
        rw [List.foldl_cons, started]
      refine ⟨⟨?_, ?_⟩, result, ?_, restored⟩
      · rw [started]
      · rw [started]
        exact waits
      · rw [table, outcome, returned]

/-! ## Headers that are taken for longer -/

def Owned (pep : Packet) (frags : List Packet) (ipfqt : List Ipfq) : Prop :=
  ∀ iq ∈ ipfqt, keyed pep iq = true → ∀ frag ∈ Gpq.elements iq.ipfQ, frag ∈ frags

theorem ipfadd_elements (iq : Ipfq) (pep other : Packet)
    (member : other ∈ Gpq.elements (ipfadd iq pep).2.ipfQ) :
    other = pep ∨ other ∈ Gpq.elements iq.ipfQ := by
  unfold ipfadd at member
  split_ifs at member
  · exact Or.inr member
  · cases accepted : Gpq.enq iq.ipfQ pep (-(fragOffset pep : Int)) with
    | none =>
        rw [accepted] at member
        cases member
    | some taken =>
        obtain ⟨left, queue⟩ := taken
        rw [accepted] at member
        exact (Gpq.enq_elements iq.ipfQ queue pep _ left accepted other).mp member

theorem addAndJoin_elements (buffer pep : Packet) (iq : Ipfq) (other : Packet)
    (member : other ∈ Gpq.elements (addAndJoin buffer pep iq).2.ipfQ) :
    other = pep ∨ other ∈ Gpq.elements iq.ipfQ := by
  simp only [addAndJoin] at member
  split_ifs at member
  · rcases ipfjoin_key buffer (ipfadd iq pep).2 with same | released
    · rw [same] at member
      exact ipfadd_elements iq pep other member
    · rw [released] at member
      cases member
  · exact ipfadd_elements iq pep other member

theorem Owned.arrival {pep : Packet} {frags : List Packet} {ipfqt : List Ipfq}
    (owned : Owned pep frags ipfqt) (buffer frag : Packet) (member : frag ∈ frags)
    (own : Emitted pep frag) : Owned pep frags (ipreass ipfqt buffer frag).2 := by
  have same := identity_of_kept own.kept
  unfold ipreass
  rw [if_pos own.fragment]
  cases found : ipfqt.find? (keyed frag) with
  | some iq =>
      obtain ⟨before, after, rfl, _, joined⟩ := joinMatch_some buffer frag ipfqt iq found
      rw [joined, Option.getD_some]
      intro entry entryMember matched other queued
      rcases List.mem_append.mp entryMember with earlier | later
      · exact owned entry (List.mem_append_left _ earlier) matched other queued
      · rcases List.mem_cons.mp later with here | behind
        · rw [here] at queued
          rcases addAndJoin_elements buffer frag iq other queued with new | old
          · rw [new]
            exact member
          · have matchedOld := List.find?_some found
            rw [keyed_congr pep frag same] at matchedOld
            exact owned iq (List.mem_append_right _ List.mem_cons_self) matchedOld other old
        · exact owned entry (List.mem_append_right _ (List.mem_cons_of_mem iq behind)) matched
            other queued
  | none =>
      rw [joinMatch_none buffer frag ipfqt found, Option.getD_none]
      rcases takeFree_eq frag ipfqt with unchanged | ⟨before, iq, after, rfl, taken⟩
      · rw [unchanged]
        exact owned
      · rw [taken]
        intro entry entryMember matched other queued
        rcases List.mem_append.mp entryMember with earlier | later
        · exact owned entry (List.mem_append_left _ earlier) matched other queued
        · rcases List.mem_cons.mp later with here | behind
          · rw [here, startQueue_elements] at queued
            rw [List.mem_singleton.mp queued]
            exact member
          · exact owned entry (List.mem_append_right _ (List.mem_cons_of_mem iq behind)) matched
              other queued

theorem Owned.run {pep : Packet} {frags : List Packet} {ipfqt : List Ipfq}
    (owned : Owned pep frags ipfqt) (buffer : Packet) (early : List Packet)
    (members : ∀ frag ∈ early, frag ∈ frags) (emitted : ∀ frag ∈ frags, Emitted pep frag) :
    Owned pep frags (tableAfter buffer ipfqt early) := by
  induction early generalizing ipfqt with
  | nil => exact owned
  | cons frag rest ih =>
      have member := members frag List.mem_cons_self
      exact ih (owned.arrival buffer frag member (emitted frag member))
        fun other later => members other (List.mem_cons_of_mem frag later)

theorem Owned.built {pep : Packet} {frags : List Packet} {ipfqt : List Ipfq}
    (owned : Owned pep frags ipfqt) (buffer frag result : Packet) (member : frag ∈ frags)
    (own : Emitted pep frag)
    (returned : (ipreass ipfqt buffer frag).1 = Outcome.packet result) :
    ∃ queued, (∀ other ∈ queued, other ∈ frags) ∧
      joinVerdict queued = Verdict.construct ∧ ipfcons buffer queued = some result := by
  have same := identity_of_kept own.kept
  unfold ipreass at returned
  rw [if_pos own.fragment] at returned
  cases found : ipfqt.find? (keyed frag) with
  | none =>
      rw [joinMatch_none buffer frag ipfqt found, Option.getD_none] at returned
      cases returned
  | some iq =>
      have matched := List.find?_some found
      rw [keyed_congr pep frag same] at matched
      obtain ⟨_, _, _, _, joined⟩ := joinMatch_some buffer frag ipfqt iq found
      rw [joined, Option.getD_some] at returned
      simp only [addAndJoin] at returned
      split_ifs at returned with accepted
      have added : ipfadd iq frag = (true, (ipfadd iq frag).2) := Prod.ext accepted rfl
      obtain ⟨valid, _, _, _, after⟩ := ipfadd_true iq _ frag added
      have afterValid : (ipfadd iq frag).2.ipfState = IpfState.valid := by
        rw [after]
        exact valid
      obtain ⟨construct, built⟩ := (ipfjoin_packet buffer _ afterValid result).mp returned
      refine ⟨_, ?_, construct, built⟩
      intro other queued
      rcases ipfadd_elements iq frag other queued with new | old
      · rw [new]
        exact member
      · exact owned iq (List.mem_of_find?_eq_some found) matched other old

/-- A later header that is shorter than `ip_verlen` says makes the result too short. -/
theorem not_restored_of_shorter {pep : Packet} {opts : Options} (datagram : Datagram pep opts)
    {maxdlen : Int} (positive : 0 < maxdlen) (divided : maxdlen < ipLen pep - ipHlen pep)
    {frags : List Packet} (sliced : Sliced pep opts maxdlen 0 frags)
    (shorter : laterHlen opts < ipHlen pep) (buffer result : Packet) (queued : List Packet)
    (members : ∀ frag ∈ queued, frag ∈ frags) (construct : joinVerdict queued = Verdict.construct)
    (built : ipfcons buffer queued = some result) : ¬ Restored pep result := by
  intro restored
  have total : ipLen pep < 65536 := by
    have bound := halfword_lt pep 2
    unfold ipLen
    omega
  have least := (laterHlen_le datagram).1
  have nonempty : queued ≠ [] := by
    obtain ⟨first, rest, shape, _, _⟩ := ipfcons_some buffer result queued built
    rw [shape]
    exact List.cons_ne_nil first rest
  have headers : ∀ frag ∈ queued, ipHlen frag = ipHlen pep := by
    intro frag member
    obtain ⟨_, _, slice⟩ := sliced.mem positive frag (members frag member)
    exact slice.hlen_eq
  obtain ⟨_, _, closing⟩ := (joinVerdict_construct queued).mp construct
  have finish : Spans.finish packend 0 queued =
      ipLen pep - ipHlen pep + (laterHlen opts - ipHlen pep) := by
    rw [Spans.finish_getLast 0 queued nonempty]
    obtain ⟨offindg, low, slice⟩ := sliced.mem positive _
      (members _ (List.getLast_mem nonempty))
    have closed := closing _ (List.getLast?_eq_getLast_of_ne_nil nonempty)
    rw [slice.closing, decide_eq_false_iff_not, not_lt] at closed
    have later : fragHlen pep opts offindg = laterHlen opts := if_neg (by omega)
    rw [slice.packend_eq, later, min_eq_right closed]
    omega
  have length := ipfcons_length buffer result queued (ipHlen pep) headers (by omega) (by omega)
    built
  have header : ipHlen result = ipHlen pep := by
    obtain ⟨first, member, same⟩ := ipfcons_header buffer result queued built
    have length := headers first member
    rw [← length]
    unfold ipHlen ipVerlen
    rw [same 0 le_rfl (by omega) (Or.inl (by omega))]
  have counts := congrArg List.length restored.payload
  rw [payload, payload, fetch_length, fetch_length, header, length, finish] at counts
  omega

/-! ## The round trip -/

/-- A datagram of 100 octets of data. -/
def plainDatagram : Packet :=
  rawPacket ([0x45, 0, 0, 120, 0, 7, 0, 0, 64, 17, 0, 0, 10, 0, 0, 1, 10, 0, 0, 2] ++
    (List.range 100).map (BitVec.ofNat 8))

def plainFragments : List Packet := ipputp 68 (fun _ => zeros) plainDatagram

def plainFinal : Packet := plainFragments.getLastD zeros

theorem dropLast_getLastD (frags : List Packet) (nonempty : 0 < frags.length) :
    frags.dropLast ++ [frags.getLastD zeros] = frags := by
  have filled := List.ne_nil_of_length_pos nonempty
  rw [List.getLastD_eq_getLast?, List.getLast?_eq_getLast_of_ne_nil filled, Option.getD_some]
  exact List.dropLast_append_getLast filled

/-- A datagram with a timestamp option of 4 octets, which is not copied. -/
def stampedDatagram : Packet :=
  rawPacket ([0x46, 0, 0, 120, 0, 7, 0, 0, 64, 17, 0, 0, 10, 0, 0, 1, 10, 0, 0, 2, 0x44, 4, 5, 0] ++
    (List.range 96).map (BitVec.ofNat 8))

def stampedOptions : Options := Options.option 0x44 [5, 0] Options.done

def stampedFragments : List Packet := ipputp 68 (fun _ => zeros) stampedDatagram

def stampedFinal : Packet := stampedFragments.getLastD zeros

end MvsXinu.Ip
