import MvsXinu.Ip.ReassemblySafety
import MvsXinu.Lib.Runs

/-!
# When a datagram is complete

A datagram is complete once its queued fragments cover everything up to the end of one
that has no more fragments behind it. `ipfjoin` sees this as long as its queue holds one
datagram only and the fragments end in the order in which they start.
-/

namespace MvsXinu.Ip

open MvsXinu.Octets

set_option autoImplicit false

def Complete (frags : List Packet) : Prop :=
  ∃ last ∈ frags, moreFragments last = false ∧ Spans.Covers packoff packend frags (packend last)

def queuedIn (iq : Ipfq) : List Packet :=
  if iq.ipfState = IpfState.valid then Gpq.elements iq.ipfQ else []

/-- The queued fragments of the datagram that `pep` belongs to. -/
def held (ipfqt : List Ipfq) (pep : Packet) : List Packet :=
  (ipfqt.flatMap queuedIn).filter fun other => decide (identity other = identity pep)

/-- The queue that holds the packet before `ipfjoin` looks at it; `none` where the packet
is dropped. -/
def queueFor (ipfqt : List Ipfq) (pep : Packet) : Option Ipfq :=
  match ipfqt.find? (keyed pep) with
  | some iq => if (ipfadd iq pep).1 then some (ipfadd iq pep).2 else none
  | none => (ipfqt.find? fun iq => decide (iq.ipfState = IpfState.free)).map (startQueue pep)

/-- A fragment completes its datagram exactly if the queued fragments are complete with
it, and only fragments of this datagram go into the result. -/
def Proper (ipfqt : List Ipfq) (buffer pep : Packet) : Prop :=
  isFragment pep = true →
    ((∃ result, (ipreass ipfqt buffer pep).1 = Outcome.packet result) ↔
      (queueFor ipfqt pep).isSome = true ∧ Complete (pep :: held ipfqt pep)) ∧
    ∀ result, (ipreass ipfqt buffer pep).1 = Outcome.packet result →
      ∃ frags, ipfcons buffer frags = some result ∧
        ∀ other ∈ frags, other ∈ pep :: held ipfqt pep ∧ identity other = identity pep

/-- Complete fragments in order: they end as they start, only fragments with the same end
and no more behind them follow one that has no more behind it, and the data fit. -/
structure InOrder (frags : List Packet) : Prop where
  rising : frags.Pairwise fun first second => packend first ≤ packend second
  closing : frags.Pairwise fun first second => moreFragments first = false →
    moreFragments second = false ∧ packend second = packend first
  small : ∀ pep ∈ frags, packend pep ≤ maxLrgbuf

structure Orderly (frags : List Packet) : Prop where
  one : ∀ first ∈ frags, ∀ second ∈ frags,
    ipDst first = ipDst second ∧ ipProto first = ipProto second
  lengths : ∀ pep ∈ frags, ipHlen pep ≤ ipLen pep
  inOrder : Complete frags → InOrder frags

inductive Event where
  | arrive (buffer pep : Packet)
  | timer (gran : Int)

def step (ipfqt : List Ipfq) : Event → List Ipfq
  | Event.arrive buffer pep => (ipreass ipfqt buffer pep).2
  | Event.timer gran => ipftimer ipfqt gran

/-- Every fragment that is queued leaves an orderly queue. -/
def OrderlyArrival (ipfqt : List Ipfq) : Event → Prop
  | Event.arrive _ pep => isFragment pep = true →
      ∀ iq, queueFor ipfqt pep = some iq → Orderly (Gpq.elements iq.ipfQ)
  | Event.timer _ => True

/-! ## The queues of the table -/

structure Queued (iq : Ipfq) : Prop where
  sorted : Gpq.Sorted iq.ipfQ
  keys : ∀ item ∈ iq.ipfQ.items, item.1 = -(fragOffset item.2 : Int)
  src : ∀ pep ∈ Gpq.elements iq.ipfQ, ipSrc pep = iq.ipfSrc
  id : ∀ pep ∈ Gpq.elements iq.ipfQ, ipId pep = iq.ipfId

def Apart (first second : Ipfq) : Prop :=
  first.ipfState ≠ IpfState.free → second.ipfState ≠ IpfState.free →
    ¬ (first.ipfId = second.ipfId ∧ first.ipfSrc = second.ipfSrc)

structure Tabled (ipfqt : List Ipfq) : Prop where
  queued : ∀ iq ∈ ipfqt, Queued iq
  apart : ipfqt.Pairwise Apart

theorem Apart.symm {first second : Ipfq} (apart : Apart first second) : Apart second first := by
  intro secondBusy firstBusy same
  exact apart firstBusy secondBusy ⟨same.1.symm, same.2.symm⟩

theorem Queued.offsets {iq : Ipfq} (queued : Queued iq) :
    (Gpq.elements iq.ipfQ).Pairwise fun first second => packoff first ≤ packoff second := by
  rw [Gpq.elements, List.pairwise_map]
  apply List.Pairwise.imp_of_mem _ queued.sorted
  intro first second firstMember secondMember order
  rw [queued.keys first firstMember, queued.keys second secondMember] at order
  apply (packoff_le_iff first.2 second.2).mpr
  omega

theorem Queued.release {iq : Ipfq} (state : IpfState) : Queued (release iq state) where
  sorted := List.Pairwise.nil
  keys := by
    intro item member
    cases member
  src := by
    intro pep member
    cases member
  id := by
    intro pep member
    cases member

theorem Queued.ipfadd {iq : Ipfq} {pep : Packet} (queued : Queued iq)
    (src : ipSrc pep = iq.ipfSrc) (id : ipId pep = iq.ipfId) : Queued (ipfadd iq pep).2 := by
  unfold Ip.ipfadd
  split_ifs with invalid
  · exact queued
  · cases accepted : Gpq.enq iq.ipfQ pep (-(fragOffset pep : Int)) with
    | none => exact Queued.release _
    | some taken =>
        obtain ⟨left, queue⟩ := taken
        have members := Gpq.enq_elements iq.ipfQ queue pep _ left accepted
        refine ⟨Gpq.enq_sorted iq.ipfQ queue pep _ left queued.sorted accepted, ?_, ?_, ?_⟩
        · intro item member
          rcases (Gpq.enq_items iq.ipfQ queue pep _ left accepted item).mp member with new | old
          · rw [new]
          · exact queued.keys item old
        · intro other member
          rcases (members other).mp member with new | old
          · rw [new, src]
          · exact queued.src other old
        · intro other member
          rcases (members other).mp member with new | old
          · rw [new, id]
          · exact queued.id other old

theorem ipfadd_key (iq : Ipfq) (pep : Packet) :
    (ipfadd iq pep).2.ipfSrc = iq.ipfSrc ∧ (ipfadd iq pep).2.ipfId = iq.ipfId := by
  unfold ipfadd
  split_ifs
  · exact ⟨rfl, rfl⟩
  · cases Gpq.enq iq.ipfQ pep (-(fragOffset pep : Int)) <;> exact ⟨rfl, rfl⟩

theorem ipfjoin_key (buffer : Packet) (iq : Ipfq) :
    (ipfjoin buffer iq).2 = iq ∨ (ipfjoin buffer iq).2 = release iq IpfState.free := by
  unfold ipfjoin
  split_ifs with bogus
  · exact Or.inl rfl
  · cases joinVerdict (Gpq.elements iq.ipfQ) with
    | wait => exact Or.inl rfl
    | tooBig => exact Or.inr rfl
    | construct => cases ipfcons buffer (Gpq.elements iq.ipfQ) <;> exact Or.inr rfl

theorem addAndJoin_queued (buffer pep : Packet) (iq : Ipfq) (queued : Queued iq)
    (src : ipSrc pep = iq.ipfSrc) (id : ipId pep = iq.ipfId) :
    Queued (addAndJoin buffer pep iq).2 ∧
      (addAndJoin buffer pep iq).2.ipfSrc = iq.ipfSrc ∧
        (addAndJoin buffer pep iq).2.ipfId = iq.ipfId := by
  have addedQueued := queued.ipfadd src id
  have addedKey := ipfadd_key iq pep
  simp only [addAndJoin]
  split_ifs
  · rcases ipfjoin_key buffer (ipfadd iq pep).2 with same | released
    · rw [same]
      exact ⟨addedQueued, addedKey⟩
    · rw [released]
      exact ⟨Queued.release _, addedKey⟩
  · exact ⟨addedQueued, addedKey⟩

theorem Tabled.replace {before after : List Ipfq} {iq : Ipfq}
    (tabled : Tabled (before ++ iq :: after)) (new : Ipfq) (queued : Queued new)
    (apart : ∀ other ∈ before ++ after, Apart new other) : Tabled (before ++ new :: after) := by
  have symmetric : ∀ {first second : Ipfq}, Apart first second → Apart second first :=
    fun apart => apart.symm
  have others := (List.pairwise_cons.mp ((List.pairwise_middle symmetric).mp tabled.apart)).2
  constructor
  · intro other member
    rcases List.mem_append.mp member with earlier | later
    · exact tabled.queued other (List.mem_append_left _ earlier)
    · rcases List.mem_cons.mp later with same | behind
      · rw [same]
        exact queued
      · exact tabled.queued other (List.mem_append_right _ (List.mem_cons_of_mem iq behind))
  · exact (List.pairwise_middle symmetric).mpr (List.pairwise_cons.mpr ⟨apart, others⟩)

theorem keyed_iff (pep : Packet) (iq : Ipfq) :
    keyed pep iq = true ↔
      iq.ipfState ≠ IpfState.free ∧ iq.ipfId = ipId pep ∧ iq.ipfSrc = ipSrc pep := by
  simp only [keyed, Bool.and_eq_true, decide_eq_true_eq, and_assoc]

theorem joinMatch_none (buffer pep : Packet) (ipfqt : List Ipfq)
    (absent : ipfqt.find? (keyed pep) = none) : joinMatch buffer pep ipfqt = none := by
  induction ipfqt with
  | nil => rfl
  | cons iq rest ih =>
      rw [List.find?_cons] at absent
      split at absent
      · cases absent
      · rename_i other
        rw [joinMatch, if_neg (by rw [other]; exact Bool.false_ne_true), ih absent]
        rfl

theorem joinMatch_some (buffer pep : Packet) (ipfqt : List Ipfq) (iq : Ipfq)
    (found : ipfqt.find? (keyed pep) = some iq) :
    ∃ before after, ipfqt = before ++ iq :: after ∧ before.find? (keyed pep) = none ∧
      joinMatch buffer pep ipfqt =
        some ((addAndJoin buffer pep iq).1,
          before ++ (addAndJoin buffer pep iq).2 :: after) := by
  induction ipfqt with
  | nil => cases found
  | cons first rest ih =>
      rw [List.find?_cons] at found
      split at found
      · rename_i matched
        cases found
        refine ⟨[], rest, rfl, rfl, ?_⟩
        rw [joinMatch, if_pos matched]
        rfl
      · rename_i other
        obtain ⟨before, after, rfl, absent, joined⟩ := ih found
        refine ⟨first :: before, after, rfl, ?_, ?_⟩
        · rw [List.find?_cons, other]
          exact absent
        · rw [joinMatch, if_neg (by rw [other]; exact Bool.false_ne_true), joined]
          rfl

theorem takeFree_eq (pep : Packet) (ipfqt : List Ipfq) :
    takeFree pep ipfqt = ipfqt ∨
      ∃ before iq after, ipfqt = before ++ iq :: after ∧
        takeFree pep ipfqt = before ++ startQueue pep iq :: after := by
  induction ipfqt with
  | nil => exact Or.inl rfl
  | cons iq rest ih =>
      by_cases free : iq.ipfState = IpfState.free
      · refine Or.inr ⟨[], iq, rest, rfl, ?_⟩
        rw [takeFree, if_pos free]
        rfl
      · rw [takeFree, if_neg free]
        rcases ih with same | ⟨before, taken, after, rfl, changed⟩
        · exact Or.inl (by rw [same])
        · exact Or.inr ⟨iq :: before, taken, after, rfl, by rw [changed]; rfl⟩

theorem startQueue_queued (pep : Packet) (iq : Ipfq) : Queued (startQueue pep iq) := by
  refine Queued.ipfadd ⟨List.Pairwise.nil, ?_, ?_, ?_⟩ rfl rfl
  all_goals
    intro other member
    cases member

/-! ## Every event keeps the table -/

theorem ipreass_tabled (ipfqt : List Ipfq) (buffer pep : Packet) (tabled : Tabled ipfqt) :
    Tabled (ipreass ipfqt buffer pep).2 := by
  unfold ipreass
  split_ifs with fragment
  · cases found : ipfqt.find? (keyed pep) with
    | some iq =>
        obtain ⟨busy, id, src⟩ := (keyed_iff pep iq).mp (List.find?_some found)
        obtain ⟨before, after, rfl, _, joined⟩ := joinMatch_some buffer pep ipfqt iq found
        have queued := addAndJoin_queued buffer pep iq
          (tabled.queued iq (List.mem_of_find?_eq_some found)) src.symm id.symm
        have symmetric : ∀ {first second : Ipfq}, Apart first second → Apart second first :=
          fun apart => apart.symm
        have others :=
          (List.pairwise_cons.mp ((List.pairwise_middle symmetric).mp tabled.apart)).1
        rw [joined, Option.getD_some]
        apply tabled.replace _ queued.1
        intro other member _ otherBusy same
        rw [queued.2.1, queued.2.2] at same
        exact others other member busy otherBusy same
    | none =>
        rw [joinMatch_none buffer pep ipfqt found, Option.getD_none]
        rcases takeFree_eq pep ipfqt with same | ⟨before, iq, after, rfl, taken⟩
        · rw [same]
          exact tabled
        · rw [taken]
          apply tabled.replace _ (startQueue_queued pep iq)
          intro other member _ otherBusy same
          have absent : other ∈ before ++ iq :: after := by
            rcases List.mem_append.mp member with earlier | later
            · exact List.mem_append_left _ earlier
            · exact List.mem_append_right _ (List.mem_cons_of_mem iq later)
          apply List.find?_eq_none.mp found other absent
          exact (keyed_iff pep other).mpr ⟨otherBusy, same.1.symm, same.2.symm⟩
  · exact tabled

theorem expire_key (gran : Int) (iq : Ipfq) :
    (expire gran iq).ipfSrc = iq.ipfSrc ∧ (expire gran iq).ipfId = iq.ipfId ∧
      ((expire gran iq).ipfState = IpfState.free ∨
        (expire gran iq).ipfState = iq.ipfState) := by
  unfold expire
  split_ifs
  · exact ⟨rfl, rfl, Or.inr rfl⟩
  · exact ⟨rfl, rfl, Or.inl rfl⟩
  · exact ⟨rfl, rfl, Or.inr rfl⟩

theorem expire_queued (gran : Int) (iq : Ipfq) (queued : Queued iq) : Queued (expire gran iq) := by
  unfold expire
  split_ifs
  · exact queued
  · exact ⟨List.Pairwise.nil, by simp [release], by simp [release, Gpq.elements],
      by simp [release, Gpq.elements]⟩
  · exact ⟨queued.sorted, queued.keys, queued.src, queued.id⟩

theorem ipftimer_tabled (ipfqt : List Ipfq) (gran : Int) (tabled : Tabled ipfqt) :
    Tabled (ipftimer ipfqt gran) := by
  constructor
  · intro iq member
    obtain ⟨old, oldMember, rfl⟩ := List.mem_map.mp member
    exact expire_queued gran old (tabled.queued old oldMember)
  · apply List.pairwise_map.mpr
    apply tabled.apart.imp
    intro first second apart firstBusy secondBusy same
    obtain ⟨firstSrc, firstId, firstState⟩ := expire_key gran first
    obtain ⟨secondSrc, secondId, secondState⟩ := expire_key gran second
    rw [firstSrc, firstId, secondSrc, secondId] at same
    rcases firstState with gone | firstKept
    · exact firstBusy gone
    · rcases secondState with gone | secondKept
      · exact secondBusy gone
      · exact apart (firstKept ▸ firstBusy) (secondKept ▸ secondBusy) same

theorem step_tabled (ipfqt : List Ipfq) (event : Event) (tabled : Tabled ipfqt) :
    Tabled (step ipfqt event) := by
  cases event with
  | arrive buffer pep => exact ipreass_tabled ipfqt buffer pep tabled
  | timer gran => exact ipftimer_tabled ipfqt gran tabled

theorem ipfinit_tabled : Tabled ipfinit := by
  constructor
  · intro iq member
    rw [List.eq_of_mem_replicate member]
    exact ⟨List.Pairwise.nil, by simp [Gpq.newq], by simp [Gpq.newq, Gpq.elements],
      by simp [Gpq.newq, Gpq.elements]⟩
  · apply List.pairwise_replicate.mpr
    exact Or.inr fun busy => absurd rfl busy

/-! ## What the queue of a packet holds -/

theorem Tabled.eq_of_key {ipfqt : List Ipfq} (tabled : Tabled ipfqt) (iq other : Ipfq)
    (member : iq ∈ ipfqt) (otherMember : other ∈ ipfqt) (busy : iq.ipfState ≠ IpfState.free)
    (otherBusy : other.ipfState ≠ IpfState.free) (id : iq.ipfId = other.ipfId)
    (src : iq.ipfSrc = other.ipfSrc) : other = iq := by
  have symmetric : ∀ {first second : Ipfq}, Apart first second → Apart second first :=
    fun apart => apart.symm
  obtain ⟨before, after, rfl⟩ := List.append_of_mem member
  have others := (List.pairwise_cons.mp ((List.pairwise_middle symmetric).mp tabled.apart)).1
  by_contra different
  have elsewhere : other ∈ before ++ after := by
    rcases List.mem_append.mp otherMember with earlier | later
    · exact List.mem_append_left _ earlier
    · rcases List.mem_cons.mp later with same | behind
      · exact absurd same different
      · exact List.mem_append_right _ behind
  exact others other elsewhere busy otherBusy ⟨id, src⟩

theorem mem_held (ipfqt : List Ipfq) (pep other : Packet) :
    other ∈ held ipfqt pep ↔
      (∃ iq ∈ ipfqt, iq.ipfState = IpfState.valid ∧ other ∈ Gpq.elements iq.ipfQ) ∧
        identity other = identity pep := by
  simp only [held, List.mem_filter, List.mem_flatMap, decide_eq_true_eq, queuedIn]
  constructor
  · rintro ⟨⟨iq, member, queued⟩, same⟩
    split_ifs at queued with valid
    · exact ⟨⟨iq, member, valid, queued⟩, same⟩
    · cases queued
  · rintro ⟨⟨iq, member, valid, queued⟩, same⟩
    refine ⟨⟨iq, member, ?_⟩, same⟩
    rw [if_pos valid]
    exact queued

/-- A queued fragment of the datagram is in the entry with the key of the packet. -/
theorem keyed_of_held {ipfqt : List Ipfq} (tabled : Tabled ipfqt) (pep other : Packet)
    (heldOther : other ∈ held ipfqt pep) :
    ∃ iq ∈ ipfqt, keyed pep iq = true ∧ iq.ipfState = IpfState.valid ∧
      other ∈ Gpq.elements iq.ipfQ := by
  obtain ⟨⟨iq, member, valid, queued⟩, same⟩ := (mem_held ipfqt pep other).mp heldOther
  have entry := tabled.queued iq member
  have id : ipId other = ipId pep := congrArg Identity.id same
  have src : ipSrc other = ipSrc pep := congrArg Identity.src same
  refine ⟨iq, member, (keyed_iff pep iq).mpr ⟨?_, ?_, ?_⟩, valid, queued⟩
  · rw [valid]
    exact IpfState.noConfusion
  · rw [← entry.id other queued, id]
  · rw [← entry.src other queued, src]

theorem held_of_unkeyed {ipfqt : List Ipfq} (tabled : Tabled ipfqt) (pep : Packet)
    (absent : ipfqt.find? (keyed pep) = none) : held ipfqt pep = [] := by
  apply List.eq_nil_iff_forall_not_mem.mpr
  intro other heldOther
  obtain ⟨iq, member, matched, _⟩ := keyed_of_held tabled pep other heldOther
  exact List.find?_eq_none.mp absent iq member matched

theorem mem_of_added {ipfqt : List Ipfq} (tabled : Tabled ipfqt) (pep : Packet) (iq after : Ipfq)
    (found : ipfqt.find? (keyed pep) = some iq) (added : ipfadd iq pep = (true, after))
    (orderly : Orderly (Gpq.elements after.ipfQ)) (other : Packet) :
    other ∈ Gpq.elements after.ipfQ ↔ other ∈ pep :: held ipfqt pep := by
  obtain ⟨busy, id, src⟩ := (keyed_iff pep iq).mp (List.find?_some found)
  have member := List.mem_of_find?_eq_some found
  have entry := tabled.queued iq member
  obtain ⟨valid, left, queue, accepted, rfl⟩ := ipfadd_true iq after pep added
  have members := Gpq.enq_elements iq.ipfQ queue pep _ left accepted
  have own : pep ∈ Gpq.elements queue := (members pep).mpr (Or.inl rfl)
  rw [members, List.mem_cons]
  apply or_congr_right
  constructor
  · intro queued
    obtain ⟨dst, proto⟩ := orderly.one other ((members other).mpr (Or.inr queued)) pep own
    apply (mem_held ipfqt pep other).mpr
    refine ⟨⟨iq, member, valid, queued⟩, ?_⟩
    simp only [identity, Identity.mk.injEq]
    exact ⟨(entry.src other queued).trans src, dst, proto, (entry.id other queued).trans id⟩
  · intro heldOther
    obtain ⟨entryOther, memberOther, matched, _, queued⟩ :=
      keyed_of_held tabled pep other heldOther
    obtain ⟨otherBusy, otherId, otherSrc⟩ := (keyed_iff pep entryOther).mp matched
    have same := tabled.eq_of_key iq entryOther member memberOther busy otherBusy
      (id.trans otherId.symm) (src.trans otherSrc.symm)
    rw [← same]
    exact queued

/-! ## Complete fragments and the scan -/

theorem Complete.congr {frags others : List Packet}
    (same : ∀ pep, pep ∈ frags ↔ pep ∈ others) (complete : Complete frags) : Complete others := by
  obtain ⟨last, member, closing, covers⟩ := complete
  exact ⟨last, (same last).mp member, closing, covers.of_mem fun pep => (same pep).mp⟩

theorem complete_of_construct (frags : List Packet) (nonempty : frags ≠ [])
    (construct : joinVerdict frags = Verdict.construct) : Complete frags := by
  obtain ⟨gapless, _, closing⟩ := (joinVerdict_construct frags).mp construct
  have covers := Spans.covers_of_gapless frags gapless
  rw [Spans.finish_getLast 0 frags nonempty] at covers
  exact ⟨frags.getLast nonempty, List.getLast_mem nonempty,
    closing _ (List.getLast?_eq_getLast_of_ne_nil nonempty), covers⟩

/-- Behind a fragment without more fragments nothing ends elsewhere. -/
theorem InOrder.last {frags : List Packet} (inOrder : InOrder frags) (nonempty : frags ≠ [])
    (closing : Packet) (member : closing ∈ frags) (closed : moreFragments closing = false) :
    moreFragments (frags.getLast nonempty) = false ∧
      packend (frags.getLast nonempty) = packend closing := by
  have final := List.dropLast_append_getLast nonempty
  rw [← final] at member
  rcases List.mem_append.mp member with earlier | same
  · have order := inOrder.closing
    rw [← final] at order
    exact (List.pairwise_append.mp order).2.2 closing earlier _ (List.mem_singleton_self _) closed
  · rw [← List.mem_singleton.mp same]
    exact ⟨closed, rfl⟩

theorem construct_of_complete (frags : List Packet)
    (offsets : frags.Pairwise fun first second => packoff first ≤ packoff second)
    (orderly : Orderly frags) (complete : Complete frags) :
    joinVerdict frags = Verdict.construct := by
  have inOrder := orderly.inOrder complete
  obtain ⟨closing, member, closed, covers⟩ := complete
  have nonempty := List.ne_nil_of_mem member
  obtain ⟨lastClosed, lastEnd⟩ := inOrder.last nonempty closing member closed
  have final := List.getLast?_eq_getLast_of_ne_nil nonempty
  apply (joinVerdict_construct frags).mpr
  refine ⟨?_, ?_, ?_⟩
  · apply Spans.gapless_of_occupied 0 (packend closing) frags offsets inOrder.rising
    · intro pep queued
      exact packend_nonneg pep (orderly.lengths pep queued)
    · intro pep queued
      exact packoff_le_packend pep (orderly.lengths pep queued)
    · intro pep queued
      rw [← lastEnd]
      exact Spans.stop_le_last frags inOrder.rising _ final pep queued
    · exact covers
  · rw [Spans.finish_getLast 0 frags nonempty]
    exact inOrder.small _ (List.getLast_mem nonempty)
  · intro last found
    rw [final] at found
    cases found
    exact lastClosed

theorem copies_lengths (off seq : Int) (frags : List Packet)
    (rising : List.IsChain (fun first second : Int => first ≤ second) (seq :: frags.map packend)) :
    ∀ copy ∈ copies off seq frags, 0 ≤ copy.dlen := by
  induction frags generalizing off seq with
  | nil =>
      intro copy member
      cases member
  | cons peptmp rest ih =>
      rw [List.map_cons, List.isChain_cons_cons] at rising
      rw [copies_cons, List.forall_mem_cons]
      refine ⟨?_, ih _ _ rising.2⟩
      change 0 ≤ packend peptmp - seq
      have first := rising.1
      omega

theorem chain_of_rising (frags : List Packet)
    (lengths : ∀ pep ∈ frags, ipHlen pep ≤ ipLen pep)
    (rising : frags.Pairwise fun first second => packend first ≤ packend second) :
    List.IsChain (fun first second : Int => first ≤ second) (0 :: frags.map packend) := by
  apply List.isChain_iff_pairwise.mpr
  apply List.pairwise_cons.mpr
  refine ⟨?_, List.pairwise_map.mpr rising⟩
  intro value member
  obtain ⟨pep, queued, rfl⟩ := List.mem_map.mp member
  exact packend_nonneg pep (lengths pep queued)

theorem ipfcons_of_rising (buffer : Packet) (frags : List Packet) (nonempty : frags ≠ [])
    (lengths : ∀ pep ∈ frags, ipHlen pep ≤ ipLen pep)
    (rising : frags.Pairwise fun first second => packend first ≤ packend second) :
    ∃ result, ipfcons buffer frags = some result := by
  obtain ⟨first, rest, rfl⟩ := List.exists_cons_of_ne_nil nonempty
  have chain := chain_of_rising (first :: rest) lengths rising
  have all : (consCopies (first :: rest)).all (fun copy => decide (0 ≤ copy.dlen)) = true := by
    apply List.all_eq_true.mpr
    intro copy member
    exact decide_eq_true (copies_lengths _ 0 _ chain copy member)
  simp only [ipfcons]
  rw [if_pos all]
  exact ⟨_, rfl⟩

/-! ## One arrival -/

theorem ipfjoin_packet (buffer : Packet) (iq : Ipfq) (valid : iq.ipfState = IpfState.valid)
    (result : Packet) :
    (ipfjoin buffer iq).1 = Outcome.packet result ↔
      joinVerdict (Gpq.elements iq.ipfQ) = Verdict.construct ∧
        ipfcons buffer (Gpq.elements iq.ipfQ) = some result := by
  have usable : iq.ipfState ≠ IpfState.bogus := by
    rw [valid]
    exact IpfState.noConfusion
  unfold ipfjoin
  rw [if_neg usable]
  cases joinVerdict (Gpq.elements iq.ipfQ) with
  | wait => simp
  | tooBig => simp
  | construct => cases ipfcons buffer (Gpq.elements iq.ipfQ) <;> simp

/-- A fragment alone is never complete: it starts behind 0 or has more behind it. -/
theorem not_complete_alone (pep : Packet) (fragment : isFragment pep = true)
    (valid : ipHlen pep ≤ ipLen pep) : ¬ Complete [pep] := by
  rintro ⟨last, member, closed, covers⟩
  rw [List.mem_singleton.mp member] at closed covers
  rw [isFragment, closed, Bool.or_false, decide_eq_true_eq] at fragment
  have start : 0 < packoff pep := by
    unfold packoff
    omega
  have stop := packoff_le_packend pep valid
  obtain ⟨item, same, low, _⟩ := covers 0 le_rfl (by omega)
  rw [List.mem_singleton.mp same] at low
  omega

theorem proper_of_orderly (ipfqt : List Ipfq) (tabled : Tabled ipfqt) (buffer pep : Packet)
    (orderly : OrderlyArrival ipfqt (Event.arrive buffer pep)) : Proper ipfqt buffer pep := by
  intro fragment
  have queues := orderly fragment
  unfold ipreass
  rw [if_pos fragment]
  cases found : ipfqt.find? (keyed pep) with
  | none =>
      rw [joinMatch_none buffer pep ipfqt found, Option.getD_none, held_of_unkeyed tabled pep found]
      simp only [queueFor, found] at queues ⊢
      refine ⟨⟨?_, ?_⟩, ?_⟩
      · rintro ⟨result, impossible⟩
        cases impossible
      · rintro ⟨taken, complete⟩
        obtain ⟨iq, taken⟩ := Option.isSome_iff_exists.mp taken
        have started := queues iq taken
        obtain ⟨free, _, rfl⟩ := Option.map_eq_some_iff.mp taken
        rw [startQueue_elements] at started
        exact absurd complete
          (not_complete_alone pep fragment (started.lengths pep (List.mem_singleton_self pep)))
      · intro result impossible
        cases impossible
  | some iq =>
      obtain ⟨before, after, _, _, joined⟩ := joinMatch_some buffer pep ipfqt iq found
      rw [joined, Option.getD_some]
      simp only [queueFor, found, addAndJoin] at queues ⊢
      cases accepted : (ipfadd iq pep).1 with
      | false => simp
      | true =>
          rw [accepted, if_pos rfl] at queues
          have added : ipfadd iq pep = (true, (ipfadd iq pep).2) := Prod.ext accepted rfl
          have queue := queues _ rfl
          have members := mem_of_added tabled pep iq _ found added queue
          obtain ⟨busy, id, src⟩ := (keyed_iff pep iq).mp (List.find?_some found)
          have entry := (tabled.queued iq (List.mem_of_find?_eq_some found)).ipfadd
            src.symm id.symm
          have valid : (ipfadd iq pep).2.ipfState = IpfState.valid := by
            obtain ⟨valid, left, queue, _, after⟩ := ipfadd_true iq _ pep added
            rw [after]
            exact valid
          have nonempty : Gpq.elements (ipfadd iq pep).2.ipfQ ≠ [] :=
            List.ne_nil_of_mem ((members pep).mpr List.mem_cons_self)
          simp only [if_true, Option.isSome_some, true_and,
            ipfjoin_packet buffer _ valid]
          refine ⟨⟨?_, ?_⟩, ?_⟩
          · rintro ⟨result, construct, _⟩
            exact (complete_of_construct _ nonempty construct).congr members
          · intro complete
            have queued := complete.congr fun other => (members other).symm
            obtain ⟨result, built⟩ := ipfcons_of_rising buffer _ nonempty queue.lengths
              (queue.inOrder queued).rising
            exact ⟨result, construct_of_complete _ entry.offsets queue queued, built⟩
          · rintro result ⟨_, built⟩
            refine ⟨_, built, ?_⟩
            intro other queued
            have listed := (members other).mp queued
            refine ⟨listed, ?_⟩
            rcases List.mem_cons.mp listed with same | heldOther
            · rw [same]
            · exact ((mem_held ipfqt pep other).mp heldOther).2

/-! ## Runs -/

def zeros : Packet := fun _ => 0

def twoPieces : List Event :=
  [Event.arrive zeros (piece 0 true 8), Event.arrive zeros (piece 1 false 8)]

instance (frags : List Packet) : Decidable (InOrder frags) :=
  decidable_of_iff
    ((frags.Pairwise fun first second => packend first ≤ packend second) ∧
      (frags.Pairwise fun first second => moreFragments first = false →
        moreFragments second = false ∧ packend second = packend first) ∧
      ∀ pep ∈ frags, packend pep ≤ maxLrgbuf)
    ⟨fun parts => ⟨parts.1, parts.2.1, parts.2.2⟩,
      fun inOrder => ⟨inOrder.rising, inOrder.closing, inOrder.small⟩⟩

/-- A queue of whole fragments in order is orderly, complete or not. -/
def WholeInOrder (frags : List Packet) : Prop :=
  (∀ first ∈ frags, ∀ second ∈ frags,
      ipDst first = ipDst second ∧ ipProto first = ipProto second) ∧
    (∀ pep ∈ frags, ipHlen pep ≤ ipLen pep) ∧ InOrder frags

instance (frags : List Packet) : Decidable (WholeInOrder frags) :=
  inferInstanceAs (Decidable (_ ∧ _))

theorem orderlyArrival_of_inOrder (ipfqt : List Ipfq) (buffer pep : Packet)
    (checked : ∀ iq ∈ queueFor ipfqt pep, WholeInOrder (Gpq.elements iq.ipfQ)) :
    OrderlyArrival ipfqt (Event.arrive buffer pep) := by
  intro _ iq found
  obtain ⟨one, lengths, inOrder⟩ := checked iq found
  exact ⟨one, lengths, fun _ => inOrder⟩

/-- The second fragment lies inside the first one, and the third starts where the first
one ends. -/
def innerPiece : List Event :=
  [Event.arrive zeros (piece 0 true 24), Event.arrive zeros (piece 1 true 8)]

end MvsXinu.Ip
