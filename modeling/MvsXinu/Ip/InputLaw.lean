import Mathlib.Algebra.BigOperators.Group.Finset.Basic
import Mathlib.Algebra.Order.BigOperators.Group.Finset
import MvsXinu.Ip.InputQueue

/-!
# No input packet is stranded

Whenever an interface that is up has a packet, `ipproc` is outside `ipgetp`, or has a message,
or will still look at the interface in the scan it is in.
-/

namespace MvsXinu.IpInput

open MvsXinu.Runs MvsXinu.Ranks MvsXinu.Gpq
open MvsXinu.Kernel (Pentry Pstate)

set_option autoImplicit false

variable {Packet : Type*}

/-! ## The queues -/

/-- `enq` scans from the tail, the end of the list. -/
theorem enq_place {Elt : Type*} {queue after : Queue Elt} {elt : Elt} {key : Int} {left : Nat}
    (accepted : enq queue elt key = some (left, after)) :
    after.items.reverse = place Prod.fst key (key, elt) queue.items.reverse := by
  simp only [enq] at accepted
  split at accepted
  · cases accepted
  · rw [← (Prod.mk.inj (Option.some.inj accepted)).2]
    have sameLower : (fun item : Int × Elt => decide (item.1 < key)) = lower Prod.fst key := rfl
    simp only [sameLower, List.rdropWhile, List.rtakeWhile, place, List.reverse_append,
      List.reverse_cons, List.reverse_reverse, List.append_assoc, List.singleton_append]

def itemNumber (item : Int × Arrival Packet) : Nat := item.2.number

/-- Each queue is in order, and what was accepted has been returned or is on it. -/
structure Stored (w : Input Packet) : Prop where
  ordered : ∀ q, Ranked Prod.fst itemNumber (w.queues q).items.reverse
  keyed : ∀ q, ∀ item ∈ (w.queues q).items, item.1 = item.2.key
  past : ∀ q, ∀ item ∈ (w.queues q).items, item.2.number < w.arrivals
  once : ∀ q, (w.accepted q).Perm (w.returned q ++ elements (w.queues q))
  numbered : ∀ q, ∀ arrival ∈ w.accepted q, arrival.number < w.arrivals
  distinct : ∀ q, ((w.accepted q).map Arrival.number).Nodup

theorem Stored.enqueue {w queued : Input Packet} (stored : Stored w) {q : Nat} {key : Int}
    {packet : Packet} (enqueued : w.enqueue q key packet = some queued) : Stored queued := by
  simp only [Input.enqueue] at enqueued
  split at enqueued
  · cases enqueued
  · rename_i left queue accepted
    rw [← Option.some.inj enqueued]
    have placed := enq_place accepted
    have items := enq_items _ _ _ _ _ accepted
    constructor
    · intro other
      by_cases same : other = q
      · rw [same]
        simp only [Function.update_self, placed]
        have newest : ∀ item ∈ (w.queues q).items.reverse, itemNumber item <
            itemNumber (key, { number := w.arrivals, key := key, packet := packet }) := by
          intro item member
          exact stored.past q item (List.mem_reverse.mp member)
        exact (stored.ordered q).place newest
      · simp only [Function.update_of_ne same]
        exact stored.ordered other
    · intro other item member
      by_cases same : other = q
      · rw [same] at member
        simp only [Function.update_self] at member
        rcases (items item).mp member with isNew | before
        · rw [isNew]
        · exact stored.keyed q item before
      · simp only [Function.update_of_ne same] at member
        exact stored.keyed other item member
    · intro other item member
      show item.2.number < w.arrivals + 1
      by_cases same : other = q
      · rw [same] at member
        simp only [Function.update_self] at member
        rcases (items item).mp member with isNew | before
        · rw [isNew]
          exact Nat.lt_succ_self _
        · exact Nat.lt_succ_of_lt (stored.past q item before)
      · simp only [Function.update_of_ne same] at member
        exact Nat.lt_succ_of_lt (stored.past other item member)
    · intro other
      by_cases same : other = q
      · rw [same]
        simp only [Function.update_self]
        have middle := (enq_perm accepted).append_left (w.returned q)
        have before := (stored.once q).append_right
          [{ number := w.arrivals, key := key, packet := packet }]
        rw [List.append_assoc] at before
        apply before.trans
        apply List.Perm.trans _ middle.symm
        exact (List.perm_append_singleton _ _).append_left _
      · simp only [Function.update_of_ne same]
        exact stored.once other
    · intro other arrival member
      show arrival.number < w.arrivals + 1
      by_cases same : other = q
      · rw [same] at member
        simp only [Function.update_self] at member
        rcases List.mem_append.mp member with before | isNew
        · exact Nat.lt_succ_of_lt (stored.numbered q arrival before)
        · rw [List.mem_singleton.mp isNew]
          exact Nat.lt_succ_self _
      · simp only [Function.update_of_ne same] at member
        exact Nat.lt_succ_of_lt (stored.numbered other arrival member)
    · intro other
      by_cases same : other = q
      · rw [same]
        simp only [Function.update_self, List.map_append, List.map_cons, List.map_nil]
        rw [List.nodup_append]
        refine ⟨stored.distinct q, List.nodup_singleton _, ?_⟩
        intro number member last isLast equal
        rcases List.mem_map.mp member with ⟨arrival, isAccepted, isNumber⟩
        have earlier := stored.numbered q arrival isAccepted
        rw [List.mem_singleton.mp isLast] at equal
        omega
      · simp only [Function.update_of_ne same]
        exact stored.distinct other

/-- A packet is taken from the head of a queue. -/
theorem Stored.take {w : Input Packet} (stored : Stored w) {q : Nat} {arrival : Arrival Packet}
    {queue : Queue (Arrival Packet)} (taken : deq (w.queues q) = some (arrival, queue))
    (entry : Pentry) (phase : Phase) (ifnext : Int) :
    Stored { w with
      queues := Function.update w.queues q queue
      returned := Function.update w.returned q (w.returned q ++ [arrival])
      entry := entry
      phase := phase
      ifnext := ifnext } := by
  have shape : ∃ key, (w.queues q).items = (key, arrival) :: queue.items := by
    simp only [deq] at taken
    split at taken
    · cases taken
    · rename_i item rest shape
      rcases Prod.mk.inj (Option.some.inj taken) with ⟨isArrival, isQueue⟩
      refine ⟨item.1, ?_⟩
      rw [shape, ← isArrival, ← isQueue]
  rcases shape with ⟨key, shape⟩
  have subset : ∀ item ∈ queue.items, item ∈ (w.queues q).items := by
    intro item member
    rw [shape]
    exact List.mem_cons_of_mem _ member
  constructor
  · intro other
    by_cases same : other = q
    · rw [same]
      simp only [Function.update_self]
      have ordered := stored.ordered q
      rw [shape, List.reverse_cons] at ordered
      exact (List.pairwise_append.mp ordered).1
    · simp only [Function.update_of_ne same]
      exact stored.ordered other
  · intro other item member
    by_cases same : other = q
    · rw [same] at member
      simp only [Function.update_self] at member
      exact stored.keyed q item (subset item member)
    · simp only [Function.update_of_ne same] at member
      exact stored.keyed other item member
  · intro other item member
    by_cases same : other = q
    · rw [same] at member
      simp only [Function.update_self] at member
      exact stored.past q item (subset item member)
    · simp only [Function.update_of_ne same] at member
      exact stored.past other item member
  · intro other
    by_cases same : other = q
    · rw [same]
      simp only [Function.update_self, List.append_assoc, List.singleton_append]
      have whole := stored.once q
      rw [deq_elements _ _ _ taken] at whole
      exact whole
    · simp only [Function.update_of_ne same]
      exact stored.once other
  · exact stored.numbered
  · exact stored.distinct

/-! ## The scan -/

variable {net : Interfaces}

/-- How many interfaces the scan looks at before this one. -/
def distance (net : Interfaces) (ifnext : Int) (iface : Nat) : Int :=
  if visited net ifnext ≤ iface then iface - visited net ifnext
  else iface + net.nif - visited net ifnext

theorem visited_bounds {ifnext : Int} (natural : 0 ≤ ifnext) (some : 0 < net.nif) :
    0 ≤ visited net ifnext ∧ visited net ifnext < net.nif := by
  simp only [visited]
  split
  · omega
  · omega

theorem distance_lt {ifnext : Int} (natural : 0 ≤ ifnext) {iface : Nat}
    (isIface : iface < net.nif) : 0 ≤ distance net ifnext iface ∧
      distance net ifnext iface < net.nif := by
  have bounds := visited_bounds natural (show 0 < net.nif by omega)
  simp only [distance]
  split
  · omega
  · omega

theorem distance_zero {ifnext : Int} (natural : 0 ≤ ifnext) {iface : Nat}
    (isIface : iface < net.nif) (zero : distance net ifnext iface = 0) :
    (visited net ifnext).toNat = iface := by
  have bounds := visited_bounds natural (show 0 < net.nif by omega)
  simp only [distance] at zero
  split at zero
  · omega
  · omega

/-- Looking at another interface brings the scan one nearer. -/
theorem distance_next {ifnext : Int} (natural : 0 ≤ ifnext) {iface : Nat}
    (isIface : iface < net.nif) (other : distance net ifnext iface ≠ 0) :
    distance net (visited net ifnext + 1) iface = distance net ifnext iface - 1 := by
  have bounds := visited_bounds natural (show 0 < net.nif by omega)
  have next : visited net (visited net ifnext + 1) =
      if visited net ifnext + 1 ≥ net.nif then 0 else visited net ifnext + 1 := rfl
  simp only [distance] at other ⊢
  rw [next]
  split_ifs at other ⊢ <;> omega

/-! ## The message slot -/

/-- Where `ipproc` is and what its slot holds. -/
structure Slot (w : Input Packet) : Prop where
  next : 0 ≤ w.ifnext
  index : w.entry.phasmsg ≠ 0 → 0 ≤ w.entry.pmsg.toInt
  blocks : w.blocked → w.phase = .receiving ∧ w.entry.phasmsg = 0
  serves : w.phase = .receiving → w.blocked ∨ w.entry.phasmsg ≠ 0
  alive : w.entry.pstate ≠ .free

/-- A packet on an interface that is up will be seen. -/
def Covered (net : Interfaces) (w : Input Packet) : Prop :=
  ∀ iface < net.nif, net.down iface = false → (w.queues (net.ipinq iface)).items ≠ [] →
    w.phase = .away ∨ w.entry.phasmsg ≠ 0 ∨
      ∃ i : Nat, w.phase = .scan i ∧ distance net w.ifnext iface + i < net.nif

structure Input.Sound (net : Interfaces) (w : Input Packet) : Prop where
  stored : Stored w
  slot : Slot w
  covered : Covered net w

theorem emptyInput_sound : (emptyInput : Input Packet).Sound net where
  stored := by
    constructor
    · intro q
      exact List.Pairwise.nil
    · intro q item member
      exact absurd member List.not_mem_nil
    · intro q item member
      exact absurd member List.not_mem_nil
    · intro q
      exact List.Perm.refl _
    · intro q arrival member
      exact absurd member List.not_mem_nil
    · intro q
      exact List.nodup_nil
  slot := by
    constructor
    · exact Int.le_refl 0
    · intro pending
      exact absurd rfl pending
    · intro blocked
      cases blocked
    · intro receiving
      cases receiving
    · intro isFree
      cases isFree
  covered := fun iface isIface up some => Or.inl rfl

theorem index_nonneg {iface : Nat} (small : iface < 2 ^ 31) :
    0 ≤ (BitVec.ofNat 32 iface).toInt := by
  have value : (BitVec.ofNat 32 iface).toNat = iface := by
    rw [BitVec.toNat_ofNat]
    omega
  rw [BitVec.toInt_eq_toNat_of_lt]
  · omega
  · omega

/-- A message covers everything: `ipproc` will scan again. -/
theorem send_sound {w : Input Packet} (stored : Stored w) (slot : Slot w) {iface : Nat}
    (small : iface < 2 ^ 31) : (w.send iface).Sound net := by
  have pending : (w.send iface).entry.phasmsg ≠ 0 := by
    simp only [Input.send, sentTo]
    split
    · rename_i refused
      exact refused.resolve_left slot.alive
    · intro zero
      cases zero
  constructor
  · exact { stored with }
  · constructor
    · exact slot.next
    · intro _
      simp only [Input.send, sentTo]
      split
      · rename_i refused
        exact slot.index (refused.resolve_left slot.alive)
      · exact index_nonneg small
    · intro blocked
      simp only [Input.blocked, Input.send, sentTo] at blocked
      split at blocked
      · rename_i refused
        have nothing := (slot.blocks blocked).2
        exact absurd nothing (refused.resolve_left slot.alive)
      · cases state : w.entry.pstate with
        | _ =>
            rw [state] at blocked
            cases blocked
    · intro _
      exact Or.inr pending
    · simp only [Input.send, sentTo]
      split
      · exact slot.alive
      · cases state : w.entry.pstate with
        | free => exact absurd state slot.alive
        | _ =>
            intro isFree
            cases isFree
  · intro other isIface up some
    exact Or.inr (Or.inl pending)

theorem Slot.enqueue {w queued : Input Packet} (slot : Slot w) {q : Nat} {key : Int}
    {packet : Packet} (enqueued : w.enqueue q key packet = some queued) : Slot queued := by
  simp only [Input.enqueue] at enqueued
  split at enqueued
  · cases enqueued
  · rw [← Option.some.inj enqueued]
    exact { slot with }

theorem ipIn_sound {w : Input Packet} (sound : w.Sound net) {iface : Nat}
    (isIface : iface < net.nif) (tos : BitVec 8) (packet : Packet) :
    (ipIn net w iface tos packet).Sound net := by
  have small := net.small
  simp only [ipIn]
  split
  · exact sound
  · rename_i queued enqueued
    exact send_sound (sound.stored.enqueue enqueued) (sound.slot.enqueue enqueued) (by omega)

theorem ipsend_sound {w : Input Packet} (sound : w.Sound net) (packet : Packet) :
    (ipsend net w packet).Sound net := by
  simp only [ipsend]
  cases enqueued : w.enqueue (net.ipinq niLocal) 0 packet with
  | none => exact send_sound sound.stored sound.slot (by decide)
  | some queued =>
      exact send_sound (sound.stored.enqueue enqueued) (sound.slot.enqueue enqueued) (by decide)

/-! ## The turns of `ipproc` -/

def dispatched (w : Input Packet) : Input Packet :=
  { w with entry := { w.entry with pstate := .curr } }

theorem ipproc_turn {w : Input Packet} (runs : ¬ w.blocked) :
    inputStep net w .ipproc = ipgetp net (dispatched w) := if_neg runs

theorem clears_sound {w : Input Packet} (sound : w.Sound net) :
    Input.Sound net { dispatched w with
      entry := { (dispatched w).entry with phasmsg := 0 }, phase := .scan 0 } where
  stored := { sound.stored with }
  slot := by
    constructor
    · exact sound.slot.next
    · intro pending
      exact absurd rfl pending
    · intro blocked
      cases blocked
    · intro receiving
      cases receiving
    · intro isFree
      cases isFree
  covered := by
    intro iface isIface up some
    right
    right
    have near : distance net w.ifnext iface < net.nif :=
      (distance_lt sound.slot.next isIface).2
    refine ⟨0, rfl, ?_⟩
    show distance net w.ifnext iface + ((0 : Nat) : Int) < net.nif
    omega

/-- The message is taken, and every interface is looked at again. -/
theorem received_sound {w : Input Packet} (sound : w.Sound net)
    (pending : w.entry.phasmsg ≠ 0) : ((dispatched w).received).Sound net where
  stored := { sound.stored with }
  slot := by
    constructor
    · exact sound.slot.index pending
    · intro stillPending
      exact absurd rfl stillPending
    · intro blocked
      cases blocked
    · intro receiving
      cases receiving
    · intro isFree
      cases isFree
  covered := by
    intro iface isIface up some
    right
    right
    have near : distance net w.entry.pmsg.toInt iface < net.nif :=
      (distance_lt (sound.slot.index pending) isIface).2
    refine ⟨0, rfl, ?_⟩
    show distance net w.entry.pmsg.toInt iface + ((0 : Nat) : Int) < net.nif
    omega

theorem waits_sound {w : Input Packet} (sound : w.Sound net) {i : Nat} (phase : w.phase = .scan i)
    (beyond : ¬ i < net.nif) (nothing : w.entry.phasmsg = 0) :
    Input.Sound net { dispatched w with
      entry := { (dispatched w).entry with pstate := .recv }, phase := .receiving } where
  stored := { sound.stored with }
  slot := by
    constructor
    · exact sound.slot.next
    · exact sound.slot.index
    · intro _
      exact ⟨rfl, nothing⟩
    · intro _
      exact Or.inl rfl
    · intro isFree
      cases isFree
  covered := by
    intro iface isIface up some
    rcases sound.covered iface isIface up some with away | pending | seen
    · rw [phase] at away
      cases away
    · exact absurd nothing pending
    · rcases seen with ⟨j, isPhase, near⟩
      rw [phase] at isPhase
      cases isPhase
      have far : 0 ≤ distance net w.ifnext iface := (distance_lt sound.slot.next isIface).1
      omega

theorem niget_none {w : Input Packet} {iface : Nat} (up : net.down iface = false)
    (here : (visited net w.ifnext).toNat = iface) (none : niget net w = none) :
    (w.queues (net.ipinq iface)).items = [] := by
  simp only [niget, here, up, Bool.false_eq_true, if_false, deq] at none
  split at none
  · rename_i empty
    exact empty
  · cases none

/-- The scan goes on past an interface that is down or has nothing. -/
theorem passes_sound {w : Input Packet} (sound : w.Sound net) {i : Nat} (phase : w.phase = .scan i)
    (inside : i < net.nif) (none : niget net w = none) :
    Input.Sound net { dispatched w with
      phase := .scan (i + 1), ifnext := visited net w.ifnext + 1 } where
  stored := { sound.stored with }
  slot := by
    constructor
    · have bounds : 0 ≤ visited net w.ifnext ∧ visited net w.ifnext < net.nif :=
        visited_bounds sound.slot.next (by omega)
      show 0 ≤ visited net w.ifnext + 1
      omega
    · exact sound.slot.index
    · intro blocked
      cases blocked
    · intro receiving
      cases receiving
    · intro isFree
      cases isFree
  covered := by
    intro iface isIface up some
    rcases sound.covered iface isIface up some with away | pending | seen
    · rw [phase] at away
      cases away
    · exact Or.inr (Or.inl pending)
    · rcases seen with ⟨j, isPhase, near⟩
      rw [phase] at isPhase
      cases isPhase
      have elsewhere : distance net w.ifnext iface ≠ 0 := by
        intro zero
        have here := distance_zero sound.slot.next isIface zero
        have empty : (w.queues (net.ipinq iface)).items = [] := niget_none up here none
        exact some empty
      have nearer := distance_next sound.slot.next isIface elsewhere
      right
      right
      refine ⟨i + 1, rfl, ?_⟩
      show distance net (visited net w.ifnext + 1) iface + ((i + 1 : Nat) : Int) < net.nif
      push_cast
      omega

theorem niget_some {w : Input Packet} {arrival : Arrival Packet}
    {queue : Queue (Arrival Packet)} (found : niget net w = some (arrival, queue)) :
    net.down (visited net w.ifnext).toNat = false ∧
      deq (w.queues (net.ipinq (visited net w.ifnext).toNat)) = some (arrival, queue) := by
  simp only [niget] at found
  split at found
  · cases found
  · rename_i up
    exact ⟨by simpa using up, found⟩

def Input.hands (net : Interfaces) (w : Input Packet) (arrival : Arrival Packet)
    (queue : Queue (Arrival Packet)) : Input Packet :=
  let q := net.ipinq (visited net w.ifnext).toNat
  { w with
    queues := Function.update w.queues q queue
    phase := .away
    ifnext := visited net w.ifnext
    returned := Function.update w.returned q (w.returned q ++ [arrival]) }

theorem hands_sound {w : Input Packet} (sound : w.Sound net) {i : Nat} (inside : i < net.nif)
    {arrival : Arrival Packet} {queue : Queue (Arrival Packet)}
    (found : niget net w = some (arrival, queue)) :
    ((dispatched w).hands net arrival queue).Sound net where
  stored := sound.stored.take (niget_some found).2 _ _ _
  slot := by
    constructor
    · have bounds : 0 ≤ visited net w.ifnext ∧ visited net w.ifnext < net.nif :=
        visited_bounds sound.slot.next (by omega)
      exact bounds.1
    · exact sound.slot.index
    · intro blocked
      cases blocked
    · intro receiving
      cases receiving
    · intro isFree
      cases isFree
  covered := fun iface isIface up some => Or.inl rfl

/-- A turn of `ipproc` is one of these. -/
inductive Turned (net : Interfaces) (w : Input Packet) : Input Packet → Prop
  | waits (blocked : w.blocked) : Turned net w w
  | clears (away : w.phase = .away) : Turned net w { dispatched w with
      entry := { (dispatched w).entry with phasmsg := 0 }, phase := .scan 0 }
  | passes (i : Nat) (phase : w.phase = .scan i) (inside : i < net.nif)
      (none : niget net w = none) : Turned net w { dispatched w with
        phase := .scan (i + 1), ifnext := visited net w.ifnext + 1 }
  | hands (i : Nat) (phase : w.phase = .scan i) (inside : i < net.nif) (arrival : Arrival Packet)
      (queue : Queue (Arrival Packet)) (found : niget net w = some (arrival, queue)) :
      Turned net w ((dispatched w).hands net arrival queue)
  | blocks (i : Nat) (phase : w.phase = .scan i) (beyond : ¬ i < net.nif)
      (nothing : w.entry.phasmsg = 0) : Turned net w { dispatched w with
        entry := { (dispatched w).entry with pstate := .recv }, phase := .receiving }
  | takes (pending : w.entry.phasmsg ≠ 0)
      (phase : w.phase = .receiving ∨ ∃ i, w.phase = .scan i ∧ ¬ i < net.nif) :
      Turned net w (dispatched w).received

theorem turned {w : Input Packet} (slot : Slot w) : Turned net w (inputStep net w .ipproc) := by
  by_cases blocked : w.blocked
  · rw [show inputStep net w .ipproc = w from if_pos blocked]
    exact Turned.waits blocked
  · rw [ipproc_turn blocked]
    cases phase : w.phase with
    | away =>
        have same : (dispatched w).phase = .away := phase
        simp only [ipgetp, same]
        exact Turned.clears phase
    | scan i =>
        have same : (dispatched w).phase = .scan i := phase
        simp only [ipgetp, same]
        split
        · rename_i inside
          split
          · rename_i none
            exact Turned.passes i phase inside none
          · rename_i arrival queue found
            exact Turned.hands i phase inside arrival queue found
        · rename_i beyond
          split
          · rename_i nothing
            exact Turned.blocks i phase beyond nothing
          · rename_i pending
            exact Turned.takes pending (Or.inr ⟨i, phase, beyond⟩)
    | receiving =>
        have same : (dispatched w).phase = .receiving := phase
        simp only [ipgetp, same]
        exact Turned.takes ((slot.serves phase).resolve_left blocked) (Or.inl phase)

theorem Turned.sound {w later : Input Packet} (turned : Turned net w later)
    (sound : w.Sound net) : later.Sound net := by
  cases turned with
  | waits blocked => exact sound
  | clears away => exact clears_sound sound
  | passes i phase inside none => exact passes_sound sound phase inside none
  | hands i phase inside arrival queue found => exact hands_sound sound inside found
  | blocks i phase beyond nothing => exact waits_sound sound phase beyond nothing
  | takes pending phase => exact received_sound sound pending

theorem Input.Sound.step {w : Input Packet} (sound : w.Sound net) {event : InputEvent Packet}
    (possible : FromInterface net w event) : (inputStep net w event).Sound net := by
  cases event with
  | ipIn iface tos packet => exact ipIn_sound sound possible tos packet
  | ipsend packet => exact ipsend_sound sound packet
  | ipproc => exact (turned sound.slot).sound sound

/-! ## The order in which packets are handed over -/

theorem handed_some {w : Input Packet} {iface : Nat} {arrival : Arrival Packet}
    (hands : handed net w = some (iface, arrival)) :
    ∃ i queue, w.phase = .scan i ∧ i < net.nif ∧ ¬ w.blocked ∧
      niget net w = some (arrival, queue) ∧ (visited net w.ifnext).toNat = iface := by
  simp only [handed] at hands
  split at hands
  · rename_i i phase
    split at hands
    · rename_i runs
      rcases Option.map_eq_some_iff.mp hands with ⟨⟨taken, queue⟩, found, same⟩
      rcases Prod.mk.inj same with ⟨isIface, isArrival⟩
      rw [← isArrival]
      exact ⟨i, queue, phase, runs.1, runs.2, found, isIface⟩
    · cases hands
  · cases hands

theorem hands_turn {w : Input Packet} {i : Nat} {arrival : Arrival Packet}
    {queue : Queue (Arrival Packet)} (phase : w.phase = .scan i) (inside : i < net.nif)
    (runs : ¬ w.blocked) (found : niget net w = some (arrival, queue)) :
    inputStep net w .ipproc = (dispatched w).hands net arrival queue := by
  rw [ipproc_turn runs]
  have same : (dispatched w).phase = .scan i := phase
  have sameFound : niget net (dispatched w) = some (arrival, queue) := found
  simp only [ipgetp, same, if_pos inside, sameFound]
  rfl

/-- What is behind the head of a queue waits for it. -/
theorem Stored.head_first {w : Input Packet} (stored : Stored w) {q : Nat}
    {arrival : Arrival Packet} {queue : Queue (Arrival Packet)}
    (taken : deq (w.queues q) = some (arrival, queue)) :
    ∀ other ∈ elements queue, Waits arrival other := by
  simp only [deq] at taken
  split at taken
  · cases taken
  · rename_i item rest shape
    rcases Prod.mk.inj (Option.some.inj taken) with ⟨isArrival, isQueue⟩
    have keyed := stored.keyed q
    have ordered := stored.ordered q
    rw [shape] at keyed
    rw [shape, List.reverse_cons] at ordered
    have behind := ordered.last
    intro other member
    rw [← isQueue] at member
    rcases List.mem_map.mp member with ⟨placed, inRest, isOther⟩
    have below := behind placed (List.mem_reverse.mpr inRest)
    have ownKey := keyed item List.mem_cons_self
    have otherKey := keyed placed (List.mem_cons_of_mem _ inRest)
    simp only [Below, itemNumber] at below
    rw [ownKey, otherKey, isOther, isArrival] at below
    exact below

theorem Input.Sound.order {w : Input Packet} (sound : w.Sound net) {iface : Nat}
    {arrival : Arrival Packet} (hands : handed net w = some (iface, arrival)) :
    iface < net.nif ∧ net.down iface = false ∧
    (inputStep net w .ipproc).returned (net.ipinq iface) =
      w.returned (net.ipinq iface) ++ [arrival] ∧
    elements (w.queues (net.ipinq iface)) =
      arrival :: elements ((inputStep net w .ipproc).queues (net.ipinq iface)) ∧
    ∀ other ∈ elements ((inputStep net w .ipproc).queues (net.ipinq iface)),
      Waits arrival other := by
  rcases handed_some hands with ⟨i, queue, phase, inside, runs, found, isIface⟩
  have bounds : 0 ≤ visited net w.ifnext ∧ visited net w.ifnext < net.nif :=
    visited_bounds sound.slot.next (by omega)
  rcases niget_some found with ⟨up, taken⟩
  rw [hands_turn phase inside runs found]
  rw [isIface] at up taken
  have queues : ((dispatched w).hands net arrival queue).queues (net.ipinq iface) = queue := by
    rw [← isIface]
    exact Function.update_self _ _ _
  have returned : ((dispatched w).hands net arrival queue).returned (net.ipinq iface) =
      w.returned (net.ipinq iface) ++ [arrival] := by
    rw [← isIface]
    exact Function.update_self _ _ _
  rw [queues, returned]
  refine ⟨by omega, up, rfl, deq_elements _ _ _ taken, sound.stored.head_first taken⟩

/-! ## `ipproc` alone empties the queues -/

theorem alone_succ (turns : Nat) (w : Input Packet) :
    alone net (turns + 1) w = alone net turns (inputStep net w .ipproc) := rfl

theorem alone_add (first second : Nat) (w : Input Packet) :
    alone net (first + second) w = alone net second (alone net first w) := by
  simp only [alone, List.replicate_add, List.foldl_append]

theorem alone_sound (turns : Nat) :
    ∀ {w : Input Packet}, w.Sound net → (alone net turns w).Sound net := by
  induction turns with
  | zero =>
      intro w sound
      exact sound
  | succ turns ih =>
      intro w sound
      rw [alone_succ]
      exact ih ((turned sound.slot).sound sound)

def upQueues (net : Interfaces) : Finset Nat :=
  ((Finset.range net.nif).filter fun iface => net.down iface = false).image net.ipinq

theorem mem_upQueues {iface : Nat} (isIface : iface < net.nif) (up : net.down iface = false) :
    net.ipinq iface ∈ upQueues net := by
  apply Finset.mem_image_of_mem
  rw [Finset.mem_filter, Finset.mem_range]
  exact ⟨isIface, up⟩

/-- The packets on the queues of the interfaces that are up. -/
def waiting (net : Interfaces) (w : Input Packet) : Nat :=
  (upQueues net).sum fun q => (w.queues q).items.length

theorem hands_waiting {w : Input Packet} (sound : w.Sound net) {i : Nat} (inside : i < net.nif)
    {arrival : Arrival Packet} {queue : Queue (Arrival Packet)}
    (found : niget net w = some (arrival, queue)) :
    waiting net ((dispatched w).hands net arrival queue) < waiting net w := by
  have bounds : 0 ≤ visited net w.ifnext ∧ visited net w.ifnext < net.nif :=
    visited_bounds sound.slot.next (by omega)
  rcases niget_some found with ⟨up, taken⟩
  have shorter : queue.items.length <
      (w.queues (net.ipinq (visited net w.ifnext).toNat)).items.length := by
    have whole := congrArg List.length (deq_elements _ _ _ taken)
    simp only [elements, List.length_map, List.length_cons] at whole
    omega
  have own : ((dispatched w).hands net arrival queue).queues
      (net.ipinq (visited net w.ifnext).toNat) = queue := Function.update_self _ _ _
  apply Finset.sum_lt_sum
  · intro q _
    by_cases same : q = net.ipinq (visited net w.ifnext).toNat
    · rw [same, own]
      exact Nat.le_of_lt shorter
    · have kept : ((dispatched w).hands net arrival queue).queues q = w.queues q :=
        Function.update_of_ne same _ _
      rw [kept]
  · refine ⟨net.ipinq (visited net w.ifnext).toNat, mem_upQueues (by omega) up, ?_⟩
    rw [own]
    exact shorter

/-- Some packet on an interface that is up. -/
def Occupied (net : Interfaces) (w : Input Packet) (iface : Nat) : Prop :=
  iface < net.nif ∧ net.down iface = false ∧ (w.queues (net.ipinq iface)).items ≠ []

theorem runs_of_scan {w : Input Packet} (sound : w.Sound net) {i : Nat} (phase : w.phase = .scan i) :
    ¬ w.blocked := by
  intro blocked
  have receiving := (sound.slot.blocks blocked).1
  rw [phase] at receiving
  cases receiving

/-- `w` goes on to the next interface. -/
structure Passed (net : Interfaces) (w later : Input Packet) (i : Nat) : Prop where
  sound : later.Sound net
  phase : later.phase = .scan (i + 1)
  ifnext : later.ifnext = visited net w.ifnext + 1
  queues : later.queues = w.queues
  elsewhere : ∀ iface, Occupied net w iface → distance net w.ifnext iface ≠ 0

theorem scan_turn {w : Input Packet} (sound : w.Sound net) {i : Nat} (phase : w.phase = .scan i)
    (inside : i < net.nif) :
    waiting net (inputStep net w .ipproc) < waiting net w ∨
      Passed net w (inputStep net w .ipproc) i := by
  have runs := runs_of_scan sound phase
  cases found : niget net w with
  | some pair =>
      left
      rw [hands_turn phase inside runs found]
      exact hands_waiting sound inside found
  | none =>
      right
      have next : inputStep net w .ipproc = { dispatched w with
          phase := .scan (i + 1), ifnext := visited net w.ifnext + 1 } := by
        rw [ipproc_turn runs]
        have same : (dispatched w).phase = .scan i := phase
        have sameFound : niget net (dispatched w) = none := found
        simp only [ipgetp, same, if_pos inside, sameFound]
        rfl
      rw [next]
      constructor
      · exact passes_sound sound phase inside found
      · rfl
      · rfl
      · rfl
      · intro iface occupied zero
        have here := distance_zero sound.slot.next occupied.1 zero
        exact occupied.2.2 (niget_none occupied.2.1 here found)

theorem Passed.occupied {w later : Input Packet} {i iface : Nat} (passed : Passed net w later i)
    (occupied : Occupied net w iface) : Occupied net later iface := by
  rw [Occupied, passed.queues]
  exact occupied

theorem Passed.waiting_eq {w later : Input Packet} {i : Nat} (passed : Passed net w later i) :
    waiting net later = waiting net w := by
  rw [waiting, waiting, passed.queues]

/-- A scan that has the interface still before it hands over a packet. -/
theorem scan_hands (left : Nat) : ∀ {w : Input Packet} {i iface : Nat}, w.Sound net →
    w.phase = .scan i → net.nif - i = left → Occupied net w iface →
    distance net w.ifnext iface + i < net.nif →
    ∃ turns, waiting net (alone net turns w) < waiting net w := by
  induction left with
  | zero =>
      intro w i iface sound phase isLeft occupied near
      have far : 0 ≤ distance net w.ifnext iface := (distance_lt sound.slot.next occupied.1).1
      omega
  | succ left ih =>
      intro w i iface sound phase isLeft occupied near
      rcases scan_turn sound phase (by omega) with fewer | passed
      · exact ⟨1, fewer⟩
      · have nearer := distance_next sound.slot.next occupied.1 (passed.elsewhere iface occupied)
        have nearNext : distance net (inputStep net w .ipproc).ifnext iface +
            ((i + 1 : Nat) : Int) < net.nif := by
          rw [passed.ifnext]
          push_cast
          omega
        rcases ih passed.sound passed.phase (by omega) (passed.occupied occupied) nearNext
          with ⟨turns, fewer⟩
        rw [passed.waiting_eq] at fewer
        exact ⟨turns + 1, fewer⟩

theorem fresh_scan_hands {w : Input Packet} (sound : w.Sound net) (phase : w.phase = .scan 0)
    {iface : Nat} (occupied : Occupied net w iface) :
    ∃ turns, waiting net (alone net turns w) < waiting net w := by
  have near : distance net w.ifnext iface < net.nif :=
    (distance_lt sound.slot.next occupied.1).2
  apply scan_hands net.nif sound phase (Nat.sub_zero _) occupied
  simpa using near

/-- A turn that leads to a new scan leads to a packet. -/
theorem rescan_hands {w : Input Packet} (sound : w.Sound net)
    (phase : (inputStep net w .ipproc).phase = .scan 0)
    (queues : (inputStep net w .ipproc).queues = w.queues) {iface : Nat}
    (occupied : Occupied net w iface) :
    ∃ turns, waiting net (alone net turns w) < waiting net w := by
  have occupiedNext : Occupied net (inputStep net w .ipproc) iface := by
    rw [Occupied, queues]
    exact occupied
  rcases fresh_scan_hands ((turned sound.slot).sound sound) phase occupiedNext
    with ⟨turns, fewer⟩
  have same : waiting net (inputStep net w .ipproc) = waiting net w := by
    rw [waiting, waiting, queues]
  rw [same] at fewer
  exact ⟨turns + 1, fewer⟩

theorem scan_ends (left : Nat) : ∀ {w : Input Packet} {i iface : Nat}, w.Sound net →
    w.phase = .scan i → net.nif - i = left → Occupied net w iface →
    ∃ turns, waiting net (alone net turns w) < waiting net w := by
  induction left with
  | zero =>
      intro w i iface sound phase isLeft occupied
      have beyond : ¬ i < net.nif := by omega
      have pending : w.entry.phasmsg ≠ 0 := by
        rcases sound.covered iface occupied.1 occupied.2.1 occupied.2.2 with away | pending | seen
        · rw [phase] at away
          cases away
        · exact pending
        · rcases seen with ⟨j, isPhase, near⟩
          rw [phase] at isPhase
          cases isPhase
          have far : 0 ≤ distance net w.ifnext iface :=
            (distance_lt sound.slot.next occupied.1).1
          omega
      have next : inputStep net w .ipproc = (dispatched w).received := by
        rw [ipproc_turn (runs_of_scan sound phase)]
        have same : (dispatched w).phase = .scan i := phase
        have stillPending : (dispatched w).entry.phasmsg ≠ 0 := pending
        simp only [ipgetp, same, if_neg beyond, if_neg stillPending]
      apply rescan_hands sound _ _ occupied
      · rw [next]
        rfl
      · rw [next]
        rfl
  | succ left ih =>
      intro w i iface sound phase isLeft occupied
      rcases scan_turn sound phase (by omega) with fewer | passed
      · exact ⟨1, fewer⟩
      · rcases ih passed.sound passed.phase (by omega) (passed.occupied occupied)
          with ⟨turns, fewer⟩
        rw [passed.waiting_eq] at fewer
        exact ⟨turns + 1, fewer⟩

theorem Input.Sound.notStranded {w : Input Packet} (sound : w.Sound net)
    (phase : w.phase = .receiving) (blocked : w.blocked) : w.entry.phasmsg = 0 ∧
      ∀ iface < net.nif, net.down iface = false → (w.queues (net.ipinq iface)).items = [] := by
  have nothing := (sound.slot.blocks blocked).2
  refine ⟨nothing, ?_⟩
  intro iface isIface up
  by_contra some
  rcases sound.covered iface isIface up some with away | pending | seen
  · rw [phase] at away
    cases away
  · exact pending nothing
  · rcases seen with ⟨i, isPhase, near⟩
    rw [phase] at isPhase
    cases isPhase

theorem Input.Sound.fewer {w : Input Packet} (sound : w.Sound net) {iface : Nat}
    (occupied : Occupied net w iface) :
    ∃ turns, waiting net (alone net turns w) < waiting net w := by
  cases phase : w.phase with
  | scan i => exact scan_ends _ sound phase rfl occupied
  | away =>
      have runs : ¬ w.blocked := by
        intro blocked
        have receiving := (sound.slot.blocks blocked).1
        rw [phase] at receiving
        cases receiving
      have same : (dispatched w).phase = .away := phase
      apply rescan_hands sound _ _ occupied
      · rw [ipproc_turn runs]
        simp only [ipgetp, same]
      · rw [ipproc_turn runs]
        simp only [ipgetp, same]
        rfl
  | receiving =>
      have runs : ¬ w.blocked := by
        intro blocked
        have empty := (sound.notStranded phase blocked).2 iface occupied.1 occupied.2.1
        exact occupied.2.2 empty
      have same : (dispatched w).phase = .receiving := phase
      apply rescan_hands sound _ _ occupied
      · rw [ipproc_turn runs]
        simp only [ipgetp, same]
        rfl
      · rw [ipproc_turn runs]
        simp only [ipgetp, same]
        rfl

theorem alone_accepted (turns : Nat) :
    ∀ {w : Input Packet}, w.Sound net → (alone net turns w).accepted = w.accepted := by
  induction turns with
  | zero =>
      intro w sound
      rfl
  | succ turns ih =>
      intro w sound
      have next : Turned net w (inputStep net w .ipproc) := turned sound.slot
      rw [alone_succ, ih (next.sound sound)]
      generalize inputStep net w .ipproc = later at next
      cases next with
      | _ => rfl

theorem Input.Sound.empties (bound : Nat) : ∀ {w : Input Packet}, w.Sound net →
    waiting net w ≤ bound → ∃ turns, ∀ iface < net.nif, net.down iface = false →
      ((alone net turns w).queues (net.ipinq iface)).items = [] := by
  induction bound with
  | zero =>
      intro w sound small
      refine ⟨0, ?_⟩
      intro iface isIface up
      have none := Nat.le_zero.mp small
      have each := (Finset.sum_eq_zero_iff.mp none) _ (mem_upQueues isIface up)
      exact List.length_eq_zero_iff.mp each
  | succ bound ih =>
      intro w sound small
      by_cases some : ∃ iface, Occupied net w iface
      · rcases some with ⟨iface, occupied⟩
        rcases sound.fewer occupied with ⟨turns, fewer⟩
        rcases ih (alone_sound turns sound) (by omega) with ⟨more, empty⟩
        refine ⟨turns + more, ?_⟩
        rw [alone_add]
        exact empty
      · refine ⟨0, ?_⟩
        intro iface isIface up
        by_contra occupied
        exact some ⟨iface, isIface, up, occupied⟩

theorem Input.Sound.law {w : Input Packet} (sound : w.Sound net) : InputLaw net w where
  notStranded := sound.notStranded
  once := sound.stored.once
  distinct := sound.stored.distinct
  order := fun iface arrival hands => sound.order hands
  drains := by
    rcases Input.Sound.empties _ sound (Nat.le_refl _) with ⟨turns, empty⟩
    refine ⟨turns, ?_⟩
    intro iface isIface up
    have none := empty iface isIface up
    have once := (alone_sound turns sound).stored.once (net.ipinq iface)
    rw [alone_accepted turns sound] at once
    simp only [elements, none, List.map_nil, List.append_nil] at once
    exact ⟨none, once⟩

theorem input_law_along_run {w : Input Packet}
    (reached : Reach (inputStep net) (FromInterface net) emptyInput w) : InputLaw net w := by
  have sound : w.Sound net := by
    apply reached.invariant emptyInput_sound
    intro before event sound possible
    exact sound.step possible
  exact sound.law

/-! ## A run -/

def twoInterfaces : Interfaces where
  nif := 2
  small := by decide
  down := fun _ => false
  ipinq := id

/-- A packet comes in on interface 1 while `ipproc` waits for a message. -/
def comesIn : List (InputEvent Nat) :=
  [.ipproc, .ipproc, .ipproc, .ipproc, .ipIn 1 0x20 7, .ipproc, .ipproc]

theorem comes_in_law :
    Permitted (inputStep twoInterfaces) (FromInterface twoInterfaces) emptyInput comesIn ∧
      InputLaw twoInterfaces (comesIn.foldl (inputStep twoInterfaces) emptyInput) := by
  have permitted : Permitted (inputStep twoInterfaces) (FromInterface twoInterfaces) emptyInput
      comesIn := by
    simp only [comesIn, Permitted, FromInterface, twoInterfaces]
    decide
  exact ⟨permitted, input_law_along_run (reach_of_permitted comesIn Reach.start permitted)⟩

end MvsXinu.IpInput
