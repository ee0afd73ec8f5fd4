import MvsXinu.Lib.Gather
import MvsXinu.Tcp.ReceiveWindow

/-!
# Coalescing as a scan

With every number near `rnext`, `tfcoalesce` moves an edge over the queued fragments as far as
they go on without a gap, and ends early where `finseq` is. What a segment does to the receive
side follows: its data are joined when they reach back to `rnext`, and queued when they do not.
-/

namespace MvsXinu.Tcp

open MvsXinu.SeqSpace MvsXinu.Gather

set_option autoImplicit false

/-- Where a fragment starts and stops, counted from `base`. -/
def Tcpfrag.start (base : Tcpseq) (frag : Tcpfrag) : Int := seqcmp frag.seq base
def Tcpfrag.stop (base : Tcpseq) (frag : Tcpfrag) : Int := frag.start base + frag.len.toNat

def Tcpfrag.Near (base : Tcpseq) (frag : Tcpfrag) : Prop :=
  -2 ^ 30 < frag.start base ∧ frag.stop base ≤ 2 ^ 30

/-- A place behind `rnext` that `finseq` stands for, be it the FIN's or 0 for none. -/
def Tcb.finMark (tcb : Tcb) (place : Int) : Bool := decide (seqAt tcb.rnext place = tcb.finseq)

/-- The scan from `count` octets behind `rnext` on. -/
def Tcb.gathered (tcb : Tcb) (count : Nat) : Gathered Int Tcpfrag :=
  gather (Tcpfrag.start tcb.rnext) (Tcpfrag.stop tcb.rnext) tcb.finMark count tcb.frags

/-- What `newq` and `enq` make: at most `q_max` items, in the order of their keys. -/
structure Keyed (queue : Gpq.Queue Tcpfrag) : Prop where
  sorted : Gpq.Sorted queue
  key_eq : ∀ item ∈ queue.items, item.1 = (-item.2.seq).toInt
  length_le : queue.items.length ≤ queue.qMax

def Tcb.Keyed (tcb : Tcb) : Prop := ∀ queue, tcb.rsegq = some queue → Tcp.Keyed queue

/-- `rnext` and `rbcount` have been moved. -/
def Advanced (tcb : Tcb) (edge : Int) (after : Tcb) : Prop :=
  ∃ pushseq rsegq, after =
    { tcb.advance (BitVec.ofInt 32 edge) with pushseq := pushseq, rsegq := rsegq }

/-- What the scan amounts to. -/
structure Coalesces (tcb : Tcb) (code : Code) (gathered : Gathered Int Tcpfrag)
    (result : Tcb × Code) : Prop where
  advanced : Advanced tcb gathered.edge result.1
  keyed : result.1.Keyed
  frags : result.1.frags.Perm gathered.rest
  fin : result.2.fin = (code.fin || gathered.marked)

theorem frags_of_queue {tcb : Tcb} {queue : Gpq.Queue Tcpfrag} (shape : tcb.rsegq = some queue) :
    tcb.frags = queue.items.map Prod.snd := by
  rw [Tcb.frags, shape]
  rfl

theorem frags_of_none {tcb : Tcb} (shape : tcb.rsegq = none) : tcb.frags = [] := by
  rw [Tcb.frags, shape]

theorem keyed_of_none {tcb : Tcb} (shape : tcb.rsegq = none) : tcb.Keyed := by
  intro queue present
  rw [shape] at present
  cases present

theorem keyed_of_queue {tcb : Tcb} {queue : Gpq.Queue Tcpfrag} (shape : tcb.rsegq = some queue)
    (keyed : Tcp.Keyed queue) : tcb.Keyed := by
  intro other present
  rw [shape] at present
  cases present
  exact keyed

section Queue

variable {queue after : Gpq.Queue Tcpfrag} {frag : Tcpfrag} {left : Nat}

theorem newq_keyed : Keyed (Gpq.newq ntcpfrag) := by
  constructor <;> simp [Gpq.newq, Gpq.Sorted]

theorem Keyed.tail {qMax : Nat} {item : Int × Tcpfrag} {rest : List (Int × Tcpfrag)}
    (keyed : Keyed ⟨qMax, item :: rest⟩) : Keyed ⟨qMax, rest⟩ where
  sorted := (List.pairwise_cons.mp keyed.sorted).2
  key_eq := fun other member => keyed.key_eq other (List.mem_cons_of_mem item member)
  length_le := (Nat.le_succ _).trans keyed.length_le

theorem Keyed.enq (keyed : Keyed queue)
    (accepted : Gpq.enq queue frag (-frag.seq).toInt = some (left, after)) : Keyed after := by
  have items := Gpq.enq_items queue after frag _ left accepted
  have room : queue.items.length < queue.qMax := by
    by_contra full
    rw [Gpq.enq, if_pos (Nat.not_lt.mp full)] at accepted
    cases accepted
  rcases Gpq.enq_accepts queue frag (-frag.seq).toInt room with ⟨_, other, same, size, length⟩
  rw [accepted] at same
  cases same
  constructor
  · exact Gpq.enq_sorted queue after frag _ left keyed.sorted accepted
  · intro item member
    rcases (items item).mp member with rfl | old
    · rfl
    · exact keyed.key_eq item old
  · rw [size, length]
    exact room

/-- Where the keys order the fragments as their sequence numbers do, so does the queue. -/
theorem Keyed.ordered (keyed : Keyed queue) {base : Tcpseq}
    (near : ∀ frag ∈ queue.items.map Prod.snd, frag.Near base)
    (oneSided : ∀ frag ∈ queue.items.map Prod.snd, ∀ other ∈ queue.items.map Prod.snd,
      0 < seqcmp frag.seq other.seq → (-frag.seq).toInt < (-other.seq).toInt) :
    (queue.items.map Prod.snd).Pairwise fun first second =>
      first.start base ≤ second.start base := by
  rw [List.pairwise_map]
  apply List.Pairwise.imp_of_mem _ keyed.sorted
  intro first second firstMember secondMember ordered
  have firstListed := List.mem_map_of_mem (f := Prod.snd) firstMember
  have secondListed := List.mem_map_of_mem (f := Prod.snd) secondMember
  rw [keyed.key_eq first firstMember, keyed.key_eq second secondMember] at ordered
  by_contra later
  have distance : seqcmp first.2.seq second.2.seq =
      first.2.start base - second.2.start base := by
    rcases near _ firstListed with ⟨firstLow, firstHigh⟩
    rcases near _ secondListed with ⟨secondLow, secondHigh⟩
    rw [Tcpfrag.stop] at firstHigh secondHigh
    have firstSeq := seq_at_signed_dist base first.2.seq
    have secondSeq := seq_at_signed_dist base second.2.seq
    have apart := signed_dist_seq_at base (first.2.start base) (second.2.start base)
      (by omega) (by omega)
    rw [Tcpfrag.start, Tcpfrag.start, seqcmp, seqcmp, firstSeq, secondSeq] at apart
    exact apart
  have wrong := oneSided _ firstListed _ secondListed (by omega)
  omega

end Queue

section Loop

variable {tcb after : Tcb} {edge : Int}

theorem Advanced.rnext (advanced : Advanced tcb edge after) :
    after.rnext = seqAt tcb.rnext edge := by
  rcases advanced with ⟨_, _, rfl⟩
  rfl

theorem Advanced.finseq (advanced : Advanced tcb edge after) : after.finseq = tcb.finseq := by
  rcases advanced with ⟨_, _, rfl⟩
  rfl

theorem Advanced.push (advanced : Advanced tcb edge after) (code : Code) :
    Advanced tcb edge (tfpush after code).1 := by
  rw [(tfpush_fields after code).1]
  generalize (tfpush after code).1.pushseq = pushseq
  rcases advanced with ⟨_, rsegq, rfl⟩
  exact ⟨pushseq, rsegq, rfl⟩

theorem Advanced.queue (advanced : Advanced tcb edge after)
    (rsegq : Option (Gpq.Queue Tcpfrag)) : Advanced tcb edge { after with rsegq := rsegq } := by
  rcases advanced with ⟨pushseq, _, rfl⟩
  exact ⟨pushseq, rsegq, rfl⟩

theorem Advanced.advance (advanced : Advanced tcb edge after) (more : Int) :
    Advanced tcb (edge + more) (after.advance (BitVec.ofInt 32 more)) := by
  rcases advanced with ⟨pushseq, rsegq, rfl⟩
  refine ⟨pushseq, rsegq, ?_⟩
  simp only [Tcb.advance, BitVec.ofInt_add, BitVec.add_assoc]

theorem advanced_start (tcb : Tcb) (count : Nat) :
    Advanced tcb count (tcb.advance (BitVec.ofNat 32 count)) := by
  rw [← BitVec.ofInt_natCast]
  exact ⟨tcb.pushseq, tcb.rsegq, rfl⟩

theorem Advanced.at_finseq (advanced : Advanced tcb edge after) :
    (after.rnext = after.finseq) ↔ tcb.finMark edge = true := by
  rw [advanced.rnext, advanced.finseq, Tcb.finMark, decide_eq_true_iff]

/-- Near the base a comparison with `rnext` is one of distances. -/
theorem frag_distances (advanced : Advanced tcb edge after) (low : 0 ≤ edge) (high : edge ≤ 2 ^ 30)
    {frag : Tcpfrag} (near : frag.Near tcb.rnext) :
    seqcmp frag.seq after.rnext = frag.start tcb.rnext - edge ∧
      frag.newcount after.rnext = frag.stop tcb.rnext - edge := by
  rcases near with ⟨floor, limit⟩
  have seq : frag.seq = seqAt tcb.rnext (frag.start tcb.rnext) :=
    (seq_at_signed_dist tcb.rnext frag.seq).symm
  rw [Tcpfrag.stop] at limit
  constructor
  · rw [advanced.rnext, seqcmp]
    conv_lhs => rw [seq]
    rw [signed_dist_seq_at _ _ _ (by omega) (by omega)]
  · have length : frag.len = BitVec.ofInt 32 (frag.len.toNat : Int) := by simp
    rw [Tcpfrag.newcount, advanced.rnext, Tcpfrag.stop]
    generalize frag.start tcb.rnext = start at *
    rw [seq, seq_at_sub]
    conv_lhs => rw [length]
    rw [BitVec.sub_eq_add_neg, ← BitVec.ofInt_neg, ← BitVec.ofInt_add,
      to_int_of_range _ (by omega) (by omega)]
    omega

theorem tfjoin_advanced (advanced : Advanced tcb edge after) (low : 0 ≤ edge)
    (high : edge ≤ 2 ^ 30) {frag : Tcpfrag} (near : frag.Near tcb.rnext) :
    Advanced tcb (max edge (frag.stop tcb.rnext)) (tfjoin after frag) := by
  have newcount := (frag_distances advanced low high near).2
  rw [tfjoin, newcount]
  split
  · have joined := advanced.advance (frag.stop tcb.rnext - edge)
    have reached : max edge (frag.stop tcb.rnext) =
        edge + (frag.stop tcb.rnext - edge) := by omega
    rw [reached]
    exact joined
  · rw [max_eq_left (by omega)]
    exact advanced

theorem tfloop_gather (qMax : Nat) (items : List (Int × Tcpfrag)) (code : Code)
    (advanced : Advanced tcb edge after) (keyed : Keyed ⟨qMax, items⟩)
    (near : ∀ item ∈ items, item.2.Near tcb.rnext) (low : 0 ≤ edge) (high : edge ≤ 2 ^ 30)
    (unmarked : tcb.finMark edge = false) :
    Coalesces tcb code (gather (Tcpfrag.start tcb.rnext) (Tcpfrag.stop tcb.rnext) tcb.finMark
      edge (items.map Prod.snd)) (tfloop qMax items after code) := by
  induction items generalizing after code edge with
  | nil =>
      rw [List.map_nil, gather, unmarked]
      constructor
      · exact advanced.queue none
      · exact keyed_of_none rfl
      · exact List.Perm.nil
      · exact (Bool.or_false _).symm
  | cons item rest ih =>
      have itemNear := near item List.mem_cons_self
      have restNear : ∀ other ∈ rest, other.2.Near tcb.rnext := fun other member =>
        near other (List.mem_cons_of_mem item member)
      have distance := (frag_distances advanced low high itemNear).1
      rw [List.map_cons, tfloop, distance]
      by_cases beyond : edge < item.2.start tcb.rnext
      · rw [gather_beyond unmarked beyond, if_pos (by omega)]
        -- one place has just become free
        rcases Gpq.enq_accepts ({ qMax := qMax, items := rest } : Gpq.Queue Tcpfrag) item.2
          (-item.2.seq).toInt keyed.length_le with ⟨left, longer, accepted, _, _⟩
        simp only [accepted]
        constructor
        · exact advanced.queue (some longer)
        · exact keyed_of_queue rfl (keyed.tail.enq accepted)
        · exact Gpq.enq_perm accepted
        · exact (Bool.or_false _).symm
      · rw [gather_join unmarked beyond, if_neg (by omega)]
        have joined := tfjoin_advanced advanced low high itemNear
        by_cases marked : tcb.finMark (max edge (item.2.stop tcb.rnext)) = true
        · rw [gather_of_mark _ marked]
          simp only [if_pos (joined.at_finseq.mpr marked)]
          constructor
          · exact joined.queue none
          · exact keyed_of_none rfl
          · exact List.Perm.nil
          · exact (Bool.or_true _).symm
        · simp only [if_neg (joined.at_finseq.not.mpr marked)]
          rcases itemNear with ⟨_, limit⟩
          have scanned := ih (tfpush (tfjoin after item.2) code).2 (joined.push code) keyed.tail
            restNear (by omega) (by omega) (eq_false_of_ne_true marked)
          rcases scanned with ⟨moved, queued, listed, fin⟩
          rw [(tfpush_fields (tfjoin after item.2) code).2] at fin
          exact ⟨moved, queued, listed, fin⟩

theorem tfcoalesce_gather (code : Code) (count : Nat) (small : count ≤ 2 ^ 30)
    (keyed : tcb.Keyed) (near : ∀ frag ∈ tcb.frags, frag.Near tcb.rnext) :
    Coalesces tcb code (tcb.gathered count)
      (tfcoalesce tcb (BitVec.ofNat 32 count) code) := by
  have advanced := advanced_start tcb count
  rw [Tcb.gathered, tfcoalesce]
  by_cases marked : tcb.finMark count = true
  · rw [gather_of_mark _ marked]
    simp only [if_pos (advanced.at_finseq.mpr marked)]
    constructor
    · exact advanced.queue none
    · exact keyed_of_none rfl
    · exact List.Perm.nil
    · exact (Bool.or_true _).symm
  · simp only [if_neg (advanced.at_finseq.not.mpr marked)]
    have pushed := advanced.push code
    have code_eq := (tfpush_fields (tcb.advance (BitVec.ofNat 32 count)) code).2
    have queue_eq : (tfpush (tcb.advance (BitVec.ofNat 32 count)) code).1.rsegq = tcb.rsegq := by
      rw [(tfpush_fields (tcb.advance (BitVec.ofNat 32 count)) code).1]
      rfl
    have alone : tcb.frags = [] → Coalesces tcb code
        (gather (Tcpfrag.start tcb.rnext) (Tcpfrag.stop tcb.rnext) tcb.finMark count tcb.frags)
        (tfpush (tcb.advance (BitVec.ofNat 32 count)) code) := by
      intro empty
      rw [empty, gather, eq_false_of_ne_true marked]
      constructor
      · exact pushed
      · intro queue present
        rw [queue_eq] at present
        exact keyed queue present
      · rw [Tcb.frags, queue_eq, ← Tcb.frags, empty]
      · rw [code_eq, Bool.or_false]
    cases shape : tcb.rsegq with
    | none =>
        simp only [queue_eq, shape]
        exact alone (frags_of_none shape)
    | some queue =>
        have listed := frags_of_queue shape
        cases items : queue.items with
        | nil =>
            simp only [queue_eq, shape, items]
            apply alone
            rw [listed, items, List.map_nil]
        | cons item rest =>
            simp only [queue_eq, shape, items]
            rw [listed] at near ⊢
            rw [items] at near ⊢
            have scanned := tfloop_gather queue.qMax (item :: rest)
              (tfpush (tcb.advance (BitVec.ofNat 32 count)) code).2 pushed
              (by rw [← items]; exact keyed queue shape)
              (fun other member => near other.2 (List.mem_map_of_mem (f := Prod.snd) member))
              (Int.natCast_nonneg count) (by omega) (eq_false_of_ne_true marked)
            rcases scanned with ⟨moved, queued, order, fin⟩
            rw [code_eq] at fin
            exact ⟨moved, queued, order, fin⟩

theorem Advanced.moved (advanced : Advanced tcb edge after) (low : 0 ≤ edge) :
    Moved tcb after edge.toNat 0 := by
  have places := Int.toNat_of_nonneg low
  rcases advanced with ⟨_, _, rfl⟩
  constructor <;> simp [Tcb.advance, ← BitVec.ofInt_natCast, places]

end Loop

/-- What `tcpdodat` joins of a segment that reaches back to `rnext`. -/
def Tcb.joined (tcb : Tcb) (count : Nat) : Gathered Int Tcpfrag :=
  if 0 < count then tcb.gathered count else { edge := 0, rest := tcb.frags, marked := false }

section Joined

variable {tcb : Tcb} {count : Nat}

theorem joined_le {limit : Int} (low : (count : Int) ≤ limit)
    (stops : ∀ frag ∈ tcb.frags, frag.stop tcb.rnext ≤ limit) :
    (tcb.joined count).edge ≤ limit := by
  rw [Tcb.joined]
  split
  · exact gather_le _ _ low stops
  · exact (Int.natCast_nonneg count).trans low

theorem le_joined (tcb : Tcb) (count : Nat) : (count : Int) ≤ (tcb.joined count).edge := by
  rw [Tcb.joined]
  split
  · exact edge_le_gather _ _
  · show (count : Int) ≤ 0
    omega

theorem joined_occupied (tcb : Tcb) (count : Nat) (place : Int) (low : (count : Int) ≤ place)
    (below : place < (tcb.joined count).edge) :
    ∃ frag ∈ tcb.frags, frag.start tcb.rnext ≤ place ∧ place < frag.stop tcb.rnext := by
  rw [Tcb.joined] at below
  split at below
  · exact gather_occupied _ _ place low below
  · have passed : place < 0 := below
    omega

theorem joined_reached (some : 0 < count) : (tcb.joined count).edge = count ∨
    ∃ frag ∈ tcb.frags, (tcb.joined count).edge = frag.stop tcb.rnext := by
  rw [Tcb.joined, if_pos some]
  exact gather_reached _ _

/-- The scan is at a mark exactly when `rnext` has met `finseq`. -/
theorem joined_marked_iff (some : 0 < count) : (tcb.joined count).marked = true ↔
    seqAt tcb.rnext (tcb.joined count).edge = tcb.finseq := by
  rw [Tcb.joined, if_pos some, Tcb.gathered, ← gather_marked]
  exact decide_eq_true_iff

theorem joined_none (none : ¬ 0 < count) : (tcb.joined count).edge = 0 := by
  rw [Tcb.joined, if_neg none]

theorem joined_some (marked : (tcb.joined count).marked = true) : 0 < count := by
  by_contra none
  rw [Tcb.joined, if_neg none] at marked
  cases marked

end Joined

structure Joined (tcb : Tcb) (count : Nat) (fin : Bool) (after : Tcb) : Prop where
  moved : Moved tcb after (tcb.joined count).edge.toNat
    (if fin || (tcb.joined count).marked then 1 else 0)
  finseq : after.finseq = tcb.finseq
  keyed : after.Keyed
  frags : after.frags.Perm (tcb.joined count).rest

/-- The fragment may have been refused. -/
structure Postponed (tcb : Tcb) (frag : Tcpfrag) (fin : Bool) (after : Tcb) : Prop where
  moved : Moved tcb after 0 0
  finseq : after.finseq = if fin then frag.seq + frag.len else tcb.finseq
  keyed : after.Keyed
  stay : ∀ old ∈ tcb.frags, old ∈ after.frags
  frags : ∀ other ∈ after.frags, other ∈ tcb.frags ∨ frag.len ≠ 0 ∧ other = frag

section Segments

variable {tcb : Tcb} {code : Code} {count : Nat}

theorem controls_kept (tcb : Tcb) (code : Code) :
    (tcpcontrols tcb code).finseq = tcb.finseq ∧ (tcpcontrols tcb code).rsegq = tcb.rsegq := by
  rw [tcpcontrols]
  split_ifs <;> exact ⟨rfl, rfl⟩

theorem gathered_low (tcb : Tcb) (count : Nat) : 0 ≤ (tcb.gathered count).edge :=
  (Int.natCast_nonneg count).trans (edge_le_gather _ _)

theorem tcpdodat_joined (code : Code) (seq first : Tcpseq) (small : count ≤ 2 ^ 30) (keyed : tcb.Keyed)
    (near : ∀ frag ∈ tcb.frags, frag.Near tcb.rnext) (met : tcb.rnext = first) (newqOk : Bool) :
    Joined tcb count code.fin
      (tcpdodat tcb seq code first (BitVec.ofNat 32 count) newqOk) := by
  have length : (BitVec.ofNat 32 count).toNat = count := by
    rw [BitVec.toNat_ofNat, Nat.mod_eq_of_lt (by omega)]
  rw [tcpdodat, if_pos met, length]
  split
  · rename_i some
    have joined : tcb.joined count = tcb.gathered count := if_pos some
    have scanned := tfcoalesce_gather code count small keyed near
    generalize tfcoalesce tcb (BitVec.ofNat 32 count) code = result at scanned
    rcases scanned with ⟨advanced, queued, listed, fin⟩
    have moved := advanced.moved (gathered_low tcb count)
    have flagged : Moved tcb { result.1 with flags := { result.1.flags with needout := true } }
        (tcb.gathered count).edge.toNat 0 :=
      ⟨moved.state, moved.size, moved.start, moved.cwin, moved.rnext, moved.count, moved.rdone⟩
    have kept := controls_kept
      { result.1 with flags := { result.1.flags with needout := true } } result.2
    constructor
    · rw [joined, ← fin]
      exact controls_moved flagged
    · rw [kept.1]
      exact advanced.finseq
    · intro queue present
      rw [kept.2] at present
      exact queued queue present
    · rw [controls_frags, joined]
      exact listed
  · rename_i none
    have joined : tcb.joined count = { edge := 0, rest := tcb.frags, marked := false } :=
      if_neg none
    have kept := controls_kept tcb code
    constructor
    · rw [joined]
      simp only [Bool.or_false]
      exact controls_moved (Moved.refl tcb)
    · exact kept.1
    · intro queue present
      rw [kept.2] at present
      exact keyed queue present
    · rw [controls_frags, joined]

theorem tfinsert_queued (seq : Tcpseq) (datalen : Word) (keyed : tcb.Keyed) (newqOk : Bool) :
    (tfinsert tcb seq datalen newqOk).Keyed ∧
      (tfinsert tcb seq datalen newqOk).finseq = tcb.finseq ∧
      ∀ old ∈ tcb.frags, old ∈ (tfinsert tcb seq datalen newqOk).frags := by
  rcases tfinsert_cases tcb seq datalen newqOk with
    same | ⟨queue, after, source, inserts, entered⟩
  · rw [same]
    exact ⟨keyed, rfl, fun old member => member⟩
  · have queued : Tcp.Keyed queue := by
      rcases source with shape | ⟨_, rfl⟩
      · exact keyed queue shape
      · exact newq_keyed
    rw [inserts, ← elements_before source]
    rcases entered with rfl | ⟨_, left, accepted⟩
    · exact ⟨keyed_of_queue rfl queued, rfl, fun old member => member⟩
    · constructor
      · exact keyed_of_queue rfl (queued.enq accepted)
      · constructor
        · rfl
        · intro old member
          exact (Gpq.enq_elements _ _ _ _ _ accepted old).mpr (Or.inr member)

theorem tcpdodat_postponed (seq : Tcpseq) (datalen : Word) (keyed : tcb.Keyed)
    (apart : tcb.rnext ≠ seq) (newqOk : Bool) :
    Postponed tcb ⟨seq, datalen⟩ code.fin (tcpdodat tcb seq code seq datalen newqOk) := by
  have delayed : ∀ other : Tcb, Moved tcb other 0 0 → other.rsegq = tcb.rsegq →
      other.finseq = (if code.fin then seq + datalen else tcb.finseq) →
      Postponed tcb ⟨seq, datalen⟩ code.fin (tfinsert other seq datalen newqOk) := by
    intro other moved queue_eq finseq
    have frags_eq : other.frags = tcb.frags := by
      rw [Tcb.frags, queue_eq, ← Tcb.frags]
    have otherKeyed : other.Keyed := by
      intro queue present
      rw [queue_eq] at present
      exact keyed queue present
    have inserted := tfinsert_moved other seq datalen newqOk
    have queued := tfinsert_queued seq datalen otherKeyed newqOk
    rw [frags_eq] at inserted queued
    rcases inserted with ⟨further, listed⟩
    rcases queued with ⟨keys, same, stay⟩
    constructor
    · exact moved.trans further
    · exact same.trans finseq
    · exact keys
    · exact stay
    · exact listed
  rw [tcpdodat, if_neg apart]
  apply delayed
  · split_ifs <;> constructor <;> simp
  · split_ifs <;> rfl
  · split_ifs <;> rfl

/-- Fields that the receive side does not look at here may differ. -/
theorem Joined.frame {other after : Tcb} {fin : Bool} (joined : Joined other count fin after)
    (moved : Moved tcb other 0 0) (queue : other.rsegq = tcb.rsegq)
    (finseq : other.finseq = tcb.finseq) : Joined tcb count fin after := by
  have rnext : other.rnext = tcb.rnext := by simpa using moved.rnext
  have frags : other.frags = tcb.frags := by rw [Tcb.frags, queue, ← Tcb.frags]
  have mark : other.finMark = tcb.finMark := by
    funext place
    rw [Tcb.finMark, Tcb.finMark, rnext, finseq]
  have same : other.joined count = tcb.joined count := by
    simp only [Tcb.joined, Tcb.gathered, rnext, frags, mark]
  have further := moved.trans joined.moved
  rw [Nat.zero_add, same] at further
  constructor
  · exact further
  · exact joined.finseq.trans finseq
  · exact joined.keyed
  · rw [← same]
    exact joined.frags

theorem Postponed.frame {other after : Tcb} {frag : Tcpfrag} {fin : Bool}
    (postponed : Postponed other frag fin after) (moved : Moved tcb other 0 0)
    (queue : other.rsegq = tcb.rsegq) (finseq : other.finseq = tcb.finseq) :
    Postponed tcb frag fin after := by
  have frags : other.frags = tcb.frags := by rw [Tcb.frags, queue, ← Tcb.frags]
  rcases postponed with ⟨further, kept, keyed, stay, listed⟩
  rw [finseq] at kept
  rw [frags] at stay listed
  exact ⟨moved.trans further, kept, keyed, stay, listed⟩

theorem tcpurg_kept (tcb : Tcb) (segment : Segment) :
    ∃ rupseq rupok, tcpurg tcb segment =
      { tcb with rupseq := rupseq, flags := { tcb.flags with rupok := rupok } } := by
  simp only [tcpurg]
  split_ifs
  · exact ⟨_, true, rfl⟩
  · exact ⟨tcb.rupseq, tcb.flags.rupok, rfl⟩
  · exact ⟨tcb.rupseq, tcb.flags.rupok, rfl⟩

/-- What `rcvSegment` hands to `tcpdata`. -/
def Tcb.takes (tcb : Tcb) (segment : Segment) : Bool :=
  (tcpok tcb segment).1 && !segment.code.rst && !segment.code.syn

variable {isn : Tcpseq} {next position : Nat} {segment : Segment}

theorem refused_segment (refused : tcb.takes segment = false) (newqOk : Bool) :
    rcvSegment tcb segment newqOk = tcb := by
  rw [Tcb.takes] at refused
  rw [rcvSegment, refused, if_neg Bool.false_ne_true]

theorem taken_range (lies : Lies isn tcb next segment position)
    (taken : tcb.takes segment = true) :
    next ≤ position + segment.data.length ∧
      position ≤ next + (tcb.rbsize.toNat - tcb.rbcount.toNat) := by
  simp only [Tcb.takes, Bool.and_eq_true, Bool.not_eq_true'] at taken
  exact (tcpok_range lies taken.2 taken.1.1).2

/-- The data section works on a control block that differs from the one before it in fields
that do not matter here. -/
theorem taken_segment (lies : Lies isn tcb next segment position)
    (taken : tcb.takes segment = true) (newqOk : Bool) :
    ∃ other : Tcb, Moved tcb other 0 0 ∧ other.rsegq = tcb.rsegq ∧ other.finseq = tcb.finseq ∧
      rcvSegment tcb segment newqOk =
        tcpdodat other segment.seq (keptCode tcb next segment position)
          (seqAt isn (keptFirst next position))
          (BitVec.ofNat 32 (keptCount tcb next segment position)) newqOk := by
  rcases taken_range lies taken with ⟨reaches, starts⟩
  rcases tcpurg_kept tcb segment.bare with ⟨rupseq, rupok, urgent⟩
  have ready : Lies isn { tcb with rupseq := rupseq, flags := { tcb.flags with rupok := rupok } }
      next segment position :=
    ⟨lies.synchronised, lies.size_le, lies.start_lt, lies.count_le, lies.rnext_eq,
      lies.wellFormed, lies.seq_eq, lies.near_low, lies.near_high⟩
  have accepted : (tcpok tcb segment).1 = true ∧ segment.code.syn = false := by
    simp only [Tcb.takes, Bool.and_eq_true, Bool.not_eq_true'] at taken
    exact ⟨taken.1.1, taken.2⟩
  have noSyn : segment.bare.code.syn = false := accepted.2
  have same := (tcpok_range lies accepted.2 accepted.1).1
  refine ⟨keptTcb { tcb with rupseq := rupseq, flags := { tcb.flags with rupok := rupok } }
    next segment position, ?_, rfl, rfl, ?_⟩
  · constructor <;> simp [keptTcb]
  · rw [rcvSegment, ← Tcb.takes, if_pos taken, same, tcpdata, urgent, noSyn]
    exact tcpsection_eq ready reaches starts newqOk

/-- A segment that reaches back to `rnext` is joined, one that starts behind it postponed. -/
theorem segment_received (lies : Lies isn tcb next segment position) (keyed : tcb.Keyed)
    (near : ∀ frag ∈ tcb.frags, frag.Near tcb.rnext) (taken : tcb.takes segment = true)
    (newqOk : Bool) :
    (position ≤ next ∧ Joined tcb (keptCount tcb next segment position)
        (keptCode tcb next segment position).fin (rcvSegment tcb segment newqOk)) ∨
      (next < position ∧ Postponed tcb
        ⟨segment.seq, BitVec.ofNat 32 (keptCount tcb next segment position)⟩
        (keptCode tcb next segment position).fin (rcvSegment tcb segment newqOk)) := by
  rcases taken_segment lies taken newqOk with ⟨other, moved, queue, finseq, shape⟩
  have rnext : other.rnext = tcb.rnext := by simpa using moved.rnext
  have frags : other.frags = tcb.frags := by rw [Tcb.frags, queue, ← Tcb.frags]
  have otherKeyed : other.Keyed := by
    intro found present
    rw [queue] at present
    exact keyed found present
  have short := (datalen_of_well_formed lies.wellFormed).2
  have small : keptCount tcb next segment position ≤ 2 ^ 30 :=
    (kept_count_le tcb next segment position).trans (by omega)
  have place : tcb.rnext = seqAt isn next := lies.rnext_eq
  rw [shape]
  by_cases behind : position ≤ next
  · left
    constructor
    · exact behind
    · rw [keptFirst, max_eq_left behind]
      have joined := tcpdodat_joined (keptCode tcb next segment position) segment.seq
        (seqAt isn next) small otherKeyed
        (by rw [rnext, frags]; exact near) (by rw [rnext, place]) newqOk
      exact joined.frame moved queue finseq
  · right
    constructor
    · omega
    · have apart : other.rnext ≠ segment.seq := by
        intro same
        have low := lies.near_low
        have high := lies.near_high
        have distance := signed_dist_seq_at isn position next (by omega) (by omega)
        rw [← place, ← lies.seq_eq, ← same, rnext, signed_dist_self] at distance
        omega
      rw [keptFirst, max_eq_right (by omega), ← lies.seq_eq]
      exact (tcpdodat_postponed segment.seq _ otherKeyed apart newqOk).frame moved queue finseq

end Segments

end MvsXinu.Tcp
