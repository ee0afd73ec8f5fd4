import MvsXinu.Lib.Runs
import MvsXinu.Memory.Heap

/-!
# Conservation of the heap

The blocks that are out and the free blocks tile the area from `meminit`. A block is taken
back as long as it is not below the first free block, which `freemem` takes for the start
of the heap, and a request is served from its own storage as long as rounding it up does
not leave the word.
-/

namespace MvsXinu.Memory

open MvsXinu.Tiling

set_option autoImplicit false

def rounded (nbytes : BitVec 32) : Nat := (nbytes.toNat + 7) / 8 * 8

/-- The storage that a block that is out stands for. -/
def occupied (block : Nat × BitVec 32) : Span := ⟨block.1, rounded block.2⟩

/-- All `freemem` calls have returned OK; the free list is in the order of the addresses,
disjoint and coalesced; nothing overlaps; and no storage is lost or gained. -/
structure Conserved (p : Nat) (state : State) : Prop where
  returned : state.broken = false
  coalesced : state.heap.memlist.Pairwise fun first second =>
    first.place + first.size < second.place
  lengths : ∀ block ∈ state.heap.memlist, 0 < block.size ∧ 8 ∣ block.size
  unshared : ∀ block ∈ state.heap.memlist, ∀ out ∈ state.outstanding,
    Separate block (occupied out)
  apart : state.outstanding.Pairwise fun first second => Separate (occupied first) (occupied second)
  total : (state.heap.memlist.map Span.size).sum +
    (state.outstanding.map fun out => rounded out.2).sum = heapLen
  restored : state.outstanding = [] → state.heap.memlist = [⟨p, heapLen⟩]

/-- A request that can be rounded up, and a block that is not below the first free one. -/
def Careful (state : State) : Event → Prop
  | Event.get nbytes => nbytes.toNat ≤ word - 8 ∨ state.heap.memlist = []
  | Event.free index => ∀ block nbytes, state.outstanding[index]? = some (block, nbytes) →
      ∀ first ∈ state.heap.memlist.head?, first.place ≤ block

/-! ## The layout behind a state -/

abbrev Layout := List (Segment (BitVec 32))

def outList (p : Nat) (layout : Layout) : List (Nat × BitVec 32) :=
  (useds p layout).map fun block => (block.1.place, block.2)

structure Laid (p : Nat) (state : State) (layout : Layout) : Prop where
  settled : Settled layout
  whole : extent layout = heapLen
  units : ∀ segment ∈ layout, 8 ∣ segment.size
  sizes : ∀ size nbytes, Segment.used size nbytes ∈ layout → size = rounded nbytes
  free : state.heap.memlist = frees p layout
  out : state.outstanding.Perm (outList p layout)
  maxaddr : state.heap.maxaddr = p + heapLen - 1
  unbroken : state.broken = false

theorem mem_segment_of_frees (p : Nat) (layout : Layout) (span : Span)
    (member : span ∈ frees p layout) : Segment.free span.size ∈ layout := by
  obtain ⟨front, back, shape⟩ := List.append_of_mem member
  obtain ⟨before, after, rfl, _⟩ := frees_split p layout front back span shape
  exact List.mem_append_right _ List.mem_cons_self

theorem Laid.occupied_eq {p : Nat} {state : State} {layout : Layout} (laid : Laid p state layout)
    (block : Span × BitVec 32) (member : block ∈ useds p layout) :
    occupied (block.1.place, block.2) = block.1 := by
  obtain ⟨before, after, rfl, _⟩ := useds_split p layout block member
  have size := laid.sizes block.1.size block.2 (List.mem_append_right _ List.mem_cons_self)
  unfold occupied
  rw [← size]

theorem separate_symm (first second : Span) (apart : Separate first second) :
    Separate second first := apart.symm

theorem Laid.conserved {p : Nat} {state : State} {layout : Layout} (laid : Laid p state layout) :
    Conserved p state where
  returned := laid.unbroken
  coalesced := by
    rw [laid.free]
    exact frees_apart p layout laid.settled
  lengths := by
    intro block member
    rw [laid.free] at member
    exact ⟨(frees_bounds p layout laid.settled.filled block member).2.1,
      laid.units _ (mem_segment_of_frees p layout block member)⟩
  unshared := by
    intro block member out outside
    rw [laid.free] at member
    obtain ⟨used, usedMember, rfl⟩ := List.mem_map.mp (laid.out.mem_iff.mp outside)
    rw [laid.occupied_eq used usedMember]
    exact free_used_apart p layout laid.settled.filled block used member usedMember
  apart := by
    have symmetric : ∀ {first second : Nat × BitVec 32},
        Separate (occupied first) (occupied second) → Separate (occupied second) (occupied first) :=
      fun apart => separate_symm _ _ apart
    apply (laid.out.pairwise_iff symmetric).mpr
    apply List.pairwise_map.mpr
    apply List.Pairwise.imp_of_mem _ (useds_apart p layout)
    intro first second firstMember secondMember apart
    rw [laid.occupied_eq first firstMember, laid.occupied_eq second secondMember]
    exact apart
  total := by
    have sum := sizes_sum p layout
    rw [laid.free, (laid.out.map fun out => rounded out.2).sum_eq, ← laid.whole, ← sum, outList,
      List.map_map]
    congr 2
    apply List.map_congr_left
    intro block member
    exact congrArg Span.size (laid.occupied_eq block member)
  restored := by
    intro none
    have out := laid.out
    rw [none] at out
    have unused : useds p layout = [] := by
      have empty := out.symm.eq_nil
      simpa [outList] using empty
    have nonempty : layout ≠ [] := by
      intro empty
      have whole := laid.whole
      rw [empty] at whole
      cases whole
    rw [laid.free, frees_of_unused p layout laid.settled unused nonempty, laid.whole]

theorem start_laid (p : Nat) : Laid p (start p) [Segment.free heapLen] where
  settled := ⟨by simp [Segment.size, heapLen], List.isChain_singleton _⟩
  whole := rfl
  units := by
    intro segment member
    rw [List.mem_singleton.mp member]
    exact ⟨4096 * 48, rfl⟩
  sizes := by
    intro size nbytes member
    cases List.mem_singleton.mp member
  free := rfl
  out := List.Perm.refl _
  maxaddr := rfl
  unbroken := rfl

/-! ## Getting storage -/

theorem carve_some (nbytes : Nat) (memlist after : List Mblock) (block : Nat)
    (found : carve nbytes memlist = some (block, after)) :
    ∃ front p back, memlist = front ++ p :: back ∧ block = p.place ∧
      (p.size = nbytes ∧ after = front ++ back ∨
        nbytes < p.size ∧ after = front ++ ⟨p.place + nbytes, p.size - nbytes⟩ :: back) := by
  induction memlist generalizing after with
  | nil => cases found
  | cons p rest ih =>
      unfold carve at found
      split_ifs at found with exactly larger
      · cases found
        exact ⟨[], p, rest, rfl, rfl, Or.inl ⟨exactly, rfl⟩⟩
      · cases found
        exact ⟨[], p, rest, rfl, rfl, Or.inr ⟨larger, rfl⟩⟩
      · obtain ⟨⟨place, others⟩, taken, shape⟩ := Option.map_eq_some_iff.mp found
        cases shape
        obtain ⟨front, q, back, rfl, same, cases⟩ := ih others taken
        refine ⟨p :: front, q, back, rfl, same, ?_⟩
        rcases cases with ⟨size, rfl⟩ | ⟨size, rfl⟩
        · exact Or.inl ⟨size, rfl⟩
        · exact Or.inr ⟨size, rfl⟩

theorem roundmb_eq (nbytes : BitVec 32) (small : nbytes.toNat ≤ word - 8) :
    roundmb nbytes.toNat = rounded nbytes := by
  unfold roundmb rounded
  unfold word at small ⊢
  omega

theorem outList_append (p : Nat) (front back : Layout) :
    outList p (front ++ back) = outList p front ++ outList (p + extent front) back := by
  rw [outList, useds_append, List.map_append]
  rfl

theorem outList_margin (p size : Nat) (back : Layout) :
    outList p (margin size ++ back) = outList (p + size) back := by
  rw [outList_append, extent_margin]
  simp [outList, useds_margin]

/-- Both ways to serve a request leave what remains of the block free. -/
theorem carve_frees (p nbytes : Nat) (layout : Layout) (after : List Mblock) (block : Nat)
    (found : carve nbytes (frees p layout) = some (block, after)) :
    ∃ front size back, layout = front ++ Segment.free size :: back ∧ nbytes ≤ size ∧
      block = p + extent front ∧
        after = frees p front ++ (frees (block + nbytes) (margin (size - nbytes) : Layout) ++
          frees (block + size) back) := by
  obtain ⟨frontBlocks, chosen, backBlocks, shape, same, cases⟩ := carve_some _ _ _ _ found
  obtain ⟨front, back, rfl, fronts, place, backs⟩ := frees_split p layout _ _ chosen shape
  refine ⟨front, chosen.size, back, rfl, ?_, same.trans place, ?_⟩
  · rcases cases with ⟨size, _⟩ | ⟨size, _⟩ <;> omega
  · rw [same, backs, fronts]
    rcases cases with ⟨size, rfl⟩ | ⟨size, rfl⟩
    · rw [← size, Nat.sub_self]
      rfl
    · have positive : chosen.size - nbytes ≠ 0 := by omega
      rw [margin, if_neg positive]
      rfl

theorem get_laid {p : Nat} {state : State} {layout : Layout} (laid : Laid p state layout)
    (nbytes : BitVec 32) (careful : Careful state (Event.get nbytes)) :
    ∃ after, Laid p (step state (Event.get nbytes)) after := by
  simp only [step, getmem]
  by_cases refused : nbytes = 0 ∨ state.heap.memlist = []
  · rw [if_pos refused]
    exact ⟨layout, laid⟩
  · rw [if_neg refused]
    rw [not_or] at refused
    have small : nbytes.toNat ≤ word - 8 := careful.resolve_right refused.2
    have positive : 0 < rounded nbytes := by
      have nonzero : nbytes.toNat ≠ 0 := fun zero => refused.1 (BitVec.eq_of_toNat_eq zero)
      unfold rounded
      omega
    rw [roundmb_eq nbytes small, laid.free]
    cases found : carve (rounded nbytes) (frees p layout) with
    | none => exact ⟨layout, laid⟩
    | some taken =>
        obtain ⟨block, memlist⟩ := taken
        obtain ⟨front, size, back, rfl, fits, place, rest⟩ :=
          carve_frees p (rounded nbytes) layout memlist block found
        obtain ⟨settledFront, settledBack, _, _, high⟩ := laid.settled.parts
        have whole := laid.whole
        rw [extent_append, extent_cons] at whole
        refine ⟨front ++ Segment.used (rounded nbytes) nbytes ::
          (margin (size - rounded nbytes) ++ back), ?_, ?_, ?_, ?_, ?_, ?_, laid.maxaddr,
          laid.unbroken⟩
        · exact settled_middle front _ _ settledFront
            (settled_margin _ back settledBack (high trivial)) positive
            (fun impossible => impossible.elim) (fun impossible => impossible.elim)
        · rw [extent_append, extent_cons, extent_append, extent_margin]
          simp only [Segment.size] at whole ⊢
          omega
        · have unit := laid.units (Segment.free size) (List.mem_append_right _ List.mem_cons_self)
          have own : 8 ∣ rounded nbytes := Nat.dvd_mul_left 8 _
          intro segment member
          rcases List.mem_append.mp member with inFront | inBack
          · exact laid.units segment (List.mem_append_left _ inFront)
          · rcases List.mem_cons.mp inBack with same | behind
            · rw [same]
              exact own
            · rcases List.mem_append.mp behind with left | later
              · rw [(mem_margin _ segment left).1]
                exact Nat.dvd_sub unit own
              · exact laid.units segment (List.mem_append_right _ (List.mem_cons_of_mem _ later))
        · intro other request member
          rcases List.mem_append.mp member with inFront | inBack
          · exact laid.sizes other request (List.mem_append_left _ inFront)
          · rcases List.mem_cons.mp inBack with same | behind
            · cases same
              rfl
            · rcases List.mem_append.mp behind with left | later
              · cases (mem_margin _ _ left).1
              · exact laid.sizes other request
                  (List.mem_append_right _ (List.mem_cons_of_mem _ later))
        · change memlist = _
          have ends : p + extent front + rounded nbytes + (size - rounded nbytes) =
              p + extent front + size := by omega
          rw [rest, place, frees_append, frees, frees_append, extent_margin, ends]
        · change ((block, nbytes) :: state.outstanding).Perm _
          have out := laid.out
          rw [outList_append] at out
          have ends : p + extent front + rounded nbytes + (size - rounded nbytes) =
              p + extent front + size := by omega
          have shape : outList (p + extent front) (Segment.used (rounded nbytes) nbytes ::
              (margin (size - rounded nbytes) ++ back)) =
              (block, nbytes) :: outList (p + extent front + size) back := by
            have tail := outList_margin (p + extent front + rounded nbytes)
              (size - rounded nbytes) back
            rw [ends] at tail
            rw [← tail, place]
            rfl
          rw [outList_append, shape]
          exact (out.cons (block, nbytes)).trans List.perm_middle.symm

/-! ## Giving storage back -/

theorem top_eq (q : Mblock) (fits : q.place + q.size < word) : Mblock.top q = q.place + q.size := by
  unfold Mblock.top
  rw [Nat.add_comm, Nat.mod_eq_of_lt fits]

theorem joinNext_frees (front : List Mblock) (q : Mblock) (size : Nat) (back : Layout)
    (settled : Settled back) (high : ∀ first ∈ back.head?, ¬ first.isFree)
    (fits : q.place + q.size < word) :
    joinNext front q (frees (q.place + q.size) (margin size ++ back)) =
      front ++ ⟨q.place, q.size + size⟩ :: frees (q.place + q.size + size) back := by
  by_cases none : size = 0
  · rw [none, margin, if_pos rfl, List.nil_append, Nat.add_zero, Nat.add_zero]
    cases shape : frees (q.place + q.size) back with
    | nil => rfl
    | cons next rest =>
        have later := frees_behind _ back settled high next (by rw [shape]; exact List.mem_cons_self)
        rw [joinNext, top_eq q fits, if_neg (by omega)]
  · rw [margin, if_neg none, List.singleton_append, frees, joinNext, if_pos (top_eq q fits)]

theorem split_at_block (p : Nat) (front back : Layout) (size : Nat) (nbytes : BitVec 32)
    (settled : Settled (front ++ Segment.used size nbytes :: back)) :
    (frees p (front ++ Segment.used size nbytes :: back)).takeWhile
        (fun block => decide (block.place < p + extent front)) = frees p front ∧
      (frees p (front ++ Segment.used size nbytes :: back)).dropWhile
        (fun block => decide (block.place < p + extent front)) =
          frees (p + extent front + size) back := by
  obtain ⟨settledFront, settledBack, filled, _, _⟩ := settled.parts
  have positive : 0 < size := filled
  have below : ∀ block ∈ frees p front, decide (block.place < p + extent front) = true := by
    intro block member
    have bounds := frees_bounds p front settledFront.filled block member
    rw [decide_eq_true_eq]
    omega
  rw [frees_append, frees, List.takeWhile_append_of_pos below, List.dropWhile_append_of_pos below]
  cases shape : frees (p + extent front + size) back with
  | nil => exact ⟨List.append_nil _, rfl⟩
  | cons next rest =>
      have bounds := frees_bounds _ back settledBack.filled next
        (by rw [shape]; exact List.mem_cons_self)
      have above : ¬ next.place < p + extent front := by omega
      rw [List.takeWhile_cons_of_neg (by simpa using above),
        List.dropWhile_cons_of_neg (by simpa using above), List.append_nil]
      exact ⟨rfl, rfl⟩

theorem release_frees (p : Nat) (front back : Layout) (low size high : Nat) (nbytes : BitVec 32)
    (settled : Settled ((front ++ margin low) ++ Segment.used size nbytes :: (margin high ++ back)))
    (settledFront : Settled front) (settledBack : Settled back)
    (lowUsed : ∀ last ∈ front.getLast?, ¬ last.isFree)
    (highUsed : ∀ first ∈ back.head?, ¬ first.isFree)
    (fits : p + extent front + low + size + high + extent back < word) :
    release (frees p ((front ++ margin low) ++ Segment.used size nbytes :: (margin high ++ back)))
        (p + extent front + low) size =
      Freed.ok (frees p (front ++ Segment.free (low + size + high) :: back)) := by
  have blockEq : p + extent front + low = p + extent (front ++ margin low : Layout) := by
    rw [extent_append, extent_margin, Nat.add_assoc]
  obtain ⟨before, after⟩ := split_at_block p _ _ size nbytes settled
  rw [← blockEq] at before after
  have settledAfter := settled_margin high back settledBack highUsed
  have filled : 0 < size := settled.parts.2.2.1
  have result : frees p (front ++ Segment.free (low + size + high) :: back) =
      frees p front ++ ⟨p + extent front, low + size + high⟩ ::
        frees (p + extent front + (low + size + high)) back := by
    rw [frees_append, frees]
  have afterPlaces : ∀ next ∈ (frees (p + extent front + low + size)
      (margin high ++ back : Layout)).head?, p + extent front + low + size ≤ next.place := by
    intro next head
    exact (frees_bounds _ _ settledAfter.filled next (List.mem_of_head? head)).1
  have clear : (frees (p + extent front + low + size) (margin high ++ back : Layout)).head?.any
      (fun next => decide (next.place < (size + (p + extent front + low)) % word)) = false := by
    rw [Option.any_eq_false]
    intro next head
    have place := afterPlaces next head
    have plain : (size + (p + extent front + low)) % word = size + (p + extent front + low) :=
      Nat.mod_eq_of_lt (by omega)
    have above : ¬ next.place < size + (p + extent front + low) := by omega
    rw [plain]
    simpa using above
  have unlooped : (frees (p + extent front + low + size) (margin high ++ back : Layout)).head?.any
      (fun next => decide (next.place = p + extent front + low)) = false := by
    rw [Option.any_eq_false]
    intro next head
    have place := afterPlaces next head
    have above : next.place ≠ p + extent front + low := by omega
    simpa using above
  unfold release
  simp only [before, after, clear, unlooped, Bool.or_false, Bool.false_eq_true, if_false]
  by_cases none : low = 0
  · -- nothing to join below: every free block in front ends before the block
    have same : (front ++ margin low : Layout) = front := by
      rw [none, margin, if_pos rfl, List.append_nil]
    rw [same]
    subst none
    simp only [Nat.add_zero, Nat.zero_add] at fits result ⊢
    have inside : p + extent front + size < word := by omega
    have joined := joinNext_frees (frees p front) ⟨p + extent front, size⟩ high back settledBack
      highUsed inside
    have places : p + extent front + (size + high) = p + extent front + size + high := by omega
    rw [result, places]
    cases last : (frees p front).getLast? with
    | none =>
        simp only [Option.any_none, Bool.false_eq_true, if_false]
        rw [joined]
    | some q =>
        have bounds := frees_before p front settledFront lowUsed q (List.mem_of_getLast? last)
        have top := top_eq q (by omega)
        have under : ¬ p + extent front < Mblock.top q := by omega
        have apart : Mblock.top q ≠ p + extent front := by omega
        simp only [Option.any_some, under, apart, decide_false, Bool.false_eq_true, if_false]
        rw [joined]
  · have shape : frees p (front ++ margin low : Layout) =
        frees p front ++ [⟨p + extent front, low⟩] := by
      rw [frees_append, margin, if_neg none]
      rfl
    have lowInside : p + extent front + low < word := by omega
    have top := top_eq ⟨p + extent front, low⟩ lowInside
    have inside : p + extent front + (low + size) < word := by omega
    have joined := joinNext_frees (frees p front) ⟨p + extent front, low + size⟩ high back
      settledBack highUsed inside
    have places : p + extent front + (low + size) = p + extent front + low + size := by omega
    have total : p + extent front + (low + size + high) =
        p + extent front + low + size + high := by omega
    rw [places] at joined
    rw [shape, List.getLast?_append, List.getLast?_singleton, Option.some_or,
      List.dropLast_concat, result, total]
    simp only [Option.any_some, top, lt_irrefl, decide_false, Bool.false_eq_true, if_false,
      if_true]
    rw [joined]

/-- A block that is out, with the segments around it. -/
theorem Laid.around {p : Nat} {state : State} {layout : Layout} (laid : Laid p state layout)
    (block : Nat) (nbytes : BitVec 32) (out : (block, nbytes) ∈ state.outstanding) :
    ∃ (front back : Layout) (low high : Nat),
      layout = (front ++ margin low) ++ Segment.used (rounded nbytes) nbytes ::
          (margin high ++ back) ∧
        block = p + extent front + low ∧ Settled front ∧ Settled back ∧
          (∀ last ∈ front.getLast?, ¬ last.isFree) ∧
            (∀ first ∈ back.head?, ¬ first.isFree) := by
  obtain ⟨⟨span, request⟩, member, same⟩ := List.mem_map.mp (laid.out.mem_iff.mp out)
  cases same
  obtain ⟨before, after, rfl, place⟩ := useds_split p layout (span, request) member
  have size : span.size = rounded request :=
    laid.sizes span.size request (List.mem_append_right _ List.mem_cons_self)
  obtain ⟨settledBefore, settledAfter, _⟩ := laid.settled.parts
  obtain ⟨front, low, rfl, settledFront, lowUsed⟩ := settledBefore.split_last
  obtain ⟨high, back, rfl, settledBack, highUsed⟩ := settledAfter.split_first
  refine ⟨front, back, low, high, by rw [← size], ?_, settledFront, settledBack, lowUsed,
    highUsed⟩
  rw [extent_append, extent_margin] at place
  rw [place, Nat.add_assoc]

theorem rounded_pos {p : Nat} {state : State} {layout : Layout} (laid : Laid p state layout)
    (front back : Layout) (nbytes : BitVec 32)
    (shape : layout = front ++ Segment.used (rounded nbytes) nbytes :: back) :
    0 < rounded nbytes ∧ rounded nbytes < word := by
  have whole := laid.whole
  have settled := laid.settled
  rw [shape] at whole settled
  rw [extent_append, extent_cons] at whole
  have length : heapLen < word := by decide
  simp only [Segment.size] at whole
  exact ⟨settled.parts.2.2.1, by omega⟩

theorem free_laid {p : Nat} (fits : p + heapLen < word) {state : State} {layout : Layout}
    (laid : Laid p state layout) (index : Nat) (careful : Careful state (Event.free index)) :
    ∃ after, Laid p (step state (Event.free index)) after := by
  simp only [step]
  cases chosen : state.outstanding[index]? with
  | none => exact ⟨layout, laid⟩
  | some out =>
      obtain ⟨block, nbytes⟩ := out
      have member := List.mem_of_getElem? chosen
      obtain ⟨front, back, low, high, shape, place, settledFront, settledBack, lowUsed, highUsed⟩ :=
        laid.around block nbytes member
      obtain ⟨positive, bounded⟩ := rounded_pos laid _ _ nbytes shape
      have whole := laid.whole
      have settled := laid.settled
      have units := laid.units
      have sizes := laid.sizes
      have free := laid.free
      have outs := laid.out
      rw [shape] at whole settled units sizes free outs
      simp only [extent_append, extent_cons, extent_margin, Segment.size] at whole
      have small : roundmb nbytes.toNat = rounded nbytes := by
        apply roundmb_eq
        unfold rounded at bounded
        unfold word at bounded ⊢
        omega
      have nonzero : nbytes ≠ 0 := by
        intro zero
        rw [zero] at positive
        cases positive
      have inside : ¬ state.heap.maxaddr < block := by
        rw [laid.maxaddr]
        omega
      have above : state.heap.memlist.head?.any (fun first => decide (block < first.place)) =
          false := by
        rw [Option.any_eq_false]
        intro first head
        have order := careful block nbytes chosen first head
        have notBelow : ¬ block < first.place := by omega
        simpa using notBelow
      have freed : freemem state.heap block nbytes = Freed.ok
          (frees p (front ++ Segment.free (low + rounded nbytes + high) :: back)) := by
        unfold freemem
        simp only [nonzero, inside, above, Bool.false_eq_true, or_self, if_false]
        rw [small, free, place]
        exact release_frees p front back low (rounded nbytes) high nbytes settled settledFront
          settledBack lowUsed highUsed (by omega)
      simp only [freed]
      have divided : 8 ∣ low + rounded nbytes + high := by
        have lowUnit : 8 ∣ low := by
          by_cases none : low = 0
          · rw [none]
            exact Nat.dvd_zero 8
          · exact units (Segment.free low) (List.mem_append_left _ (List.mem_append_right _
              (by rw [margin, if_neg none]; exact List.mem_singleton_self _)))
        have highUnit : 8 ∣ high := by
          by_cases none : high = 0
          · rw [none]
            exact Nat.dvd_zero 8
          · exact units (Segment.free high) (List.mem_append_right _ (List.mem_cons_of_mem _
              (List.mem_append_left _
                (by rw [margin, if_neg none]; exact List.mem_singleton_self _))))
        exact Nat.dvd_add (Nat.dvd_add lowUnit (Nat.dvd_mul_left 8 _)) highUnit
      refine ⟨front ++ Segment.free (low + rounded nbytes + high) :: back, ?_, ?_, ?_, ?_, rfl, ?_,
        laid.maxaddr, laid.unbroken⟩
      · apply settled_middle front back _ settledFront settledBack
        · simp only [Segment.size]
          omega
        · exact fun _ => lowUsed
        · exact fun _ => highUsed
      · rw [extent_append, extent_cons]
        simp only [Segment.size]
        omega
      · intro segment within
        rcases List.mem_append.mp within with inFront | inBack
        · exact units segment (List.mem_append_left _ (List.mem_append_left _ inFront))
        · rcases List.mem_cons.mp inBack with same | behind
          · rw [same]
            exact divided
          · exact units segment (List.mem_append_right _ (List.mem_cons_of_mem _
              (List.mem_append_right _ behind)))
      · intro size request within
        rcases List.mem_append.mp within with inFront | inBack
        · exact sizes size request (List.mem_append_left _ (List.mem_append_left _ inFront))
        · rcases List.mem_cons.mp inBack with same | behind
          · cases same
          · exact sizes size request (List.mem_append_right _ (List.mem_cons_of_mem _
              (List.mem_append_right _ behind)))
      · have oldShape : outList p ((front ++ margin low) ++
            Segment.used (rounded nbytes) nbytes :: (margin high ++ back)) =
            outList p front ++ (block, nbytes) ::
              outList (p + extent front + low + rounded nbytes + high) back := by
          have lowNone := outList_margin (p + extent front) low []
          have tail := outList_margin (p + extent front + low + rounded nbytes) high back
          rw [outList_append, outList_append, extent_append, extent_margin, ← Nat.add_assoc,
            ← tail, place]
          rw [List.append_nil] at lowNone
          rw [lowNone]
          simp [outList, useds]
        have newShape : outList p (front ++ Segment.free (low + rounded nbytes + high) :: back) =
            outList p front ++ outList (p + extent front + low + rounded nbytes + high) back := by
          have places : p + extent front + (low + rounded nbytes + high) =
              p + extent front + low + rounded nbytes + high := by omega
          rw [outList_append, ← places]
          rfl
        rw [oldShape] at outs
        rw [newShape]
        have taken : (state.outstanding).Perm
            ((block, nbytes) :: state.outstanding.eraseIdx index) := by
          obtain ⟨bound, same⟩ := List.getElem?_eq_some_iff.mp chosen
          rw [← same]
          exact (List.getElem_cons_eraseIdx_perm bound).symm
        exact ((taken.symm.trans outs).trans List.perm_middle).cons_inv

/-! ## Calls that break the heap -/

/-- A request that is rounded to 0 gets storage that stays free. -/
theorem get_careful {p : Nat} {state : State} {layout : Layout} (laid : Laid p state layout)
    (nbytes : BitVec 32) (conserved : Conserved p (step state (Event.get nbytes))) :
    Careful state (Event.get nbytes) := by
  by_contra reckless
  simp only [Careful, not_or] at reckless
  obtain ⟨large, nonempty⟩ := reckless
  have nonzero : nbytes ≠ 0 := by
    intro zero
    rw [zero] at large
    exact large (by decide)
  have none : roundmb nbytes.toNat = 0 := by
    have bound := nbytes.isLt
    unfold roundmb
    unfold word at large ⊢
    omega
  obtain ⟨first, rest, shape⟩ := List.exists_cons_of_ne_nil nonempty
  have positive : 0 < first.size := by
    apply (laid.conserved.lengths first _).1
    rw [shape]
    exact List.mem_cons_self
  have taken : getmem state.heap nbytes = some (first.place,
      { state.heap with memlist := ⟨first.place + 0, first.size - 0⟩ :: rest }) := by
    unfold getmem
    rw [if_neg (by rw [not_or]; exact ⟨nonzero, nonempty⟩), none, shape, carve,
      if_neg (by omega), if_pos positive]
    rfl
  simp only [step, taken] at conserved
  have apart := conserved.unshared ⟨first.place + 0, first.size - 0⟩ List.mem_cons_self
    (first.place, nbytes) List.mem_cons_self
  have extra : 0 < rounded nbytes := by
    unfold rounded
    unfold word at large
    omega
  simp only [Separate, occupied] at apart
  omega

/-- A block below the first free one is refused. -/
theorem free_careful {p : Nat} {state : State} (index : Nat)
    (conserved : Conserved p (step state (Event.free index))) :
    Careful state (Event.free index) := by
  intro block nbytes chosen first head
  by_contra below
  have refused : freemem state.heap block nbytes = Freed.syserr := by
    unfold freemem
    rw [if_pos]
    right
    right
    rw [head, Option.any_some, decide_eq_true_eq]
    omega
  have returned := conserved.returned
  simp only [step, chosen, refused] at returned
  cases returned

/-! ## Runs -/

def LaidOut (p : Nat) (state : State) : Prop := ∃ layout, Laid p state layout

theorem step_laid (p : Nat) (fits : p + heapLen < word) (state : State) (event : Event)
    (laidOut : LaidOut p state) (careful : Careful state event) : LaidOut p (step state event) := by
  obtain ⟨layout, laid⟩ := laidOut
  cases event with
  | get nbytes => exact get_laid laid nbytes careful
  | free index => exact free_laid fits laid index careful

theorem careful_of_conserved (p : Nat) (state : State) (event : Event) (laidOut : LaidOut p state)
    (conserved : Conserved p (step state event)) : Careful state event := by
  obtain ⟨layout, laid⟩ := laidOut
  cases event with
  | get nbytes => exact get_careful laid nbytes conserved
  | free index => exact free_careful index conserved

theorem heap_conserved_iff (p : Nat) (fits : p + heapLen < word) (events : List Event) :
    (∀ count, Conserved p ((events.take count).foldl step (start p))) ↔
      Runs.Permitted step Careful (start p) events := by
  have initial : LaidOut p (start p) := ⟨_, start_laid p⟩
  have good : ∀ state, LaidOut p state → Conserved p state := by
    rintro state ⟨layout, laid⟩
    exact laid.conserved
  exact Runs.throughout_iff_permitted events initial good (step_laid p fits)
    (careful_of_conserved p)

/-- All storage in two blocks, of which the lower one is given back first. -/
def twoBlocks : List Event :=
  [Event.get 8, Event.get 1572856, Event.free 1, Event.free 0]

theorem two_blocks_conserved :
    Runs.Permitted step Careful (start 65536) twoBlocks ∧
      ∀ count, Conserved 65536 ((twoBlocks.take count).foldl step (start 65536)) := by
  have permitted : Runs.Permitted step Careful (start 65536) twoBlocks := by
    refine ⟨Or.inl (by decide), Or.inl (by decide), ?_, ?_, trivial⟩
    · intro block nbytes _ first head
      cases head
    · intro block nbytes chosen first head
      cases chosen
      cases head
      decide
  exact ⟨permitted, (heap_conserved_iff 65536 (by decide) twoBlocks).mpr permitted⟩

/-- One block, given back at once. -/
def oneBlock : List Event := [Event.get 8, Event.free 0]

theorem one_block_refused :
    ¬ ∀ count, Conserved 65536 ((oneBlock.take count).foldl step (start 65536)) := by
  intro throughout
  have returned := (throughout 2).returned
  revert returned
  decide +kernel

end MvsXinu.Memory
