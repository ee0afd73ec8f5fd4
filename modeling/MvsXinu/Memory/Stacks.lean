import MvsXinu.Memory.Heap

/-!
# Stack storage (`getstk.c`, `freestk` in `mem.h`)

`getstk` takes the high end of the last free block that is large enough. It rounds the length
to words and returns the topmost word, from which `freestk` computes the lowest octet with a
length that is rounded to blocks of the free list.
-/

namespace MvsXinu.Memory

set_option autoImplicit false

def roundew (x : Nat) : Nat := (3 + x) % word / 4 * 4

/-- The address of the topmost word and the free list without what was taken. -/
def carveTop (nbytes : Nat) : List Mblock → Option (Nat × List Mblock)
  | [] => none
  | p :: rest =>
      match carveTop nbytes rest with
      | some found => some (found.1, p :: found.2)
      | none =>
          if p.size < nbytes then none
          else if p.size = nbytes then some (p.place + p.size - 4, rest)
          else some (p.place + p.size - 4, ⟨p.place, p.size - nbytes⟩ :: rest)

/-- `none` is `SYSERR`. -/
def getstk (heap : Heap) (nbytes : BitVec 32) : Option Nat × Heap :=
  if nbytes = 0 then (none, heap)
  else
    match carveTop (roundew nbytes.toNat) heap.memlist with
    | none => (none, heap)
    | some (fits, memlist) => (some fits, { heap with memlist := memlist })

def freestk (heap : Heap) (p : Nat) (len : BitVec 32) : Freed :=
  freemem heap ((p + (word - roundmb len.toNat) + 4) % word) (BitVec.ofNat 32 (roundmb len.toNat))

/-! ## The free list -/

/-- Free blocks in the order of their addresses, with something allocated between them. -/
structure Spaced (heap : Heap) : Prop where
  apart : heap.memlist.Pairwise fun first second => first.place + first.size < second.place
  inside : ∀ block ∈ heap.memlist, block.place + block.size ≤ heap.maxaddr + 1
  short : heap.maxaddr + 1 < word

def Aligned (memlist : List Mblock) : Prop :=
  ∀ block ∈ memlist, 0 < block.size ∧ block.size % 8 = 0 ∧ block.place % 8 = 0

structure Sound (heap : Heap) : Prop where
  spaced : Spaced heap
  aligned : Aligned heap.memlist

/-- `block` is the last one that is large enough. -/
structure LastFit (nbytes : Nat) (memlist front : List Mblock) (block : Mblock)
    (back : List Mblock) : Prop where
  place : memlist = front ++ block :: back
  fits : nbytes ≤ block.size
  last : ∀ other ∈ back, other.size < nbytes

/-- What is left of a block at its place. -/
def remainder (nbytes : Nat) (block : Mblock) : List Mblock :=
  if block.size = nbytes then [] else [⟨block.place, block.size - nbytes⟩]

theorem carveTop_none_iff (nbytes : Nat) (memlist : List Mblock) :
    carveTop nbytes memlist = none ↔ ∀ block ∈ memlist, block.size < nbytes := by
  induction memlist with
  | nil => simp [carveTop]
  | cons p rest ih =>
      rw [carveTop]
      cases found : carveTop nbytes rest with
      | some later =>
          rw [found] at ih
          have fits := ih.not.mp (by simp)
          simp only [reduceCtorEq, List.forall_mem_cons, false_iff]
          intro all
          exact fits all.2
      | none =>
          rw [found] at ih
          have small := ih.mp rfl
          dsimp only
          split_ifs with less exactly
          · simp only [List.forall_mem_cons, true_iff]
            exact ⟨less, small⟩
          · simp [less]
          · simp [less]

theorem carveTop_lastFit (nbytes : Nat) (memlist front back : List Mblock) (block : Mblock)
    (found : LastFit nbytes memlist front block back) :
    carveTop nbytes memlist =
      some (block.place + block.size - 4, front ++ remainder nbytes block ++ back) := by
  obtain ⟨rfl, fits, last⟩ := found
  induction front with
  | nil =>
      rw [List.nil_append, carveTop, (carveTop_none_iff nbytes back).mpr last]
      dsimp only
      rw [if_neg (by omega), remainder]
      split_ifs <;> rfl
  | cons p front ih =>
      rw [List.cons_append, carveTop, ih]
      rfl

theorem lastFit_of_fits (nbytes : Nat) (memlist : List Mblock)
    (some : ∃ block ∈ memlist, nbytes ≤ block.size) :
    ∃ front block back, LastFit nbytes memlist front block back := by
  induction memlist with
  | nil =>
      obtain ⟨_, member, _⟩ := some
      cases member
  | cons p rest ih =>
      by_cases later : ∃ block ∈ rest, nbytes ≤ block.size
      · obtain ⟨front, block, back, rfl, fits, last⟩ := ih later
        exact ⟨p :: front, block, back, rfl, fits, last⟩
      · obtain ⟨block, member, fits⟩ := some
        rcases List.mem_cons.mp member with rfl | behind
        · refine ⟨[], block, rest, rfl, fits, ?_⟩
          intro other isOther
          by_contra large
          exact later ⟨other, isOther, by omega⟩
        · exact absurd ⟨block, behind, fits⟩ later

/-! ## What `freemem` does to the end of a block -/

/-- The free blocks in front of an address and behind it. -/
theorem split_places (front back : List Mblock) (address : Nat)
    (below : ∀ block ∈ front, block.place < address)
    (above : ∀ block ∈ back, address ≤ block.place) :
    (front ++ back).takeWhile (fun block => decide (block.place < address)) = front ∧
      (front ++ back).dropWhile (fun block => decide (block.place < address)) = back := by
  induction front with
  | nil =>
      cases back with
      | nil => exact ⟨rfl, rfl⟩
      | cons p rest =>
          have stops : decide (p.place < address) = false := by
            have notBelow := above p (by simp)
            simpa using notBelow
          simp only [List.nil_append, List.takeWhile_cons, List.dropWhile_cons, stops,
            Bool.false_eq_true, if_false, and_self]
  | cons p front ih =>
      obtain ⟨taken, dropped⟩ := ih (fun block member => below block (by simp [member]))
      have goesOn : decide (p.place < address) = true := decide_eq_true (below p (by simp))
      simp only [List.cons_append, List.takeWhile_cons, List.dropWhile_cons, goesOn, if_true, taken,
        dropped, and_self]

/-- A block that no free one touches from above is only put behind what is in front of it. -/
theorem joinNext_apart (front back : List Mblock) (q : Mblock) (fits : q.place + q.size < word)
    (apart : ∀ block ∈ back, q.place + q.size < block.place) :
    joinNext front q back = front ++ q :: back := by
  cases back with
  | nil => rfl
  | cons p rest =>
      have before := apart p (by simp)
      have top : q.top = q.place + q.size := by
        rw [Mblock.top, Nat.mod_eq_of_lt (by omega), Nat.add_comm]
      rw [joinNext, top, if_neg (by omega)]

/-- The high end of a free block goes back to it. -/
theorem release_end (front back : List Mblock) (block : Mblock) (size : Nat)
    (fits : block.place + block.size < word) (part : size < block.size) (some : 0 < size)
    (below : ∀ other ∈ front, other.place < block.place)
    (above : ∀ other ∈ back, block.place + block.size < other.place) :
    release (front ++ ⟨block.place, block.size - size⟩ :: back) (block.place + (block.size - size))
      size = Freed.ok (front ++ block :: back) := by
  obtain ⟨before, after⟩ := split_places (front ++ [⟨block.place, block.size - size⟩]) back
    (block.place + (block.size - size))
    (by
      intro other member
      rcases List.mem_append.mp member with inFront | last
      · have less := below other inFront
        omega
      · rw [List.mem_singleton.mp last]
        dsimp only
        omega)
    (by
      intro other member
      have more := above other member
      omega)
  rw [List.append_assoc, List.singleton_append] at before after
  have top : Mblock.top ⟨block.place, block.size - size⟩ = block.place + (block.size - size) := by
    rw [Mblock.top, Nat.mod_eq_of_lt (by dsimp only; omega)]
    dsimp only
    omega
  have free : (back.head?.any fun other =>
      decide (other.place < (size + (block.place + (block.size - size))) % word)) = false := by
    rw [Nat.mod_eq_of_lt (by omega)]
    cases back with
    | nil => rfl
    | cons other rest =>
        have more := above other (by simp)
        simp only [List.head?_cons, Option.any_some, decide_eq_false_iff_not]
        omega
  have whole : block.size - size + size = block.size := by omega
  rw [release, before, after]
  rw [List.getLast?_concat, free, Option.any_some, top]
  simp only [lt_irrefl, decide_false, Bool.or_self, Bool.false_eq_true, if_false,
    List.dropLast_concat, whole]
  rw [joinNext_apart front back _ fits above, if_pos top]

/-- A whole block goes back to its place. -/
theorem release_block (front back : List Mblock) (block : Mblock)
    (fits : block.place + block.size < word)
    (below : ∀ other ∈ front, other.place + other.size < block.place)
    (above : ∀ other ∈ back, block.place + block.size < other.place) :
    release (front ++ back) block.place block.size = Freed.ok (front ++ block :: back) := by
  obtain ⟨before, after⟩ := split_places front back block.place
    (by
      intro other member
      have less := below other member
      omega)
    (by
      intro other member
      have more := above other member
      omega)
  have free : (back.head?.any fun other =>
      decide (other.place < (block.size + block.place) % word)) = false := by
    rw [Nat.mod_eq_of_lt (by omega)]
    cases back with
    | nil => rfl
    | cons other rest =>
        have more := above other (by simp)
        simp only [List.head?_cons, Option.any_some, decide_eq_false_iff_not]
        omega
  have unlinked : (back.head?.any fun other => decide (other.place = block.place)) = false := by
    cases back with
    | nil => rfl
    | cons other rest =>
        have more := above other (by simp)
        simp only [List.head?_cons, Option.any_some, decide_eq_false_iff_not]
        omega
  rw [release, before, after]
  rw [free]
  cases last : front.getLast? with
  | none =>
      simp only [Option.any_none, Bool.or_self, Bool.false_eq_true, if_false, unlinked]
      rw [joinNext_apart front back block fits above]
  | some q =>
      have member : q ∈ front := List.mem_of_getLast? last
      have less := below q member
      have top : q.top = q.place + q.size := by
        rw [Mblock.top, Nat.mod_eq_of_lt (by omega), Nat.add_comm]
      have separate : ¬ block.place < q.place + q.size := by omega
      have untouched : ¬ q.place + q.size = block.place := by omega
      simp only [Option.any_some, top, separate, untouched, decide_false, Bool.or_self,
        Bool.false_eq_true, if_false, unlinked]
      rw [joinNext_apart front back block fits above]

/-! ## The law of a stack -/

/-- What `getstk` did when it returned `p`: it took the high end of the last block that is large
enough, and the octet behind the topmost word is the end of that block. -/
structure TakenHigh (heap : Heap) (n p : Nat) (after : List Mblock) : Prop where
  taken : ∃ front block back amount, LastFit n heap.memlist front block back ∧ n ≤ amount ∧
    p + 4 = block.place + block.size ∧ after = front ++ remainder amount block ++ back

structure StackLaw (heap : Heap) (nbytes : BitVec 32) : Prop where
  fails : (getstk heap nbytes).1 = none → (getstk heap nbytes).2 = heap
  takes : ∀ p, (getstk heap nbytes).1 = some p →
    TakenHigh heap nbytes.toNat p (getstk heap nbytes).2.memlist ∧
      Aligned (getstk heap nbytes).2.memlist ∧
      freestk (getstk heap nbytes).2 p nbytes = Freed.ok heap.memlist

/-- The first free block is the only one that is large enough, is taken whole, and is not the
only one. -/
def TakesFirst (heap : Heap) (n : Nat) : Prop :=
  ∃ block back, heap.memlist = block :: back ∧ back ≠ [] ∧ block.size = roundmb n ∧
    ∀ other ∈ back, other.size < n

/-- When a stack of `n` octets can be given back. -/
def Returnable (heap : Heap) (n : Nat) : Prop :=
  if word - 4 < n then heap.memlist = []
  else (∀ block ∈ heap.memlist, block.size < n) ∨
    ((n % 8 = 0 ∨ 4 < n % 8) ∧ ¬ TakesFirst heap n)

variable {heap : Heap} {front back : List Mblock} {block : Mblock} {nbytes : BitVec 32}

/-- Blocks of multiples of 8 are large enough for the rounded length if they are for the length. -/
theorem LastFit.rounded (aligned : Aligned heap.memlist) (small : nbytes.toNat ≤ word - 4)
    (found : LastFit nbytes.toNat heap.memlist front block back) :
    LastFit (roundew nbytes.toNat) heap.memlist front block back := by
  have same : ∀ size, size % 8 = 0 → (roundew nbytes.toNat ≤ size ↔ nbytes.toNat ≤ size) := by
    intro size whole
    unfold roundew word at *
    omega
  obtain ⟨place, fits, last⟩ := found
  have eights : ∀ other ∈ front ++ block :: back, other.size % 8 = 0 := by
    intro other member
    rw [← place] at member
    exact (aligned other member).2.1
  refine ⟨place, ?_, ?_⟩
  · exact (same _ (eights block (by simp))).mpr fits
  · intro other member
    have less := last other member
    have rounding := same _ (eights other (by simp [member]))
    omega

theorem getstk_lastFit (aligned : Aligned heap.memlist) (some : nbytes ≠ 0)
    (small : nbytes.toNat ≤ word - 4)
    (found : LastFit nbytes.toNat heap.memlist front block back) :
    getstk heap nbytes = (Option.some (block.place + block.size - 4),
      { heap with memlist := front ++ remainder (roundew nbytes.toNat) block ++ back }) := by
  rw [getstk, if_neg some, carveTop_lastFit _ _ front back block (found.rounded aligned small)]

theorem getstk_unfit (some : nbytes ≠ 0) (small : nbytes.toNat ≤ word - 4)
    (unfit : ∀ block ∈ heap.memlist, block.size < nbytes.toNat) :
    getstk heap nbytes = (none, heap) := by
  have none : carveTop (roundew nbytes.toNat) heap.memlist = none := by
    rw [carveTop_none_iff]
    intro block member
    have less := unfit block member
    unfold roundew word at *
    omega
  rw [getstk, if_neg some, none]

/-- A length that rounds to nothing takes nothing of the last block. -/
theorem getstk_huge (huge : word - 4 < nbytes.toNat) :
    (heap.memlist = [] → getstk heap nbytes = (none, heap)) ∧
      (heap.memlist ≠ [] → ∃ p, (getstk heap nbytes).1 = some p) := by
  have bound := nbytes.isLt
  have nonzero : nbytes ≠ 0 := by
    intro zero
    rw [zero] at huge
    unfold word at huge
    simp at huge
  have nothing : roundew nbytes.toNat = 0 := by
    unfold roundew word at *
    omega
  constructor
  · intro empty
    rw [getstk, if_neg nonzero, empty, carveTop]
  · intro nonempty
    obtain ⟨front, block, back, found⟩ := lastFit_of_fits 0 heap.memlist
      (by
        obtain ⟨block, member⟩ := List.exists_mem_of_ne_nil _ nonempty
        exact ⟨block, member, Nat.zero_le _⟩)
    rw [getstk, if_neg nonzero, nothing, carveTop_lastFit _ _ front back block found]
    exact ⟨_, rfl⟩

theorem roundmb_fits (nbytes : BitVec 32) (positive : 0 < nbytes.toNat)
    (fits : nbytes.toNat ≤ word - 8) :
    nbytes.toNat ≤ roundmb nbytes.toNat ∧ roundmb nbytes.toNat % 8 = 0 ∧
      roundmb nbytes.toNat ≤ word - 8 ∧
      roundmb (BitVec.ofNat 32 (roundmb nbytes.toNat)).toNat = roundmb nbytes.toNat := by
  have bounds : nbytes.toNat ≤ roundmb nbytes.toNat ∧ roundmb nbytes.toNat % 8 = 0 ∧
      roundmb nbytes.toNat ≤ word - 8 := by
    unfold roundmb word at *
    omega
  have again : ∀ size, size % 8 = 0 → size ≤ word - 8 → roundmb size = size := by
    intro size eights small
    unfold roundmb word at *
    omega
  refine ⟨bounds.1, bounds.2.1, bounds.2.2, ?_⟩
  have value : (BitVec.ofNat 32 (roundmb nbytes.toNat)).toNat = roundmb nbytes.toNat := by
    rw [BitVec.toNat_ofNat, Nat.mod_eq_of_lt]
    unfold word at bounds
    omega
  rw [value, again _ bounds.2.1 bounds.2.2]

/-- From the topmost word of a block `freestk` comes to where the block begins, if it is as long
as the rounding to blocks makes it. -/
theorem freestk_block (after : Heap) (p top : Nat) (behind : p + 4 = top)
    (inside : top ≤ after.maxaddr + 1) (short : after.maxaddr + 1 < word)
    (positive : 0 < nbytes.toNat) (fits : nbytes.toNat ≤ word - 8)
    (room : roundmb nbytes.toNat ≤ top) :
    freestk after p nbytes =
      if after.memlist.head?.any (fun q => decide (top - roundmb nbytes.toNat < q.place)) then
        Freed.syserr
      else release after.memlist (top - roundmb nbytes.toNat) (roundmb nbytes.toNat) := by
  obtain ⟨least, _, most, again⟩ := roundmb_fits nbytes positive fits
  have address : (p + (word - roundmb nbytes.toNat) + 4) % word = top - roundmb nbytes.toNat := by
    have sum : p + (word - roundmb nbytes.toNat) + 4 = top - roundmb nbytes.toNat + word := by
      unfold word at *
      omega
    rw [sum, Nat.add_mod_right, Nat.mod_eq_of_lt (by omega)]
  have nonzero : BitVec.ofNat 32 (roundmb nbytes.toNat) ≠ 0 := by
    intro zero
    rw [zero] at again
    have none : roundmb (0 : BitVec 32).toNat = 0 := rfl
    omega
  have low : ¬ after.maxaddr < top - roundmb nbytes.toNat := by omega
  rw [freestk, freemem, address, again]
  simp only [nonzero, low, false_or]

section Fitting

variable (sound : Sound heap) (positive : 0 < nbytes.toNat)
  (found : LastFit nbytes.toNat heap.memlist front block back)

include sound found

/-- The block is apart from the others, and what it gives is not longer than it is. -/
theorem LastFit.placed :
    (∀ other ∈ front, other.place + other.size < block.place) ∧
      (∀ other ∈ back, block.place + block.size < other.place) ∧
      block.size % 8 = 0 ∧ 0 < block.size ∧ block.place + block.size ≤ heap.maxaddr + 1 ∧
      block.place + block.size ≤ word - 8 ∧ nbytes.toNat ≤ word - 8 := by
  have member : block ∈ heap.memlist := by
    rw [found.place]
    simp
  have apart := sound.spaced.apart
  rw [found.place] at apart
  obtain ⟨_, behind, across⟩ := List.pairwise_append.mp apart
  obtain ⟨some, eights, places⟩ := sound.aligned block member
  have inside := sound.spaced.inside block member
  have short := sound.spaced.short
  have fits := found.fits
  have limit : block.place + block.size ≤ word - 8 := by
    unfold word at *
    omega
  refine ⟨?_, (List.pairwise_cons.mp behind).1, eights, some, inside, limit, by omega⟩
  intro other isOther
  exact across other isOther block (by simp)

/-- The whole block is taken, and is not the first one or the only one. -/
theorem freed_whole (notFirst : ¬ TakesFirst heap nbytes.toNat)
    (exactly : block.size = roundmb nbytes.toNat) :
    ((front ++ back).head?.any fun q => decide (block.place < q.place)) = false := by
  obtain ⟨below, _, _, _, _, _, _⟩ := found.placed sound
  cases front with
  | nil =>
      cases back with
      | nil => rfl
      | cons other rest =>
          exact absurd ⟨block, other :: rest, found.place, by simp, exactly, found.last⟩ notFirst
  | cons other front =>
      have less := below other (by simp)
      simp only [List.cons_append, List.head?_cons, Option.any_some, decide_eq_false_iff_not]
      omega

/-- What is left of the block lies in front of what is given back. -/
theorem freed_part (size : Nat) :
    ((front ++ (⟨block.place, size⟩ : Mblock) :: back).head?.any fun q =>
      decide (block.place + size < q.place)) = false := by
  obtain ⟨below, _, _, _, _, _, _⟩ := found.placed sound
  cases front with
  | nil =>
      simp only [List.nil_append, List.head?_cons, Option.any_some, decide_eq_false_iff_not]
      omega
  | cons other front =>
      have less := below other (by simp)
      simp only [List.cons_append, List.head?_cons, Option.any_some, decide_eq_false_iff_not]
      omega

include positive

theorem nonzero_of_fits : nbytes ≠ 0 ∧ nbytes.toNat ≤ word - 4 := by
  obtain ⟨_, _, _, _, _, _, small⟩ := found.placed sound
  constructor
  · intro zero
    rw [zero] at positive
    simp at positive
  · unfold word at *
    omega

/-- What is left of the block has a length of multiples of 8 only if the rounding has. -/
theorem law_rounding (law : StackLaw heap nbytes) : roundew nbytes.toNat % 8 = 0 := by
  obtain ⟨_, _, eights, _, _, _, _⟩ := found.placed sound
  obtain ⟨nonzero, small⟩ := nonzero_of_fits sound positive found
  have result := getstk_lastFit sound.aligned nonzero small found
  have rounded := (found.rounded sound.aligned small).fits
  obtain ⟨_, aligned, _⟩ := law.takes _ (by rw [result])
  rw [result] at aligned
  by_cases exactly : block.size = roundew nbytes.toNat
  · rw [← exactly]
    exact eights
  · have left := aligned ⟨block.place, block.size - roundew nbytes.toNat⟩ (by
      simp [remainder, exactly])
    dsimp only at left
    omega

theorem roundings_agree (rounding : roundew nbytes.toNat % 8 = 0) :
    roundmb nbytes.toNat = roundew nbytes.toNat := by
  obtain ⟨_, _, _, _, _, _, small⟩ := found.placed sound
  unfold roundmb roundew word at *
  omega

/-- Lengths and places of multiples of 8 stay so. -/
theorem aligned_left (rounding : roundew nbytes.toNat % 8 = 0) :
    Aligned (front ++ remainder (roundew nbytes.toNat) block ++ back) := by
  have few := (nonzero_of_fits sound positive found).2
  have fits := (found.rounded sound.aligned few).fits
  have aligned := sound.aligned
  rw [found.place] at aligned
  have isBlock := aligned block (by simp)
  intro other member
  rw [List.append_assoc, List.mem_append, List.mem_append] at member
  rcases member with inFront | left | inBack
  · exact aligned other (by simp [inFront])
  · unfold remainder at left
    split_ifs at left with exactly
    · cases left
    · rw [List.mem_singleton.mp left]
      dsimp only
      omega
  · exact aligned other (by simp [inBack])

theorem freestk_restores (rounding : roundew nbytes.toNat % 8 = 0)
    (notFirst : ¬ TakesFirst heap nbytes.toNat) :
    freestk { heap with memlist := front ++ remainder (roundew nbytes.toNat) block ++ back }
      (block.place + block.size - 4) nbytes = Freed.ok heap.memlist := by
  obtain ⟨below, above, eights, some, inside, limit, small⟩ := found.placed sound
  have few := (nonzero_of_fits sound positive found).2
  have agree := roundings_agree sound positive found rounding
  have fits := (found.rounded sound.aligned few).fits
  have least := (roundmb_fits nbytes positive small).1
  have behind : block.place + block.size - 4 + 4 = block.place + block.size := by omega
  have short : block.place + block.size < word := by
    unfold word at *
    omega
  rw [freestk_block ⟨front ++ remainder (roundew nbytes.toNat) block ++ back, heap.maxaddr⟩ _ _
    behind inside sound.spaced.short positive small (by omega), agree, found.place]
  dsimp only
  by_cases exactly : block.size = roundew nbytes.toNat
  · have whole : block.place + block.size - roundew nbytes.toNat = block.place := by omega
    have first := freed_whole sound found notFirst (by omega)
    rw [remainder, if_pos exactly, List.append_nil, whole, first, ← exactly]
    exact release_block front back block short below above
  · have place : block.place + block.size - roundew nbytes.toNat =
        block.place + (block.size - roundew nbytes.toNat) := by omega
    have first := freed_part sound found (block.size - roundew nbytes.toNat)
    rw [remainder, if_neg exactly, place, List.append_assoc, List.singleton_append, first]
    apply release_end front back block _ short (by omega) (by omega) _ above
    intro other member
    have less := below other member
    omega

theorem law_of_rounding (rounding : roundew nbytes.toNat % 8 = 0)
    (notFirst : ¬ TakesFirst heap nbytes.toNat) : StackLaw heap nbytes := by
  obtain ⟨_, _, eights, some, _, _, small⟩ := found.placed sound
  obtain ⟨nonzero, few⟩ := nonzero_of_fits sound positive found
  have result := getstk_lastFit sound.aligned nonzero few found
  have agree := roundings_agree sound positive found rounding
  have least := (roundmb_fits nbytes positive small).1
  constructor
  · intro fails
    rw [result] at fails
    cases fails
  · intro p gives
    rw [result] at gives ⊢
    obtain rfl := Option.some.inj gives
    have behind : block.place + block.size - 4 + 4 = block.place + block.size := by omega
    refine ⟨⟨front, block, back, roundew nbytes.toNat, found, by omega, behind, rfl⟩, ?_, ?_⟩
    · exact aligned_left sound positive found rounding
    · exact freestk_restores sound positive found rounding notFirst

/-- The first free block is gone, and `freemem` refuses what lies in front of the list. -/
theorem not_takesFirst_of_law (rounding : roundew nbytes.toNat % 8 = 0)
    (law : StackLaw heap nbytes) : ¬ TakesFirst heap nbytes.toNat := by
  rintro ⟨first, others, placed, nonempty, size, last⟩
  obtain ⟨_, _, _, _, _, _, small⟩ := found.placed sound
  obtain ⟨nonzero, few⟩ := nonzero_of_fits sound positive found
  obtain ⟨least, _, _, _⟩ := roundmb_fits nbytes positive small
  have alone : LastFit nbytes.toNat heap.memlist [] first others := ⟨placed, by omega, last⟩
  obtain ⟨_, above, _, some, inside, _, _⟩ := alone.placed sound
  have agree := roundings_agree sound positive found rounding
  have result := getstk_lastFit sound.aligned nonzero few alone
  have behind : first.place + first.size - 4 + 4 = first.place + first.size := by
    have isFirst := sound.aligned first (by rw [placed]; simp)
    omega
  have left : remainder (roundew nbytes.toNat) first = [] := by
    rw [remainder, if_pos (by omega)]
  rw [left, List.nil_append, List.nil_append] at result
  obtain ⟨_, _, returned⟩ := law.takes _ (by rw [result])
  rw [result] at returned
  dsimp only at returned
  rw [freestk_block ⟨others, heap.maxaddr⟩ _ _ behind inside sound.spaced.short positive small
    (by omega), size] at returned
  obtain ⟨next, rest, rfl⟩ := List.exists_cons_of_ne_nil nonempty
  have further := above next (by simp)
  have refused : first.place + roundmb nbytes.toNat - roundmb nbytes.toNat < next.place := by omega
  simp only [List.head?_cons, Option.any_some, refused, decide_true, if_true] at returned
  cases returned

end Fitting

theorem stackLaw_iff (sound : Sound heap) (some : nbytes ≠ 0) :
    StackLaw heap nbytes ↔ Returnable heap nbytes.toNat := by
  have positive : 0 < nbytes.toNat := by
    apply Nat.pos_of_ne_zero
    intro zero
    exact some (BitVec.eq_of_toNat_eq zero)
  have bound := nbytes.isLt
  have short := sound.spaced.short
  have below : ∀ other ∈ heap.memlist, other.place + other.size ≤ word - 8 := by
    intro other member
    have inside := sound.spaced.inside other member
    have eights := sound.aligned other member
    unfold word at *
    omega
  by_cases huge : word - 4 < nbytes.toNat
  · rw [Returnable, if_pos huge]
    constructor
    · intro law
      by_contra nonempty
      obtain ⟨p, gives⟩ := (getstk_huge huge).2 nonempty
      obtain ⟨front, block, back, amount, found, _⟩ := (law.takes p gives).1.taken
      have inside := below block (by rw [found.place]; simp)
      have fits := found.fits
      unfold word at *
      omega
    · intro empty
      have result := (getstk_huge huge).1 empty
      constructor
      · intro _
        rw [result]
      · intro p gives
        rw [result] at gives
        cases gives
  · have small : nbytes.toNat ≤ word - 4 := by omega
    rw [Returnable, if_neg huge]
    by_cases unfit : ∀ block ∈ heap.memlist, block.size < nbytes.toNat
    · have result := getstk_unfit some small unfit
      have law : StackLaw heap nbytes := by
        constructor
        · intro _
          rw [result]
        · intro p gives
          rw [result] at gives
          cases gives
      simp only [law, true_iff]
      exact Or.inl unfit
    · obtain ⟨front, block, back, found⟩ := lastFit_of_fits nbytes.toNat heap.memlist
        (by
          push Not at unfit
          exact unfit)
      simp only [unfit, false_or]
      constructor
      · intro law
        have eights := law_rounding sound positive found law
        refine ⟨?_, not_takesFirst_of_law sound positive found eights law⟩
        unfold roundew word at *
        omega
      · rintro ⟨residue, notFirst⟩
        apply law_of_rounding sound positive found _ notFirst
        unfold roundew word at *
        omega

end MvsXinu.Memory
