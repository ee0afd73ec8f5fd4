import MvsXinu.Memory.HeapConservation
import MvsXinu.Memory.Stacks

/-!
# What a call leaves free

`getmem` takes the low end of a free block and `getstk` the high end. Each leaves free what was
free before, without the octets that it gives out.
-/

namespace MvsXinu.Memory

set_option autoImplicit false

/-- The address lies in a free block. -/
def IsFree (memlist : List Mblock) (address : Nat) : Prop :=
  ∃ block ∈ memlist, block.place ≤ address ∧ address < block.place + block.size

/-- Free blocks that are apart, none of them empty. -/
structure Filled (heap : Heap) : Prop extends Spaced heap where
  positive : ∀ block ∈ heap.memlist, 0 < block.size

theorem Sound.filled {heap : Heap} (sound : Sound heap) : Filled heap where
  toSpaced := sound.spaced
  positive := fun block member => (sound.aligned block member).1

theorem isFree_append (front back : List Mblock) (address : Nat) :
    IsFree (front ++ back) address ↔ IsFree front address ∨ IsFree back address := by
  constructor
  · rintro ⟨block, member, inside⟩
    rcases List.mem_append.mp member with first | last
    · exact Or.inl ⟨block, first, inside⟩
    · exact Or.inr ⟨block, last, inside⟩
  · rintro (⟨block, member, inside⟩ | ⟨block, member, inside⟩)
    · exact ⟨block, List.mem_append_left _ member, inside⟩
    · exact ⟨block, List.mem_append_right _ member, inside⟩

theorem isFree_cons (block : Mblock) (rest : List Mblock) (address : Nat) :
    IsFree (block :: rest) address ↔
      (block.place ≤ address ∧ address < block.place + block.size) ∨ IsFree rest address := by
  constructor
  · rintro ⟨other, member, inside⟩
    rcases List.mem_cons.mp member with rfl | later
    · exact Or.inl inside
    · exact Or.inr ⟨other, later, inside⟩
  · rintro (inside | ⟨other, member, inside⟩)
    · exact ⟨block, List.mem_cons_self, inside⟩
    · exact ⟨other, List.mem_cons_of_mem _ member, inside⟩

/-- `left` is what remains of `block` without the octets from `low` to `high`. -/
structure Cut (block : Mblock) (low high : Nat) (left : List Mblock) : Prop where
  apart : left.Pairwise fun first second => first.place + first.size < second.place
  within : ∀ other ∈ left, 0 < other.size ∧ block.place ≤ other.place ∧
    other.place + other.size ≤ block.place + block.size
  edges : block.place ≤ low ∧ high ≤ block.place + block.size
  free : ∀ address, IsFree left address ↔
    (block.place ≤ address ∧ address < block.place + block.size) ∧
      ¬ (low ≤ address ∧ address < high)

/-- What a call that gives out the octets from `low` to `high` leaves behind. -/
structure Takes (before after : Heap) (low high : Nat) : Prop where
  filled : Filled after
  owned : ∀ address, low ≤ address → address < high → IsFree before.memlist address
  free : ∀ address, IsFree after.memlist address ↔
    IsFree before.memlist address ∧ ¬ (low ≤ address ∧ address < high)

theorem Takes.gone {before after : Heap} {low high : Nat} (takes : Takes before after low high)
    (address : Nat) (least : low ≤ address) (most : address < high) :
    ¬ IsFree after.memlist address := by
  rw [takes.free]
  rintro ⟨_, outside⟩
  exact outside ⟨least, most⟩

theorem Cut.takes {heap : Heap} {front back left : List Mblock} {block : Mblock} {low high : Nat}
    (filled : Filled heap) (placed : heap.memlist = front ++ block :: back)
    (cut : Cut block low high left) :
    Takes heap { heap with memlist := front ++ left ++ back } low high := by
  obtain ⟨⟨apart, inside, short⟩, positive⟩ := filled
  rw [placed] at apart inside positive
  obtain ⟨inFront, behind, across⟩ := List.pairwise_append.mp apart
  obtain ⟨above, inBack⟩ := List.pairwise_cons.mp behind
  have below : ∀ other ∈ front, other.place + other.size < block.place :=
    fun other member => across other member block (by simp)
  have away : ∀ address, low ≤ address → address < high →
      ¬ IsFree front address ∧ ¬ IsFree back address := by
    intro address least most
    have edges := cut.edges
    constructor
    · rintro ⟨other, member, _, high⟩
      have before := below other member
      omega
    · rintro ⟨other, member, low, _⟩
      have after := above other member
      omega
  refine ⟨⟨⟨?_, ?_, short⟩, ?_⟩, ?_, ?_⟩
  · dsimp only
    rw [List.append_assoc, List.pairwise_append, List.pairwise_append]
    refine ⟨inFront, ⟨cut.apart, inBack, ?_⟩, ?_⟩
    · intro first isFirst second isSecond
      have bounds := cut.within first isFirst
      have later := above second isSecond
      omega
    · intro first isFirst second isSecond
      have before := below first isFirst
      rcases List.mem_append.mp isSecond with isLeft | later
      · have bounds := cut.within second isLeft
        omega
      · exact across first isFirst second (by simp [later])
  · intro other member
    rcases List.mem_append.mp member with first | last
    · rcases List.mem_append.mp first with first | isLeft
      · exact inside other (by simp [first])
      · have bounds := cut.within other isLeft
        have bound := inside block (by simp)
        dsimp only
        omega
    · exact inside other (by simp [last])
  · intro other member
    rcases List.mem_append.mp member with first | last
    · rcases List.mem_append.mp first with first | isLeft
      · exact positive other (by simp [first])
      · exact (cut.within other isLeft).1
    · exact positive other (by simp [last])
  · intro address least most
    rw [placed, isFree_append, isFree_cons]
    have edges := cut.edges
    right
    left
    omega
  · intro address
    dsimp only
    rw [placed, isFree_append, isFree_append, isFree_append, isFree_cons, cut.free]
    have outside := away address
    tauto

/-! ## `getstk` -/

theorem remainder_cut {nbytes : Nat} {block : Mblock} (fits : nbytes ≤ block.size) :
    Cut block (block.place + block.size - nbytes) (block.place + block.size)
      (remainder nbytes block) := by
  unfold remainder
  split_ifs with exactly
  · refine ⟨List.Pairwise.nil, by simp, by omega, ?_⟩
    intro address
    simp only [IsFree, List.not_mem_nil, false_and, exists_false, false_iff]
    omega
  · refine ⟨List.pairwise_singleton _ _, ?_, by omega, ?_⟩
    · intro other member
      rw [List.mem_singleton.mp member]
      dsimp only
      omega
    · intro address
      simp only [IsFree, List.mem_singleton, exists_eq_left]
      omega

theorem carveTop_takes {heap : Heap} {nbytes fits : Nat} {memlist : List Mblock}
    (filled : Filled heap) (found : carveTop nbytes heap.memlist = some (fits, memlist))
    (words : 4 ≤ nbytes) :
    Takes heap { heap with memlist := memlist } (fits + 4 - nbytes) (fits + 4) ∧
      nbytes ≤ fits + 4 := by
  have some : ∃ block ∈ heap.memlist, nbytes ≤ block.size := by
    by_contra unfit
    push Not at unfit
    rw [(carveTop_none_iff nbytes heap.memlist).mpr unfit] at found
    cases found
  obtain ⟨front, block, back, lastFit⟩ := lastFit_of_fits nbytes heap.memlist some
  rw [carveTop_lastFit nbytes heap.memlist front back block lastFit, Option.some_inj,
    Prod.mk.injEq] at found
  obtain ⟨rfl, rfl⟩ := found
  have large := lastFit.fits
  have top : block.place + block.size - 4 + 4 = block.place + block.size := by omega
  rw [top]
  exact ⟨(remainder_cut large).takes filled lastFit.place, by omega⟩

/-! ## `getmem` -/

theorem carve_takes {heap : Heap} {nbytes block : Nat} {memlist : List Mblock}
    (filled : Filled heap) (found : carve nbytes heap.memlist = some (block, memlist)) :
    Takes heap { heap with memlist := memlist } block (block + nbytes) := by
  obtain ⟨front, p, back, placed, rfl, shape⟩ := carve_some nbytes heap.memlist memlist block found
  rcases shape with ⟨exactly, rfl⟩ | ⟨larger, rfl⟩
  · have cut : Cut p p.place (p.place + nbytes) [] := by
      refine ⟨List.Pairwise.nil, by simp, by omega, ?_⟩
      intro address
      simp only [IsFree, List.not_mem_nil, false_and, exists_false, false_iff]
      omega
    have takes := cut.takes filled placed
    rwa [List.append_nil] at takes
  · have cut : Cut p p.place (p.place + nbytes) [⟨p.place + nbytes, p.size - nbytes⟩] := by
      refine ⟨List.pairwise_singleton _ _, ?_, by omega, ?_⟩
      · intro other member
        rw [List.mem_singleton.mp member]
        dsimp only
        omega
      · intro address
        simp only [IsFree, List.mem_singleton, exists_eq_left]
        omega
    have takes := cut.takes filled placed
    rwa [List.append_assoc, List.singleton_append] at takes

/-- How many blocks of a length the free blocks have room for. -/
def room (nbytes : Nat) (memlist : List Mblock) : Nat :=
  (memlist.map fun block => block.size / nbytes).sum

/-- Each block that is carved is one for which there was room. -/
theorem room_carve (nbytes : Nat) (positive : 0 < nbytes) (memlist : List Mblock) :
    (carve nbytes memlist = none ∧ room nbytes memlist = 0) ∨
      ∃ block after, carve nbytes memlist = some (block, after) ∧
        room nbytes memlist = room nbytes after + 1 := by
  induction memlist with
  | nil =>
      left
      exact ⟨rfl, rfl⟩
  | cons p rest ih =>
      rw [carve]
      have sum : room nbytes (p :: rest) = p.size / nbytes + room nbytes rest := rfl
      split_ifs with exactly larger
      · right
        refine ⟨p.place, rest, rfl, ?_⟩
        rw [sum, exactly, Nat.div_self positive, Nat.add_comm]
      · right
        refine ⟨p.place, _, rfl, ?_⟩
        have left : room nbytes (⟨p.place + nbytes, p.size - nbytes⟩ :: rest) =
            (p.size - nbytes) / nbytes + room nbytes rest := rfl
        have one := Nat.div_eq_sub_div positive (le_of_lt larger)
        rw [sum, left, one]
        omega
      · have none : p.size / nbytes = 0 := Nat.div_eq_of_lt (by omega)
        rw [sum, none, Nat.zero_add]
        rcases ih with ⟨fails, empty⟩ | ⟨block, after, found, less⟩
        · left
          rw [fails]
          exact ⟨rfl, empty⟩
        · right
          refine ⟨block, p :: after, by rw [found]; rfl, ?_⟩
          have kept : room nbytes (p :: after) = p.size / nbytes + room nbytes after := rfl
          rw [kept, none, Nat.zero_add, less]

end MvsXinu.Memory
