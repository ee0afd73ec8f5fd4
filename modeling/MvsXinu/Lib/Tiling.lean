import Mathlib.Data.List.Chain
import Mathlib.Algebra.BigOperators.Group.List.Basic
import Mathlib.Algebra.Ring.Nat

/-!
# Tilings of a storage area

An area is laid out as segments side by side, each free or in use. A layout is settled if
no segment is empty and no two free ones touch. The lists of the free and of the used
segments, with their places, are read off the layout.
-/

namespace MvsXinu.Tiling

set_option autoImplicit false

variable {Tag : Type*}

inductive Segment (Tag : Type*) where
  | free (size : Nat)
  | used (size : Nat) (tag : Tag)

def Segment.size : Segment Tag → Nat
  | free size => size
  | used size _ => size

def Segment.isFree : Segment Tag → Prop
  | free _ => True
  | used _ _ => False

structure Span where
  place : Nat
  size : Nat
deriving DecidableEq

def extent (segments : List (Segment Tag)) : Nat := (segments.map Segment.size).sum

def frees (base : Nat) : List (Segment Tag) → List Span
  | [] => []
  | Segment.free size :: rest => ⟨base, size⟩ :: frees (base + size) rest
  | Segment.used size _ :: rest => frees (base + size) rest

def useds (base : Nat) : List (Segment Tag) → List (Span × Tag)
  | [] => []
  | Segment.free size :: rest => useds (base + size) rest
  | Segment.used size tag :: rest => (⟨base, size⟩, tag) :: useds (base + size) rest

structure Settled (segments : List (Segment Tag)) : Prop where
  filled : ∀ segment ∈ segments, 0 < segment.size
  joined : segments.IsChain fun first second => ¬ (first.isFree ∧ second.isFree)

def Separate (first second : Span) : Prop :=
  first.place + first.size ≤ second.place ∨ second.place + second.size ≤ first.place

@[simp] theorem extent_nil : extent ([] : List (Segment Tag)) = 0 := rfl

@[simp] theorem extent_cons (segment : Segment Tag) (rest : List (Segment Tag)) :
    extent (segment :: rest) = segment.size + extent rest := rfl

@[simp] theorem extent_append (front back : List (Segment Tag)) :
    extent (front ++ back) = extent front + extent back := by
  simp [extent]

theorem frees_append (base : Nat) (front back : List (Segment Tag)) :
    frees base (front ++ back) = frees base front ++ frees (base + extent front) back := by
  induction front generalizing base with
  | nil => rfl
  | cons segment rest ih =>
      cases segment with
      | free size =>
          rw [List.cons_append, frees, frees, ih, List.cons_append, extent_cons, ← Nat.add_assoc]
          rfl
      | used size tag =>
          rw [List.cons_append, frees, frees, ih, extent_cons, ← Nat.add_assoc]
          rfl

theorem useds_append (base : Nat) (front back : List (Segment Tag)) :
    useds base (front ++ back) = useds base front ++ useds (base + extent front) back := by
  induction front generalizing base with
  | nil => rfl
  | cons segment rest ih =>
      cases segment with
      | free size =>
          rw [List.cons_append, useds, useds, ih, extent_cons, ← Nat.add_assoc]
          rfl
      | used size tag =>
          rw [List.cons_append, useds, useds, ih, List.cons_append, extent_cons, ← Nat.add_assoc]
          rfl

theorem settled_nil : Settled ([] : List (Segment Tag)) where
  filled := by
    intro segment impossible
    cases impossible
  joined := List.isChain_nil

theorem Settled.tail {segment : Segment Tag} {rest : List (Segment Tag)}
    (settled : Settled (segment :: rest)) : Settled rest where
  filled := fun other member => settled.filled other (List.mem_cons_of_mem segment member)
  joined := settled.joined.tail

theorem frees_bounds (base : Nat) (segments : List (Segment Tag))
    (filled : ∀ segment ∈ segments, 0 < segment.size) (span : Span)
    (member : span ∈ frees base segments) :
    base ≤ span.place ∧ 0 < span.size ∧ span.place + span.size ≤ base + extent segments := by
  induction segments generalizing base with
  | nil => cases member
  | cons segment rest ih =>
      have later := fun other inside => filled other (List.mem_cons_of_mem segment inside)
      have own := filled segment List.mem_cons_self
      rw [extent_cons]
      cases segment with
      | free size =>
          rcases List.mem_cons.mp member with first | behind
          · rw [first]
            simp only [Segment.size] at own ⊢
            omega
          · have bounds := ih (base + size) later behind
            simp only [Segment.size] at own ⊢
            omega
      | used size tag =>
          have bounds := ih (base + size) later member
          simp only [Segment.size] at own ⊢
          omega

theorem useds_bounds (base : Nat) (segments : List (Segment Tag)) (block : Span × Tag)
    (member : block ∈ useds base segments) :
    base ≤ block.1.place ∧ block.1.place + block.1.size ≤ base + extent segments := by
  induction segments generalizing base with
  | nil => cases member
  | cons segment rest ih =>
      rw [extent_cons]
      cases segment with
      | free size =>
          have bounds := ih (base + size) member
          simp only [Segment.size]
          omega
      | used size tag =>
          rcases List.mem_cons.mp member with first | behind
          · rw [first]
            simp only [Segment.size]
            omega
          · have bounds := ih (base + size) behind
            simp only [Segment.size]
            omega

/-- Behind a free segment the next free one does not start at once. -/
theorem frees_behind (base : Nat) (segments : List (Segment Tag)) (settled : Settled segments)
    (first : ∀ segment ∈ segments.head?, ¬ segment.isFree) (span : Span)
    (member : span ∈ frees base segments) : base < span.place := by
  cases segments with
  | nil => cases member
  | cons segment rest =>
      cases segment with
      | free size => exact absurd trivial (first _ rfl)
      | used size tag =>
          have own : 0 < size := settled.filled _ List.mem_cons_self
          have bounds := frees_bounds (base + size) rest settled.tail.filled span member
          omega

theorem frees_apart (base : Nat) (segments : List (Segment Tag)) (settled : Settled segments) :
    (frees base segments).Pairwise fun first second =>
      first.place + first.size < second.place := by
  induction segments generalizing base with
  | nil => exact List.Pairwise.nil
  | cons segment rest ih =>
      cases segment with
      | used size tag => exact ih (base + size) settled.tail
      | free size =>
          apply List.pairwise_cons.mpr
          refine ⟨?_, ih (base + size) settled.tail⟩
          intro span member
          apply frees_behind (base + size) rest settled.tail _ span member
          intro next head isFree
          obtain ⟨others, rfl⟩ := List.head?_eq_some_iff.mp head
          exact (List.isChain_cons_cons.mp settled.joined).1 ⟨trivial, isFree⟩

theorem useds_apart (base : Nat) (segments : List (Segment Tag)) :
    (useds base segments).Pairwise fun first second => Separate first.1 second.1 := by
  induction segments generalizing base with
  | nil => exact List.Pairwise.nil
  | cons segment rest ih =>
      cases segment with
      | free size => exact ih (base + size)
      | used size tag =>
          apply List.pairwise_cons.mpr
          refine ⟨?_, ih (base + size)⟩
          intro block member
          exact Or.inl (useds_bounds (base + size) rest block member).1

theorem free_used_apart (base : Nat) (segments : List (Segment Tag))
    (filled : ∀ segment ∈ segments, 0 < segment.size) (span : Span) (block : Span × Tag)
    (free : span ∈ frees base segments) (used : block ∈ useds base segments) :
    Separate span block.1 := by
  induction segments generalizing base with
  | nil => cases free
  | cons segment rest ih =>
      have later := fun other inside => filled other (List.mem_cons_of_mem segment inside)
      cases segment with
      | free size =>
          rcases List.mem_cons.mp free with first | behind
          · rw [first]
            exact Or.inl (useds_bounds (base + size) rest block used).1
          · exact ih (base + size) later behind used
      | used size tag =>
          rcases List.mem_cons.mp used with first | behind
          · rw [first]
            exact Or.inr (frees_bounds (base + size) rest later span free).1
          · exact ih (base + size) later free behind

theorem sizes_sum (base : Nat) (segments : List (Segment Tag)) :
    ((frees base segments).map Span.size).sum +
        ((useds base segments).map fun block => block.1.size).sum = extent segments := by
  induction segments generalizing base with
  | nil => rfl
  | cons segment rest ih =>
      cases segment with
      | free size =>
          have others := ih (base + size)
          rw [extent_cons, frees, useds, List.map_cons, List.sum_cons, Nat.add_assoc, others]
          rfl
      | used size tag =>
          have others := ih (base + size)
          rw [extent_cons, frees, useds, List.map_cons, List.sum_cons, ← others]
          simp only [Segment.size]
          omega

/-- A settled layout with nothing in use is one free segment. -/
theorem frees_of_unused (base : Nat) (segments : List (Segment Tag)) (settled : Settled segments)
    (unused : useds base segments = []) (nonempty : segments ≠ []) :
    frees base segments = [⟨base, extent segments⟩] := by
  cases segments with
  | nil => exact absurd rfl nonempty
  | cons segment rest =>
      cases segment with
      | used size tag => cases unused
      | free size =>
          cases rest with
          | nil => simp [frees, Segment.size]
          | cons second others =>
              cases second with
              | used size tag => cases unused
              | free _ =>
                  exact absurd ⟨trivial, trivial⟩ (List.isChain_cons_cons.mp settled.joined).1

/-! ## Finding and replacing a segment -/

theorem frees_split (base : Nat) (segments : List (Segment Tag)) (front back : List Span)
    (span : Span) (shape : frees base segments = front ++ span :: back) :
    ∃ before after, segments = before ++ Segment.free span.size :: after ∧
      frees base before = front ∧ span.place = base + extent before ∧
        frees (span.place + span.size) after = back := by
  induction segments generalizing base front with
  | nil => simp [frees] at shape
  | cons segment rest ih =>
      cases segment with
      | used size tag =>
          obtain ⟨before, after, rfl, fronts, place, backs⟩ := ih (base + size) front shape
          refine ⟨Segment.used size tag :: before, after, rfl, fronts, ?_, backs⟩
          rw [extent_cons, place, Nat.add_assoc]
          rfl
      | free size =>
          cases front with
          | nil =>
              rw [frees, List.nil_append, List.cons.injEq] at shape
              obtain ⟨rfl, rfl⟩ := shape
              exact ⟨[], rest, rfl, rfl, rfl, rfl⟩
          | cons first others =>
              rw [frees, List.cons_append, List.cons.injEq] at shape
              obtain ⟨rfl, tail⟩ := shape
              obtain ⟨before, after, rfl, fronts, place, backs⟩ := ih (base + size) others tail
              refine ⟨Segment.free size :: before, after, rfl, ?_, ?_, backs⟩
              · rw [frees, fronts]
              · rw [extent_cons, place, Nat.add_assoc]
                rfl

theorem useds_split (base : Nat) (segments : List (Segment Tag)) (block : Span × Tag)
    (member : block ∈ useds base segments) :
    ∃ before after, segments = before ++ Segment.used block.1.size block.2 :: after ∧
      block.1.place = base + extent before := by
  induction segments generalizing base with
  | nil => cases member
  | cons segment rest ih =>
      cases segment with
      | free size =>
          obtain ⟨before, after, rfl, place⟩ := ih (base + size) member
          refine ⟨Segment.free size :: before, after, rfl, ?_⟩
          rw [extent_cons, place, Nat.add_assoc]
          rfl
      | used size tag =>
          rcases List.mem_cons.mp member with first | behind
          · rw [first]
            exact ⟨[], rest, rfl, rfl⟩
          · obtain ⟨before, after, rfl, place⟩ := ih (base + size) behind
            refine ⟨Segment.used size tag :: before, after, rfl, ?_⟩
            rw [extent_cons, place, Nat.add_assoc]
            rfl

theorem settled_append (front back : List (Segment Tag)) :
    Settled (front ++ back) ↔ Settled front ∧ Settled back ∧
      ∀ last ∈ front.getLast?, ∀ first ∈ back.head?, ¬ (last.isFree ∧ first.isFree) := by
  constructor
  · intro settled
    obtain ⟨chainFront, chainBack, junction⟩ := List.isChain_append.mp settled.joined
    exact ⟨⟨fun segment member => settled.filled segment (List.mem_append_left _ member),
      chainFront⟩, ⟨fun segment member => settled.filled segment (List.mem_append_right _ member),
      chainBack⟩, junction⟩
  · rintro ⟨settledFront, settledBack, junction⟩
    refine ⟨?_, List.isChain_append.mpr ⟨settledFront.joined, settledBack.joined, junction⟩⟩
    intro segment member
    rcases List.mem_append.mp member with inFront | inBack
    · exact settledFront.filled segment inFront
    · exact settledBack.filled segment inBack

/-- One segment between two settled parts. -/
theorem settled_middle (front back : List (Segment Tag)) (segment : Segment Tag)
    (settledFront : Settled front) (settledBack : Settled back) (filled : 0 < segment.size)
    (low : segment.isFree → ∀ last ∈ front.getLast?, ¬ last.isFree)
    (high : segment.isFree → ∀ first ∈ back.head?, ¬ first.isFree) :
    Settled (front ++ segment :: back) := by
  apply (settled_append front (segment :: back)).mpr
  refine ⟨settledFront, ⟨?_, List.isChain_cons.mpr ⟨?_, settledBack.joined⟩⟩, ?_⟩
  · intro other member
    rcases List.mem_cons.mp member with same | behind
    · rw [same]
      exact filled
    · exact settledBack.filled other behind
  · rintro first head ⟨isFree, firstFree⟩
    exact high isFree first head firstFree
  · rintro last final first head ⟨lastFree, isFree⟩
    rw [List.head?_cons, Option.mem_some_iff] at head
    rw [← head] at isFree
    exact low isFree last final lastFree

theorem Settled.parts {front back : List (Segment Tag)} {segment : Segment Tag}
    (settled : Settled (front ++ segment :: back)) :
    Settled front ∧ Settled back ∧ 0 < segment.size ∧
      (segment.isFree → ∀ last ∈ front.getLast?, ¬ last.isFree) ∧
        (segment.isFree → ∀ first ∈ back.head?, ¬ first.isFree) := by
  obtain ⟨settledFront, settledRest, junction⟩ := (settled_append front _).mp settled
  refine ⟨settledFront, settledRest.tail, settledRest.filled segment List.mem_cons_self, ?_, ?_⟩
  · intro isFree last final lastFree
    exact junction last final segment rfl ⟨lastFree, isFree⟩
  · intro isFree first head firstFree
    exact (List.isChain_cons.mp settledRest.joined).1 first head ⟨isFree, firstFree⟩

/-- In front of a segment in use no free one reaches up to it. -/
theorem frees_before (base : Nat) (front : List (Segment Tag)) (settled : Settled front)
    (final : ∀ last ∈ front.getLast?, ¬ last.isFree) (span : Span)
    (member : span ∈ frees base front) : span.place + span.size < base + extent front := by
  rcases List.eq_nil_or_concat' front with rfl | ⟨others, last, rfl⟩
  · cases member
  · rw [List.getLast?_append, List.getLast?_singleton, Option.some_or] at final
    obtain ⟨settledOthers, _, filled, _, _⟩ := settled.parts
    cases last with
    | free size => exact absurd trivial (final _ rfl)
    | used size tag =>
        have positive : 0 < size := filled
        rw [frees_append] at member
        have inside : span ∈ frees base others := by simpa [frees] using member
        have bounds := frees_bounds base others settledOthers.filled span inside
        simp only [extent_append, extent_cons, extent_nil, Segment.size]
        omega

/-- A free segment of a size that may be 0, where there is none. -/
def margin (size : Nat) : List (Segment Tag) := if size = 0 then [] else [Segment.free size]

theorem extent_margin (size : Nat) : extent (margin size : List (Segment Tag)) = size := by
  unfold margin
  split_ifs with zero
  · rw [zero]
    rfl
  · rfl

theorem useds_margin (base size : Nat) : useds base (margin size : List (Segment Tag)) = [] := by
  unfold margin
  split_ifs
  · rfl
  · rfl

theorem mem_margin (size : Nat) (segment : Segment Tag) (member : segment ∈ margin size) :
    segment = Segment.free size ∧ 0 < size := by
  unfold margin at member
  split_ifs at member with zero
  · cases member
  · exact ⟨List.mem_singleton.mp member, Nat.pos_of_ne_zero zero⟩

theorem settled_margin (size : Nat) (back : List (Segment Tag)) (settled : Settled back)
    (high : ∀ first ∈ back.head?, ¬ first.isFree) : Settled (margin size ++ back) := by
  unfold margin
  split_ifs with zero
  · exact settled
  · apply settled_middle [] back (Segment.free size) _ settled (Nat.pos_of_ne_zero zero)
    · intro _ last impossible
      cases impossible
    · exact fun _ => high
    · exact settled_nil

/-- The free segment at the end of a layout, if there is one. -/
theorem Settled.split_last {segments : List (Segment Tag)} (settled : Settled segments) :
    ∃ front size, segments = front ++ margin size ∧ Settled front ∧
      ∀ last ∈ front.getLast?, ¬ last.isFree := by
  rcases List.eq_nil_or_concat' segments with rfl | ⟨front, last, rfl⟩
  · exact ⟨[], 0, rfl, settled, fun _ impossible => by cases impossible⟩
  · cases last with
    | used size tag =>
        refine ⟨front ++ [Segment.used size tag], 0, by simp [margin], settled, ?_⟩
        intro last final
        rw [List.getLast?_append, List.getLast?_singleton, Option.some_or,
          Option.mem_some_iff] at final
        rw [← final]
        exact id
    | free size =>
        obtain ⟨settledFront, _, filled, low, _⟩ := settled.parts
        have positive : size ≠ 0 := Nat.pos_iff_ne_zero.mp filled
        refine ⟨front, size, ?_, settledFront, low trivial⟩
        rw [margin, if_neg positive]

/-- The free segment at the start of a layout, if there is one. -/
theorem Settled.split_first {segments : List (Segment Tag)} (settled : Settled segments) :
    ∃ size back, segments = margin size ++ back ∧ Settled back ∧
      ∀ first ∈ back.head?, ¬ first.isFree := by
  cases segments with
  | nil => exact ⟨0, [], rfl, settled, fun _ impossible => by cases impossible⟩
  | cons first rest =>
      cases first with
      | used size tag =>
          refine ⟨0, Segment.used size tag :: rest, by simp [margin], settled, ?_⟩
          intro first head
          rw [List.head?_cons, Option.mem_some_iff] at head
          rw [← head]
          exact id
      | free size =>
          have parts : Settled ([] ++ Segment.free size :: rest) := settled
          obtain ⟨_, settledRest, filled, _, high⟩ := parts.parts
          have positive : size ≠ 0 := Nat.pos_iff_ne_zero.mp filled
          refine ⟨size, rest, ?_, settledRest, high trivial⟩
          rw [margin, if_neg positive]
          rfl

end MvsXinu.Tiling
