import Mathlib.Data.List.Chain
import Mathlib.Data.List.Nodup

/-!
# Doubly linked nodes

Two functions give every node its successor and its predecessor. A list of nodes is strung
if each two neighbours in it point at each other. Taking a node out and putting one in
change the links of three nodes.
-/

namespace MvsXinu.Links

set_option autoImplicit false

variable {Node : Type*} {next prev after before : Node → Node}

def Adjacent (next prev : Node → Node) (first second : Node) : Prop :=
  next first = second ∧ prev second = first

def Strung (next prev : Node → Node) (nodes : List Node) : Prop :=
  nodes.IsChain (Adjacent next prev)

/-- Only the successors of the nodes before the last and the predecessors of those behind
the first matter. -/
theorem Strung.congr {nodes : List Node} (strung : Strung next prev nodes)
    (nexts : ∀ node ∈ nodes.dropLast, after node = next node)
    (prevs : ∀ node ∈ nodes.tail, before node = prev node) : Strung after before nodes := by
  induction nodes with
  | nil => exact List.isChain_nil
  | cons first rest ih =>
      cases rest with
      | nil => exact List.isChain_singleton first
      | cons second others =>
          obtain ⟨adjacent, strungRest⟩ := List.isChain_cons_cons.mp strung
          apply List.isChain_cons_cons.mpr
          refine ⟨⟨?_, ?_⟩, ih strungRest ?_ ?_⟩
          · rw [nexts first List.mem_cons_self, adjacent.1]
          · rw [prevs second List.mem_cons_self, adjacent.2]
          · intro node member
            exact nexts node (List.mem_cons_of_mem first member)
          · intro node member
            exact prevs node (List.mem_cons_of_mem second member)

theorem Strung.neighbours {front back : List Node} {first second : Node}
    (strung : Strung next prev (front ++ first :: second :: back)) :
    next first = second ∧ prev second = first :=
  (List.isChain_append_cons_cons.mp strung).2.1

/-- A node is taken out between two others. -/
theorem Strung.unlink {front back : List Node} {low node high : Node}
    (strung : Strung next prev (front ++ low :: node :: high :: back))
    (nodup : (front ++ low :: node :: high :: back).Nodup)
    (lowNext : after low = high) (highPrev : before high = low)
    (nexts : ∀ other, other ≠ low → after other = next other)
    (prevs : ∀ other, other ≠ high → before other = prev other) :
    Strung after before (front ++ low :: high :: back) := by
  obtain ⟨strungFront, _, strungBack⟩ := List.isChain_append_cons_cons.mp strung
  have strungHigh : Strung next prev (high :: back) := (List.isChain_cons_cons.mp strungBack).2
  obtain ⟨_, nodupRest, apart⟩ := List.nodup_append.mp nodup
  simp only [List.nodup_cons, List.mem_cons, not_or] at nodupRest
  apply List.isChain_append_cons_cons.mpr
  refine ⟨?_, ⟨lowNext, highPrev⟩, ?_⟩
  · apply Strung.congr strungFront
    · intro other member
      rw [List.dropLast_concat] at member
      exact nexts other (apart other member low List.mem_cons_self)
    · intro other member
      apply prevs
      rcases List.mem_append.mp (List.mem_of_mem_tail member) with inFront | last
      · exact apart other inFront high (by simp)
      · rw [List.mem_singleton.mp last]
        exact nodupRest.1.2.1
  · apply Strung.congr strungHigh
    · intro other member
      apply nexts
      intro same
      rw [same] at member
      rcases List.mem_cons.mp ((List.dropLast_sublist _).subset member) with isHigh | inBack
      · exact nodupRest.1.2.1 isHigh
      · exact nodupRest.1.2.2 inBack
    · intro other member
      apply prevs
      intro same
      rw [same] at member
      exact nodupRest.2.2.1 member

/-- A node is put in between two others. -/
theorem Strung.link {front back : List Node} {low node high : Node}
    (strung : Strung next prev (front ++ low :: high :: back))
    (nodup : (front ++ low :: high :: back).Nodup)
    (fresh : node ∉ front ++ low :: high :: back)
    (lowNext : after low = node) (nodePrev : before node = low)
    (nodeNext : after node = high) (highPrev : before high = node)
    (nexts : ∀ other, other ≠ low → other ≠ node → after other = next other)
    (prevs : ∀ other, other ≠ high → other ≠ node → before other = prev other) :
    Strung after before (front ++ low :: node :: high :: back) := by
  obtain ⟨strungFront, _, strungBack⟩ := List.isChain_append_cons_cons.mp strung
  obtain ⟨_, nodupRest, apart⟩ := List.nodup_append.mp nodup
  simp only [List.nodup_cons, List.mem_cons, not_or] at nodupRest
  simp only [List.mem_append, List.mem_cons, not_or] at fresh
  apply List.isChain_append_cons_cons.mpr
  refine ⟨?_, ⟨lowNext, nodePrev⟩, List.isChain_cons_cons.mpr ⟨⟨nodeNext, highPrev⟩, ?_⟩⟩
  · apply Strung.congr strungFront
    · intro other member
      rw [List.dropLast_concat] at member
      apply nexts other (apart other member low List.mem_cons_self)
      intro same
      rw [same] at member
      exact fresh.1 member
    · intro other member
      rcases List.mem_append.mp (List.mem_of_mem_tail member) with inFront | last
      · apply prevs other (apart other inFront high (by simp))
        intro same
        rw [same] at inFront
        exact fresh.1 inFront
      · rw [List.mem_singleton.mp last]
        exact prevs low nodupRest.1.1 (Ne.symm fresh.2.1)
  · apply Strung.congr strungBack
    · intro other member
      have within := (List.dropLast_sublist _).subset member
      apply nexts
      · intro same
        rw [same] at within
        rcases List.mem_cons.mp within with isHigh | inBack
        · exact nodupRest.1.1 isHigh
        · exact nodupRest.1.2 inBack
      · intro same
        rw [same] at within
        rcases List.mem_cons.mp within with isHigh | inBack
        · exact fresh.2.2.1 isHigh
        · exact fresh.2.2.2 inBack
    · intro other member
      apply prevs
      · intro same
        rw [same] at member
        exact nodupRest.2.1 member
      · intro same
        rw [same] at member
        exact fresh.2.2.2 member

end MvsXinu.Links
