import Mathlib.Data.List.Perm.Basic
import Mathlib.Data.List.Nodup
import Mathlib.Algebra.Order.BigOperators.Group.List
import Mathlib.Algebra.Order.Group.Nat
import Mathlib.Algebra.Ring.Nat
import Mathlib.Logic.Function.Basic
import MvsXinu.Lib.Chains

/-!
# Nodes on shelves

The nodes of a stock are free or stand on one of several shelves. A node is taken from the free
ones, put behind the others of a shelf and given back from its front; a shelf may be cleared at
once. The nodes of a shelf are a chain with a word for its first and one for its last node.
-/

namespace MvsXinu.Shelves

open MvsXinu.Chains

set_option autoImplicit false

section Stock

variable {Shelf Node : Type*} {shelves : List Shelf} {on : Shelf → List Node}
  {all free rest : List Node} {shelf : Shelf} {node : Node}

def Stocked (all free : List Node) (shelves : List Shelf) (on : Shelf → List Node) : Prop :=
  (free ++ shelves.flatMap on).Perm all

theorem Stocked.not_free (stocked : Stocked all free shelves on) (distinct : all.Nodup)
    (member : shelf ∈ shelves) (isOn : node ∈ on shelf) : node ∉ free := by
  intro isFree
  have apart := (List.nodup_append.mp (stocked.nodup_iff.mpr distinct)).2.2
  exact apart node isFree node (List.mem_flatMap.mpr ⟨shelf, member, isOn⟩) rfl

variable [DecidableEq Shelf]

theorem flatMap_perm (on : Shelf → List Node) (member : shelf ∈ shelves) :
    (shelves.flatMap on).Perm (on shelf ++ (shelves.erase shelf).flatMap on) := by
  have front := (List.perm_cons_erase member).flatMap_right on
  rwa [List.flatMap_cons] at front

theorem flatMap_update_perm (on : Shelf → List Node) (nodup : shelves.Nodup)
    (member : shelf ∈ shelves) (nodes : List Node) :
    (shelves.flatMap (Function.update on shelf nodes)).Perm
      (nodes ++ (shelves.erase shelf).flatMap on) := by
  have front := flatMap_perm (Function.update on shelf nodes) member
  have others : (shelves.erase shelf).flatMap (Function.update on shelf nodes) =
      (shelves.erase shelf).flatMap on := by
    apply List.flatMap_congr
    intro other isOther
    exact Function.update_of_ne (nodup.mem_erase_iff.mp isOther).1 _ _
  rwa [Function.update_self, others] at front

theorem Stocked.put (stocked : Stocked all (node :: rest) shelves on) (nodup : shelves.Nodup)
    (member : shelf ∈ shelves) :
    Stocked all rest shelves (Function.update on shelf (on shelf ++ [node])) := by
  have before := flatMap_perm on member
  have behind := flatMap_update_perm on nodup member (on shelf ++ [node])
  have moved : (on shelf ++ [node] ++ (shelves.erase shelf).flatMap on).Perm
      (node :: (on shelf ++ (shelves.erase shelf).flatMap on)) := by
    rw [List.append_assoc]
    exact List.perm_middle
  have step := (behind.trans moved).trans (before.symm.cons node)
  exact ((step.append_left rest).trans List.perm_middle).trans stocked

theorem Stocked.give (stocked : Stocked all free shelves on) (nodup : shelves.Nodup)
    (member : shelf ∈ shelves) (nodes : on shelf = node :: rest) :
    Stocked all (node :: free) shelves (Function.update on shelf rest) := by
  have before := flatMap_perm on member
  rw [nodes, List.cons_append] at before
  have behind := flatMap_update_perm on nodup member rest
  have moved : (node :: (free ++ shelves.flatMap (Function.update on shelf rest))).Perm
      (free ++ node :: (rest ++ (shelves.erase shelf).flatMap on)) :=
    ((behind.append_left free).cons node).trans List.perm_middle.symm
  exact (moved.trans (before.symm.append_left free)).trans stocked

theorem Stocked.clear (stocked : Stocked all free shelves on) (nodup : shelves.Nodup)
    (member : shelf ∈ shelves) :
    Stocked all (on shelf ++ free) shelves (Function.update on shelf []) := by
  have before := flatMap_perm on member
  have behind := flatMap_update_perm on nodup member []
  rw [List.nil_append] at behind
  have moved : (on shelf ++ free ++ (shelves.erase shelf).flatMap on).Perm
      (free ++ (on shelf ++ (shelves.erase shelf).flatMap on)) := by
    rw [← List.append_assoc]
    exact List.perm_append_comm.append_right _
  exact ((behind.append_left (on shelf ++ free)).trans moved).trans
    ((before.symm.append_left free).trans stocked)

theorem Stocked.length_le (stocked : Stocked all free shelves on) (member : shelf ∈ shelves) :
    (on shelf).length + free.length ≤ all.length := by
  have length := stocked.length_eq
  have part := (flatMap_perm on member).length_eq
  rw [List.length_append] at length part
  omega

theorem Stocked.nodup_on (stocked : Stocked all free shelves on) (distinct : all.Nodup)
    (member : shelf ∈ shelves) : (on shelf).Nodup := by
  have tail := (List.nodup_append.mp (stocked.nodup_iff.mpr distinct)).2.1
  exact (List.nodup_append.mp ((flatMap_perm on member).nodup_iff.mp tail)).1

/-- No node is on two shelves. -/
theorem Stocked.apart {other : Shelf} (stocked : Stocked all free shelves on)
    (distinct : all.Nodup) (member : shelf ∈ shelves) (memberOther : other ∈ shelves)
    (isOn : node ∈ on shelf) (onOther : node ∈ on other) : other = shelf := by
  by_contra different
  have tail := (List.nodup_append.mp (stocked.nodup_iff.mpr distinct)).2.1
  have split := (List.nodup_append.mp ((flatMap_perm on member).nodup_iff.mp tail)).2.2
  have behind : node ∈ (shelves.erase shelf).flatMap on :=
    List.mem_flatMap.mpr ⟨other, (List.mem_erase_of_ne different).mpr memberOther, onOther⟩
  exact split node isOn node behind rfl

end Stock

/-! ## Shelves that hold so many nodes -/

section Quotas

variable {Shelf Node : Type*} {shelves : List Shelf} {on : Shelf → List Node}
  {all free : List Node} {shelf : Shelf} {quota later : Shelf → Nat}

theorem Stocked.length_sum (stocked : Stocked all free shelves on) :
    free.length + (shelves.map fun shelf => (on shelf).length).sum = all.length := by
  have length := stocked.length_eq
  rwa [List.length_append, List.length_flatMap] at length

/-- While a shelf may take one more node, one is free. -/
theorem Stocked.some_free (stocked : Stocked all free shelves on)
    (within : ∀ shelf ∈ shelves, (on shelf).length ≤ quota shelf)
    (enough : (shelves.map quota).sum ≤ all.length) (member : shelf ∈ shelves)
    (room : (on shelf).length < quota shelf) : free ≠ [] := by
  intro none
  have length := stocked.length_sum
  have below := List.sum_lt_sum (fun shelf => (on shelf).length) quota within ⟨shelf, member, room⟩
  rw [none, List.length_nil] at length
  omega

theorem sum_le_add [DecidableEq Shelf] {count : Nat} (nodup : shelves.Nodup)
    (here : later shelf ≤ quota shelf + count)
    (others : ∀ other, other ≠ shelf → later other ≤ quota other) :
    (shelves.map later).sum ≤ (shelves.map quota).sum + count := by
  by_cases member : shelf ∈ shelves
  · have apart := List.perm_cons_erase member
    have before := (apart.map quota).sum_eq
    have behind := (apart.map later).sum_eq
    rw [List.map_cons, List.sum_cons] at before behind
    have rest : ((shelves.erase shelf).map later).sum ≤ ((shelves.erase shelf).map quota).sum :=
      List.sum_le_sum fun other isOther => others other (nodup.mem_erase_iff.mp isOther).1
    omega
  · have all : (shelves.map later).sum ≤ (shelves.map quota).sum := by
      apply List.sum_le_sum
      intro other isOther
      apply others
      intro same
      exact member (same ▸ isOther)
    omega

end Quotas

/-! ## Queues -/

section Queues

variable {Node : Type*} {null head tail start node : Node}
  {word after : Node → Node} {nodes free : List Node}

structure Queue (null : Node) (word : Node → Node) (head tail : Node) (nodes : List Node) :
    Prop where
  chain : Chain null word head nodes
  last : tail = nodes.getLastD null

theorem chain_ne_null (chain : Chain null word start nodes) (member : node ∈ nodes) :
    node ≠ null := by
  induction nodes generalizing start with
  | nil => cases member
  | cons first rest ih =>
      obtain ⟨_, notNull, chainRest⟩ := chain
      cases member with
      | head => exact notNull
      | tail _ behind => exact ih chainRest behind

theorem Queue.congr (queue : Queue null word head tail nodes)
    (same : ∀ address ∈ nodes, after address = word address) :
    Queue null after head tail nodes :=
  ⟨queue.chain.congr same, queue.last⟩

theorem Queue.head_null_iff (queue : Queue null word head tail nodes) :
    head = null ↔ nodes = [] := by
  constructor
  · intro isNull
    cases nodes with
    | nil => rfl
    | cons first rest => exact absurd isNull queue.chain.ne_null
  · intro none
    subst none
    exact queue.chain

theorem Queue.split (queue : Queue null word head tail nodes) (some : nodes ≠ []) :
    nodes = nodes.dropLast ++ [tail] := by
  have isLast := queue.last
  rw [List.getLastD_eq_getLast?, List.getLast?_eq_some_getLast some, Option.getD_some] at isLast
  rw [isLast]
  exact (List.dropLast_append_getLast some).symm

theorem Queue.tail_mem (queue : Queue null word head tail nodes) (some : nodes ≠ []) :
    tail ∈ nodes := by
  rw [queue.split some]
  exact List.mem_append_right _ (List.mem_singleton_self _)

theorem Queue.tail_null_iff (queue : Queue null word head tail nodes) :
    tail = null ↔ nodes = [] := by
  constructor
  · intro isNull
    by_contra some
    exact chain_ne_null queue.chain (queue.tail_mem some) isNull
  · intro none
    subst none
    exact queue.last

/-- A node is put on an empty queue. -/
theorem first_queue [DecidableEq Node] (notNull : node ≠ null) :
    Queue null (Function.update word node null) node node [node] := by
  refine ⟨⟨rfl, notNull, ?_⟩, rfl⟩
  exact Function.update_self _ _ _

/-- A node is put behind the last one. -/
theorem Queue.append [DecidableEq Node] (queue : Queue null word head tail nodes) (some : nodes ≠ [])
    (distinct : nodes.Nodup) (notNull : node ≠ null) (fresh : node ∉ nodes) :
    Queue null (Function.update (Function.update word node null) tail node) head node
      (nodes ++ [node]) := by
  have split := queue.split some
  have isLast := queue.tail_mem some
  have awayLast : node ≠ tail := fun same => fresh (same ▸ isLast)
  have chain := queue.chain
  rw [split] at chain distinct
  constructor
  · rw [split, List.append_assoc]
    have single : Chain null (Function.update (Function.update word node null) tail node) node
        [node] := by
      refine ⟨rfl, notNull, ?_⟩
      rw [Function.update_of_ne awayLast, Function.update_self]
      rfl
    apply chain.join single
    · exact Function.update_self _ _ _
    · intro address member
      have awayTail : address ≠ tail :=
        (List.nodup_append.mp distinct).2.2 address member tail (List.mem_singleton_self _)
      have awayNode : address ≠ node := by
        intro same
        apply fresh
        rw [split]
        exact List.mem_append_left _ (same ▸ member)
      rw [Function.update_of_ne awayTail, Function.update_of_ne awayNode]
  · simp

/-- A node is put on a queue that may be empty. -/
theorem Queue.put [DecidableEq Node] (queue : Queue null word head tail nodes)
    (distinct : nodes.Nodup) (notNull : node ≠ null) (fresh : node ∉ nodes) :
    Queue null
      (if tail = null then Function.update word node null
        else Function.update (Function.update word node null) tail node)
      (if tail = null then node else head) node (nodes ++ [node]) := by
  by_cases none : tail = null
  · rw [if_pos none, if_pos none, queue.tail_null_iff.mp none]
    exact first_queue notNull
  · rw [if_neg none, if_neg none]
    exact queue.append (fun isEmpty => none (queue.tail_null_iff.mpr isEmpty)) distinct notNull
      fresh

/-- The first node is taken off a queue of several. -/
theorem Queue.rest (queue : Queue null word head tail (node :: nodes)) (some : nodes ≠ []) :
    Queue null word (word head) tail nodes := by
  obtain ⟨isFirst, _, chain⟩ := queue.chain
  refine ⟨isFirst ▸ chain, ?_⟩
  cases nodes with
  | nil => exact absurd rfl some
  | cons second rest => exact queue.last

theorem Queue.single_iff (queue : Queue null word head tail (node :: nodes))
    (distinct : (node :: nodes).Nodup) : head = tail ↔ nodes = [] := by
  have isFirst := queue.chain.1
  constructor
  · intro single
    by_contra some
    have isLast := (queue.rest some).tail_mem some
    rw [← single, isFirst] at isLast
    exact (List.nodup_cons.mp distinct).1 isLast
  · intro none
    subst none
    rw [isFirst, queue.last]
    rfl

/-- The first node is taken off. -/
theorem Queue.take [DecidableEq Node] (queue : Queue null word head tail (node :: nodes))
    (distinct : (node :: nodes).Nodup) :
    Queue null word (if head = tail then null else word head) (if head = tail then null else tail)
      nodes := by
  by_cases single : head = tail
  · rw [if_pos single, if_pos single, (queue.single_iff distinct).mp single]
    exact ⟨rfl, rfl⟩
  · rw [if_neg single, if_neg single]
    exact queue.rest fun none => single ((queue.single_iff distinct).mpr none)

/-- All nodes of a queue are put in front of a chain. -/
theorem Queue.spill [DecidableEq Node] (queue : Queue null word head tail nodes) (some : nodes ≠ [])
    (chain : Chain null word start free) (distinct : (nodes ++ free).Nodup) :
    Chain null (Function.update word tail start) head (nodes ++ free) := by
  have split := queue.split some
  have front := queue.chain
  rw [split] at front distinct
  rw [split, List.append_assoc]
  have apart := (List.nodup_append.mp (List.nodup_append.mp distinct).1).2.2
  have behind : Chain null (Function.update word tail start) start free := by
    apply chain.congr
    intro address member
    apply Function.update_of_ne
    intro same
    exact (List.nodup_append.mp distinct).2.2 tail
      (List.mem_append_right _ (List.mem_singleton_self _)) address member same.symm
  apply front.join behind
  · exact Function.update_self _ _ _
  · intro address member
    exact Function.update_of_ne (apart address member tail (List.mem_singleton_self _)) _ _

end Queues

end MvsXinu.Shelves
