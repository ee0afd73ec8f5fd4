import Mathlib.Data.List.Basic
import Mathlib.Data.List.Nodup

/-!
# Chains in storage

A word at each address leads to the next one, down to the null address. The words off the
chain do not matter, so a chain may be cut at its first address or grow a new one while the
others stay as they are.
-/

namespace MvsXinu.Chains

set_option autoImplicit false

variable {Address : Type*} {null start : Address} {word after : Address → Address}
  {addresses : List Address}

def Chain (null : Address) (word : Address → Address) : Address → List Address → Prop
  | start, [] => start = null
  | start, first :: rest => start = first ∧ first ≠ null ∧ Chain null word (word first) rest

theorem Chain.congr (chain : Chain null word start addresses)
    (same : ∀ address ∈ addresses, after address = word address) :
    Chain null after start addresses := by
  induction addresses generalizing start with
  | nil => exact chain
  | cons first rest ih =>
      obtain ⟨isFirst, notNull, chainRest⟩ := chain
      refine ⟨isFirst, notNull, ?_⟩
      rw [same first List.mem_cons_self]
      exact ih chainRest (fun address member => same address (List.mem_cons_of_mem _ member))

theorem Chain.ne_null {first : Address} {rest : List Address}
    (chain : Chain null word start (first :: rest)) : start ≠ null :=
  chain.1 ▸ chain.2.1

/-- The chain that starts at an address is the only one. -/
theorem Chain.unique {others : List Address} (chain : Chain null word start addresses)
    (other : Chain null word start others) : addresses = others := by
  induction addresses generalizing start others with
  | nil =>
      cases others with
      | nil => rfl
      | cons first rest => exact absurd chain other.ne_null
  | cons first rest ih =>
      cases others with
      | nil => exact absurd other chain.ne_null
      | cons second others =>
          obtain ⟨isFirst, _, chainRest⟩ := chain
          obtain ⟨isSecond, _, chainOthers⟩ := other
          have same : first = second := isFirst.symm.trans isSecond
          rw [← same] at chainOthers ⊢
          rw [ih chainRest chainOthers]

/-- An address in front of the chain. -/
theorem Chain.push {address : Address} (chain : Chain null word start addresses)
    (notNull : address ≠ null) (fresh : address ∉ addresses) (leads : after address = start)
    (same : ∀ other, other ≠ address → after other = word other) :
    Chain null after address (address :: addresses) := by
  refine ⟨rfl, notNull, ?_⟩
  rw [leads]
  apply chain.congr
  intro other member
  apply same
  intro equal
  exact fresh (equal ▸ member)

/-- What stands behind an address of the chain. -/
theorem Chain.behind {address : Address} {front rest : List Address}
    (chain : Chain null word start (front ++ address :: rest)) :
    Chain null word (word address) rest := by
  induction front generalizing start with
  | nil => exact chain.2.2
  | cons first front ih => exact ih chain.2.2

/-- The last address of a chain is made to lead to another chain. -/
theorem Chain.join {front others : List Address} {last second : Address}
    (chain : Chain null word start (front ++ [last])) (other : Chain null after second others)
    (leads : after last = second) (same : ∀ address ∈ front, after address = word address) :
    Chain null after start (front ++ last :: others) := by
  induction front generalizing start with
  | nil =>
      obtain ⟨isLast, notNull, _⟩ := chain
      refine ⟨isLast, notNull, ?_⟩
      rw [leads]
      exact other
  | cons first rest ih =>
      obtain ⟨isFirst, notNull, chainRest⟩ := chain
      refine ⟨isFirst, notNull, ?_⟩
      rw [same first List.mem_cons_self]
      exact ih chainRest (fun address member => same address (List.mem_cons_of_mem _ member))

/-- The addresses that a loop down the chain comes to. -/
def follow [DecidableEq Address] (null : Address) (word : Address → Address) :
    Nat → Address → List Address
  | 0, _ => []
  | more + 1, address =>
      if address = null then [] else address :: follow null word more (word address)

theorem Chain.follow_eq [DecidableEq Address] {more : Nat}
    (chain : Chain null word start addresses) (short : addresses.length ≤ more) :
    follow null word more start = addresses := by
  induction addresses generalizing start more with
  | nil =>
      cases more with
      | zero => rfl
      | succ more => exact if_pos chain
  | cons first rest ih =>
      obtain ⟨isFirst, notNull, chainRest⟩ := chain
      cases more with
      | zero => cases short
      | succ more =>
          rw [List.length_cons] at short
          rw [isFirst, follow, if_neg notNull, ih chainRest (by omega)]

end MvsXinu.Chains
