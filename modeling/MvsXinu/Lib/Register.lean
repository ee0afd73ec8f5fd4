import Mathlib.Data.Finset.Card
import Mathlib.Logic.Function.Basic

/-!
# A register of what comes and goes

Each entry into the register gets a serial number. What retires is struck off, and its serial
is kept. While only those present retire, nobody retires twice and the numbers balance.
-/

namespace MvsXinu.Registers

set_option autoImplicit false

variable {Key : Type*} [DecidableEq Key]

structure Register (Key : Type*) where
  present : Finset Key
  serial : Key → Nat
  issued : Nat
  retired : List Nat

def emptyRegister : Register Key where
  present := ∅
  serial := fun _ => 0
  issued := 0
  retired := []

def Register.enroll (register : Register Key) (key : Key) : Register Key where
  present := insert key register.present
  serial := Function.update register.serial key register.issued
  issued := register.issued + 1
  retired := register.retired

def Register.retire (register : Register Key) (key : Key) : Register Key :=
  { register with
    present := register.present.erase key
    retired := register.retired ++ [register.serial key] }

/-- Each serial belongs to one key that is present, or has retired once. -/
structure Register.Sound (register : Register Key) : Prop where
  once : register.retired.Nodup
  retiredIssued : ∀ serial ∈ register.retired, serial < register.issued
  presentIssued : ∀ key ∈ register.present, register.serial key < register.issued
  active : ∀ key ∈ register.present, register.serial key ∉ register.retired
  apart : ∀ first ∈ register.present, ∀ second ∈ register.present,
    register.serial first = register.serial second → first = second
  balance : register.present.card + register.retired.length = register.issued

omit [DecidableEq Key] in
theorem emptyRegister_sound : (emptyRegister : Register Key).Sound where
  once := List.nodup_nil
  retiredIssued := fun serial member => absurd member List.not_mem_nil
  presentIssued := fun key member => absurd member (Finset.notMem_empty key)
  active := fun key member => absurd member (Finset.notMem_empty key)
  apart := fun first member => absurd member (Finset.notMem_empty first)
  balance := rfl

variable {register : Register Key}

theorem Register.Sound.enroll (sound : register.Sound) {key : Key}
    (isNew : key ∉ register.present) : (register.enroll key).Sound := by
  have serials : ∀ other ∈ (register.enroll key).present,
      (other = key ∧ (register.enroll key).serial other = register.issued) ∨
      (other ∈ register.present ∧ (register.enroll key).serial other = register.serial other) := by
    intro other member
    rcases Finset.mem_insert.mp member with same | before
    · left
      rw [same]
      exact ⟨rfl, Function.update_self _ _ _⟩
    · right
      have away : other ≠ key := by
        intro same
        rw [same] at before
        exact isNew before
      exact ⟨before, Function.update_of_ne away _ _⟩
  constructor
  · exact sound.once
  · intro serial member
    exact Nat.lt_succ_of_lt (sound.retiredIssued serial member)
  · intro other member
    show (register.enroll key).serial other < register.issued + 1
    rcases serials other member with latest | before
    · omega
    · have issued := sound.presentIssued other before.1
      omega
  · intro other member isRetired
    rcases serials other member with latest | before
    · rw [latest.2] at isRetired
      exact absurd (sound.retiredIssued _ isRetired) (Nat.lt_irrefl _)
    · rw [before.2] at isRetired
      exact sound.active other before.1 isRetired
  · intro first memberFirst second memberSecond same
    rcases serials first memberFirst with latestFirst | beforeFirst
    · rcases serials second memberSecond with latestSecond | beforeSecond
      · rw [latestFirst.1, latestSecond.1]
      · have issued := sound.presentIssued second beforeSecond.1
        omega
    · rcases serials second memberSecond with latestSecond | beforeSecond
      · have issued := sound.presentIssued first beforeFirst.1
        omega
      · rw [beforeFirst.2, beforeSecond.2] at same
        exact sound.apart first beforeFirst.1 second beforeSecond.1 same
  · show (insert key register.present).card + register.retired.length = register.issued + 1
    rw [Finset.card_insert_of_notMem isNew]
    have balance := sound.balance
    omega

theorem Register.Sound.retire (sound : register.Sound) {key : Key}
    (isPresent : key ∈ register.present) : (register.retire key).Sound := by
  have remains : ∀ other ∈ (register.retire key).present,
      other ≠ key ∧ other ∈ register.present := by
    intro other member
    exact Finset.mem_erase.mp member
  constructor
  · show (register.retired ++ [register.serial key]).Nodup
    rw [List.nodup_append]
    refine ⟨sound.once, List.nodup_singleton _, ?_⟩
    intro serial isRetired last isLast same
    rw [same, List.mem_singleton.mp isLast] at isRetired
    exact sound.active key isPresent isRetired
  · intro serial member
    rcases List.mem_append.mp member with before | latest
    · exact sound.retiredIssued serial before
    · rw [List.mem_singleton.mp latest]
      exact sound.presentIssued key isPresent
  · intro other member
    exact sound.presentIssued other (remains other member).2
  · intro other member isRetired
    rcases remains other member with ⟨away, before⟩
    rcases List.mem_append.mp isRetired with earlier | latest
    · exact sound.active other before earlier
    · exact away (sound.apart other before key isPresent (List.mem_singleton.mp latest))
  · intro first memberFirst second memberSecond same
    exact sound.apart first (remains first memberFirst).2 second (remains second memberSecond).2
      same
  · show (register.present.erase key).card + (register.retired ++ [register.serial key]).length =
      register.issued
    rw [Finset.card_erase_of_mem isPresent, List.length_append, List.length_singleton]
    have balance := sound.balance
    have positive : 0 < register.present.card := Finset.card_pos.mpr ⟨key, isPresent⟩
    omega

end MvsXinu.Registers
