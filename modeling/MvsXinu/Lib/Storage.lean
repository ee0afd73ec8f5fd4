import Mathlib.Data.List.Basic
import Mathlib.Data.BitVec

/-!
# Octet storage

Storage is addressed by integers, so that a pointer may be stepped backwards or past
the area it was taken from. Halfwords are big-endian. What an operation does is said
once inside the octets it covers and once outside.
-/

namespace MvsXinu.Octets

set_option autoImplicit false

abbrev Octet := BitVec 8
abbrev Storage := Int → Octet

def memset (storage : Storage) (address : Int) (value : Octet) (count : Nat) : Storage :=
  fun place => if address ≤ place ∧ place < address + count then value else storage place

def memcpy (storage : Storage) (address : Int) (octets : List Octet) : Storage :=
  fun place =>
    if address ≤ place then (octets[(place - address).toNat]?).getD (storage place)
    else storage place

def fetch (storage : Storage) (address : Int) (count : Nat) : List Octet :=
  (List.range count).map fun position : Nat => storage (address + position)

def halfword (storage : Storage) (address : Int) : Nat :=
  (storage address).toNat * 256 + (storage (address + 1)).toNat

def signedHalfword (storage : Storage) (address : Int) : Int :=
  if halfword storage address < 32768 then halfword storage address
  else (halfword storage address : Int) - 65536

def putHalfword (storage : Storage) (address : Int) (value : Nat) : Storage :=
  memcpy storage address [BitVec.ofNat 8 (value / 256), BitVec.ofNat 8 value]

theorem memset_inside (storage : Storage) (address place : Int) (value : Octet) (count : Nat)
    (low : address ≤ place) (high : place < address + count) :
    memset storage address value count place = value := by
  rw [memset, if_pos ⟨low, high⟩]

theorem memset_outside (storage : Storage) (address place : Int) (value : Octet) (count : Nat)
    (outside : place < address ∨ address + count ≤ place) :
    memset storage address value count place = storage place := by
  rw [memset, if_neg (by omega)]

theorem memcpy_outside (storage : Storage) (address place : Int) (octets : List Octet)
    (outside : place < address ∨ address + octets.length ≤ place) :
    memcpy storage address octets place = storage place := by
  unfold memcpy
  split
  · have behind : octets.length ≤ (place - address).toNat := by omega
    rw [List.getElem?_eq_none behind, Option.getD_none]
  · rfl

theorem memcpy_inside (storage : Storage) (address : Int) (octets : List Octet)
    (position : Nat) (bound : position < octets.length) :
    memcpy storage address octets (address + position) = octets[position] := by
  unfold memcpy
  have index : (address + position - address).toNat = position := by omega
  rw [if_pos (by omega), index, List.getElem?_eq_getElem bound, Option.getD_some]

/-- What a copy makes of an octet depends on that octet alone. -/
theorem memcpy_congr {storage other : Storage} (address : Int) (octets : List Octet) {place : Int}
    (same : storage place = other place) :
    memcpy storage address octets place = memcpy other address octets place := by
  unfold memcpy
  rw [same]

@[simp] theorem fetch_length (storage : Storage) (address : Int) (count : Nat) :
    (fetch storage address count).length = count := by
  simp [fetch]

theorem fetch_at (storage : Storage) (address : Int) (count position : Nat)
    (bound : position < (fetch storage address count).length) :
    (fetch storage address count)[position] = storage (address + position) := by
  simp [fetch]

theorem take_fetch (storage : Storage) (address : Int) (total count : Nat) :
    (fetch storage address total).take count = fetch storage address (min count total) := by
  rw [fetch, fetch, ← List.map_take, List.take_range]

theorem drop_fetch (storage : Storage) (address : Int) (total count : Nat) :
    (fetch storage address total).drop count = fetch storage (address + count) (total - count) := by
  apply List.ext_getElem (by simp)
  intro position left right
  rw [List.getElem_drop, fetch_at, fetch_at]
  congr 1
  push_cast
  omega

theorem fetch_prefix (storage : Storage) (address : Int) {count total : Nat}
    (fits : count ≤ total) : fetch storage address count <+: fetch storage address total := by
  have taken := take_fetch storage address total count
  rw [min_eq_left fits] at taken
  rw [← taken]
  exact List.take_prefix _ _

theorem fetch_congr (storage other : Storage) (address : Int) (count : Nat)
    (agree : ∀ position < count, storage (address + position) = other (address + position)) :
    fetch storage address count = fetch other address count := by
  apply List.map_congr_left
  intro position member
  exact agree position (List.mem_range.mp member)

theorem fetch_memcpy (storage : Storage) (address : Int) (octets : List Octet) :
    fetch (memcpy storage address octets) address octets.length = octets := by
  apply List.ext_getElem (fetch_length _ _ _)
  intro position left right
  rw [fetch_at, memcpy_inside storage address octets position right]

theorem memcpy_moved (storage source : Storage) (address origin place : Int) (count : Nat)
    (low : address ≤ place) (high : place < address + count) :
    memcpy storage address (fetch source origin count) place =
      source (origin + (place - address)) := by
  have bound : (place - address).toNat < (fetch source origin count).length := by
    rw [fetch_length]
    omega
  have split : place = address + ((place - address).toNat : Int) := by omega
  rw [split, memcpy_inside storage address _ _ bound, fetch_at]
  congr 1
  omega

theorem memcpy_fetch (storage source : Storage) (address place : Int) (count : Nat)
    (low : address ≤ place) (high : place < address + count) :
    memcpy storage address (fetch source address count) place = source place := by
  rw [memcpy_moved storage source address address place count low high]
  congr 1
  omega

theorem memcpy_unmoved (storage source : Storage) (address origin place : Int) (count : Nat)
    (outside : place < address ∨ address + count ≤ place) :
    memcpy storage address (fetch source origin count) place = storage place := by
  apply memcpy_outside
  rw [fetch_length]
  exact outside

theorem halfword_lt (storage : Storage) (address : Int) : halfword storage address < 65536 := by
  have high := (storage address).isLt
  have low := (storage (address + 1)).isLt
  unfold halfword
  omega

theorem halfword_congr (storage other : Storage) (address : Int)
    (high : storage address = other address)
    (low : storage (address + 1) = other (address + 1)) :
    halfword storage address = halfword other address := by
  rw [halfword, halfword, high, low]

theorem signedHalfword_of_small (storage : Storage) (address : Int) (value : Nat)
    (same : halfword storage address = value) (small : value < 32768) :
    signedHalfword storage address = value := by
  rw [signedHalfword, same, if_pos small]

theorem putHalfword_outside (storage : Storage) (address place : Int) (value : Nat)
    (outside : place < address ∨ address + 2 ≤ place) :
    putHalfword storage address value place = storage place :=
  memcpy_outside storage address place _ outside

theorem halfword_putHalfword (storage : Storage) (address : Int) (value : Nat)
    (small : value < 65536) :
    halfword (putHalfword storage address value) address = value := by
  have high : putHalfword storage address value address = BitVec.ofNat 8 (value / 256) := by
    have inside := memcpy_inside storage address
      [BitVec.ofNat 8 (value / 256), BitVec.ofNat 8 value] 0 (by simp)
    simpa [putHalfword] using inside
  have low : putHalfword storage address value (address + 1) = BitVec.ofNat 8 value := by
    have inside := memcpy_inside storage address
      [BitVec.ofNat 8 (value / 256), BitVec.ofNat 8 value] 1 (by simp)
    simpa [putHalfword] using inside
  rw [halfword, high, low, BitVec.toNat_ofNat, BitVec.toNat_ofNat]
  omega

theorem halfword_put_apart (storage : Storage) (address place : Int) (value : Nat)
    (apart : place + 2 ≤ address ∨ address + 2 ≤ place) :
    halfword (putHalfword storage address value) place = halfword storage place := by
  apply halfword_congr
  · exact putHalfword_outside storage address place value (by omega)
  · exact putHalfword_outside storage address (place + 1) value (by omega)

/-- A halfword that is put where it was read. -/
theorem putHalfword_halfword (storage other : Storage) (address place : Int)
    (low : address ≤ place) (high : place < address + 2) :
    putHalfword other address (halfword storage address) place = storage place := by
  have second := (storage (address + 1)).isLt
  obtain rfl | rfl : place = address ∨ place = address + 1 := by omega
  · have inside := memcpy_inside other place [BitVec.ofNat 8 (halfword storage place / 256),
      BitVec.ofNat 8 (halfword storage place)] 0 (by simp)
    rw [Nat.cast_zero, Int.add_zero] at inside
    rw [putHalfword, inside]
    apply BitVec.eq_of_toNat_eq
    rw [List.getElem_cons_zero, BitVec.toNat_ofNat, halfword]
    have first := (storage place).isLt
    omega
  · have inside := memcpy_inside other address [BitVec.ofNat 8 (halfword storage address / 256),
      BitVec.ofNat 8 (halfword storage address)] 1 (by simp)
    rw [Nat.cast_one] at inside
    rw [putHalfword, inside]
    apply BitVec.eq_of_toNat_eq
    rw [List.getElem_cons_succ, List.getElem_cons_zero, BitVec.toNat_ofNat, halfword]
    omega

end MvsXinu.Octets
