import Mathlib.Data.BitVec
import MvsXinu.Lib.Tiling

/-!
# Heap storage (`getmem.c`, `freemem.c`, `meminit.c`)

The free list is the list of its blocks in the order of their links: the place of a block
is its address and the size its `mlen`. Addresses and lengths are unsigned words.
-/

namespace MvsXinu.Memory

open MvsXinu.Tiling (Span)

set_option autoImplicit false

abbrev Mblock := Span

def word : Nat := 2 ^ 32

/-- `MVSPAGESIZE * MVSPAGES`. -/
def heapLen : Nat := 4096 * 384

def roundmb (x : Nat) : Nat := (7 + x) % word / 8 * 8

def Mblock.top (block : Mblock) : Nat := (block.size + block.place) % word

structure Heap where
  memlist : List Mblock
  maxaddr : Nat

/-- The address is what `mvsallocmem` returns. -/
def meminit (p : Nat) : Heap where
  memlist := [⟨p, heapLen⟩]
  maxaddr := p + heapLen - 1

/-- The first block that is large enough gives its first part. -/
def carve (nbytes : Nat) : List Mblock → Option (Nat × List Mblock)
  | [] => none
  | p :: rest =>
      if p.size = nbytes then some (p.place, rest)
      else if nbytes < p.size then
        some (p.place, ⟨p.place + nbytes, p.size - nbytes⟩ :: rest)
      else (carve nbytes rest).map fun found => (found.1, p :: found.2)

def getmem (heap : Heap) (nbytes : BitVec 32) : Option (Nat × Heap) :=
  if nbytes = 0 ∨ heap.memlist = [] then none
  else
    (carve (roundmb nbytes.toNat) heap.memlist).map fun found =>
      (found.1, { heap with memlist := found.2 })

inductive Freed where
  | ok (memlist : List Mblock)
  | syserr
  | looped

/-- The block `q` in front of the blocks from `p` on, joined with `p` if they touch. -/
def joinNext (front : List Mblock) (q : Mblock) : List Mblock → List Mblock
  | [] => front ++ [q]
  | p :: rest =>
      if q.top = p.place then front ++ { q with size := q.size + p.size } :: rest
      else front ++ q :: p :: rest

/-- A block that starts where a free one starts would be linked to itself: `looped`. -/
def release (memlist : List Mblock) (block size : Nat) : Freed :=
  let before := memlist.takeWhile fun p => decide (p.place < block)
  let after := memlist.dropWhile fun p => decide (p.place < block)
  if before.getLast?.any (fun q => decide (block < q.top)) ||
      after.head?.any (fun p => decide (p.place < (size + block) % word)) then Freed.syserr
  else
    match before.getLast? with
    | some q =>
        if q.top = block then
          Freed.ok (joinNext before.dropLast { q with size := q.size + size } after)
        else if after.head?.any (fun p => decide (p.place = block)) then Freed.looped
        else Freed.ok (joinNext before ⟨block, size⟩ after)
    | none =>
        if after.head?.any (fun p => decide (p.place = block)) then Freed.looped
        else Freed.ok (joinNext before ⟨block, size⟩ after)

def freemem (heap : Heap) (block : Nat) (size : BitVec 32) : Freed :=
  if size = 0 ∨ heap.maxaddr < block ∨ heap.memlist.head?.any (fun p => decide (block < p.place))
  then Freed.syserr
  else release heap.memlist block (roundmb size.toNat)

/-! ## Runs of calls -/

/-- The heap with the blocks that are out, by address and requested length; `broken` once
a `freemem` call has failed. -/
structure State where
  heap : Heap
  outstanding : List (Nat × BitVec 32)
  broken : Bool

def start (p : Nat) : State where
  heap := meminit p
  outstanding := []
  broken := false

/-- Freed blocks are named by their position among those that are out. -/
inductive Event where
  | get (nbytes : BitVec 32)
  | free (index : Nat)

def step (state : State) : Event → State
  | Event.get nbytes =>
      match getmem state.heap nbytes with
      | none => state
      | some (block, heap) =>
          { state with heap := heap, outstanding := (block, nbytes) :: state.outstanding }
  | Event.free index =>
      match state.outstanding[index]? with
      | none => state
      | some (block, nbytes) =>
          match freemem state.heap block nbytes with
          | Freed.ok memlist =>
              { state with
                heap := { state.heap with memlist := memlist }
                outstanding := state.outstanding.eraseIdx index }
          | _ => { state with broken := true }

end MvsXinu.Memory
