import Mathlib.Data.BitVec
import MvsXinu.Lib.Links

/-!
# The queue table (`queue/*.c`, `insertd.c`, `unsleep.c`)

All lists of processes share one table: entries below `NPROC` are processes, the others
the heads and tails of the lists, in pairs. Indices are the source's `int`s, so that an
index outside the table has a place of its own.
-/

namespace MvsXinu.Kernel

open MvsXinu.Links

set_option autoImplicit false

def nproc : Int := 50
def nsem : Int := 200
def nqent : Nat := 454
def empty : Int := -1
def maxint : BitVec 32 := 0x7fffffff
def minint : BitVec 32 := 0x80000000

structure Qent where
  qkey : BitVec 32
  qnext : Int
  qprev : Int

abbrev Qtab := Int → Qent

def setNext (q : Qtab) (index value : Int) : Qtab :=
  Function.update q index { q index with qnext := value }

def setPrev (q : Qtab) (index value : Int) : Qtab :=
  Function.update q index { q index with qprev := value }

def setKey (q : Qtab) (index : Int) (value : BitVec 32) : Qtab :=
  Function.update q index { q index with qkey := value }

section Fields

variable (q : Qtab) (index other value : Int) (key : BitVec 32)

@[simp] theorem setNext_qnext :
    (setNext q index value other).qnext = if other = index then value else (q other).qnext := by
  unfold setNext Function.update
  split <;> simp

@[simp] theorem setNext_qprev : (setNext q index value other).qprev = (q other).qprev := by
  unfold setNext Function.update
  split <;> simp_all

@[simp] theorem setNext_qkey : (setNext q index value other).qkey = (q other).qkey := by
  unfold setNext Function.update
  split <;> simp_all

@[simp] theorem setPrev_qnext : (setPrev q index value other).qnext = (q other).qnext := by
  unfold setPrev Function.update
  split <;> simp_all

@[simp] theorem setPrev_qprev :
    (setPrev q index value other).qprev = if other = index then value else (q other).qprev := by
  unfold setPrev Function.update
  split <;> simp

@[simp] theorem setPrev_qkey : (setPrev q index value other).qkey = (q other).qkey := by
  unfold setPrev Function.update
  split <;> simp_all

@[simp] theorem setKey_qnext : (setKey q index key other).qnext = (q other).qnext := by
  unfold setKey Function.update
  split <;> simp_all

@[simp] theorem setKey_qprev : (setKey q index key other).qprev = (q other).qprev := by
  unfold setKey Function.update
  split <;> simp_all

@[simp] theorem setKey_qkey :
    (setKey q index key other).qkey = if other = index then key else (q other).qkey := by
  unfold setKey Function.update
  split <;> simp

end Fields

def dequeue (q : Qtab) (item : Int) : Qtab :=
  let unlinked := setNext q (q item).qprev (q item).qnext
  setPrev unlinked (unlinked item).qnext (unlinked item).qprev

def enqueue (q : Qtab) (item tail : Int) : Qtab :=
  let forward := setNext q item tail
  let placed := setPrev forward item (forward tail).qprev
  setPrev (setNext placed (placed tail).qprev item) tail item

def isempty (q : Qtab) (list : Int) : Prop := nproc ≤ (q list).qnext

instance (q : Qtab) (list : Int) : Decidable (isempty q list) := inferInstanceAs (Decidable (_ ≤ _))

def firstkey (q : Qtab) (list : Int) : BitVec 32 := (q (q list).qnext).qkey
def lastkey (q : Qtab) (tail : Int) : BitVec 32 := (q (q tail).qprev).qkey

def getfirst (q : Qtab) (head : Int) : Int × Qtab :=
  let proc := (q head).qnext
  if proc < nproc then (proc, dequeue q proc) else (empty, q)

def getlast (q : Qtab) (tail : Int) : Int × Qtab :=
  let proc := (q tail).qprev
  if proc < nproc then (proc, dequeue q proc) else (empty, q)

/-- The scan of `insert`. The tail of a list has the largest key, so on a list the scan
ends within the size of the table. -/
def insertScan (q : Qtab) (key : BitVec 32) : Nat → Int → Int
  | 0, next => next
  | fuel + 1, next =>
      if (q next).qkey.slt key then insertScan q key fuel (q next).qnext else next

def insert (q : Qtab) (proc head : Int) (key : BitVec 32) : Qtab :=
  let next := insertScan q key nqent (q head).qnext
  let forward := setNext q proc next
  let prev := (forward next).qprev
  let placed := setKey (setPrev forward proc prev) proc key
  setPrev (setNext placed prev proc) next proc

/-- The scan of `insertd`: the nodes to insert between, and what is left of the key. -/
def insertdScan (q : Qtab) : Nat → Int → Int → BitVec 32 → Int × Int × BitVec 32
  | 0, prev, next, key => (prev, next, key)
  | fuel + 1, prev, next, key =>
      if (q next).qkey.slt key then
        insertdScan q fuel next (q next).qnext (key - (q next).qkey)
      else (prev, next, key)

def insertd (q : Qtab) (pid head : Int) (key : BitVec 32) : Qtab :=
  let found := insertdScan q nqent head (q head).qnext key
  let placed := setKey (setPrev (setNext q pid found.2.1) pid found.1) pid found.2.2
  let linked := setPrev (setNext placed found.1 pid) found.2.1 pid
  if found.2.1 < nproc then
    setKey linked found.2.1 ((linked found.2.1).qkey - found.2.2)
  else linked

/-- The queue part of `unsleep`: what is left of the delay goes to the next sleeper. -/
def unsleepq (q : Qtab) (pid : Int) : Qtab :=
  let remain := (q pid).qkey
  let next := (q pid).qnext
  if next < nproc then dequeue (setKey q next ((q next).qkey + remain)) pid
  else dequeue q pid

end MvsXinu.Kernel
