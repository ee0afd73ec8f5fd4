import MvsXinu.Lib.Storage
import Mathlib.Algebra.BigOperators.Group.List.Basic

/-!
# CTCI blocks (`ctci.h`, `ctci_write.c`, `ctci_read.c`, `ctci_ioread.c`)

A block is a `ctcihdr` with the offset of the last `ctcihdr`, one segment for each IP
frame and the last `ctcihdr`, which is zero. Addresses count from the first octet of
the buffer the block lies in; what surrounds the buffer is at the other addresses.
Here one process writes and one reads; the device semaphores and the trace output are
left out.
-/

namespace MvsXinu.Ctc

open MvsXinu.Octets

set_option autoImplicit false

def ctcBuflen : Nat := 20 * 1024
def ctcReadbufs : Nat := 3
def ctcWritebufs : Nat := 3

/-- `sizeof(ctcihdr)`. -/
def ctcihdrSize : Nat := 2

/-- `sizeof(ctcseghdr)`: the halfwords `seglen`, `frametype` and `reserved`. -/
def ctcseghdrSize : Nat := 6

def ctciShFramtyp : Nat := 0x0800
def ctciShResv : Nat := 0x0000

/-- An IP frame as `ctci_write` finds it in `ep_data`: its `ip_len` counts its octets. -/
structure IpFrame where
  octets : List Octet
  header : 20 ≤ octets.length
  counted : (octets.getD 2 0).toNat * 256 + (octets.getD 3 0).toNat = octets.length

def IpFrame.ipLen (frame : IpFrame) : Nat :=
  (frame.octets.getD 2 0).toNat * 256 + (frame.octets.getD 3 0).toNat

/-- `filled` is the part of the array before its first `NULL`. -/
structure Ctwritestat (Buffer : Type*) where
  fillbuf : Option Buffer
  filled : List Buffer

/-- The scan of `filled[]` for a `NULL` slot, which stores nothing when all are taken. -/
def queueFilled {Buffer : Type*} (filled : List Buffer) (pcih : Buffer) : List Buffer :=
  if filled.length < ctcWritebufs then filled ++ [pcih] else filled

/-- What `ctwfresh` makes of the buffer it got: cleared, which also builds the last
`ctcihdr`, and with the offset of an empty block. -/
def ctwfresh (storage : Storage) : Storage :=
  putHalfword (memset storage 0 0x00 ctcBuflen) 0 ctcihdrSize

/-- A segment at `pseg`, over the old last `ctcihdr`, and the offset of the new one. -/
def putSegment (pcih : Storage) (pseg : Int) (frame : IpFrame) : Storage :=
  let withLength := putHalfword pcih pseg (frame.ipLen + ctcseghdrSize)
  let withType := putHalfword withLength (pseg + 2) ctciShFramtyp
  let withHeader := putHalfword withType (pseg + 4) ctciShResv
  let pbuf := pseg + ctcseghdrSize
  let withFrame := memcpy withHeader pbuf (frame.octets.take frame.ipLen)
  let pfinal := pbuf + frame.ipLen
  putHalfword withFrame 0 pfinal.toNat

/-- `false` is `SYSERR`. The buffers that `getbuf` hands out in this call are
`getbuf 0` and, if a frame finds no room in the first, `getbuf 1`. -/
def ctciWrite (getbuf : Nat → Storage) (stat : Ctwritestat Storage) (frame : IpFrame) :
    Bool × Ctwritestat Storage :=
  let pcih := stat.fillbuf.getD (ctwfresh (getbuf 0))
  let free : Int := ctcBuflen - halfword pcih 0 - ctcseghdrSize - ctcihdrSize
  if free < frame.ipLen then
    let fresh := ctwfresh (getbuf 1)
    let queued := queueFilled stat.filled pcih
    if (ctcBuflen - 2 * ctcihdrSize - ctcseghdrSize : Int) < frame.ipLen then
      (false, { fillbuf := some fresh, filled := queued })
    else
      (true, { fillbuf := some (putSegment fresh ctcihdrSize frame), filled := queued })
  else
    (true, { stat with fillbuf := some (putSegment pcih (halfword pcih 0) frame) })

def writeAll (getbuf : Nat → Storage) (stat : Ctwritestat Storage) (frames : List IpFrame) :
    Ctwritestat Storage :=
  frames.foldl (fun stat frame => (ctciWrite getbuf stat frame).2) stat

/-- `EP_HLEN`. -/
def epHlen : Nat := 24

def ctcifn : Int := 1
def ctcorder : Int := 0
def ctceptype : Nat := 0x0800

/-- `struct ep`, less `ep_nexthop`, `ep_dst` and `ep_src`, which stay cleared. -/
structure Ep where
  epIfn : Int
  epLen : Int
  epOrder : Int
  epType : Nat
  epData : List Octet
  deriving DecidableEq, Repr

/-- `pseg` is relative to the buffer `buf[avail]`; `freebufs` counts the free buffers
of the read pool. -/
structure Ctreadstat where
  avail : Fin ctcReadbufs
  pseg : Option Int
  buf : Fin ctcReadbufs → Option Storage
  len : Fin ctcReadbufs → Nat
  freebufs : Nat

inductive ReadOutcome where
  /-- No filled buffer: the caller sleeps until `ctci_ioread` hangs one up. -/
  | asleep
  | panic
  | syserr
  | frame (dl : Nat) (ep : Ep)
  deriving DecidableEq, Repr

/-- `pseg` steps by headers, of `ctcseghdrSize` octets each, and not by octets. -/
def nextSegment (pseg seglen : Int) : Int := pseg + ctcseghdrSize * seglen

def nextIndex (index : Fin ctcReadbufs) : Fin ctcReadbufs :=
  if bound : index.val + 1 < ctcReadbufs then ⟨index.val + 1, bound⟩ else ⟨0, by decide⟩

/-- The end of `ctci_read`: go on to the next segment, or free the buffer. -/
def afterFrame (stat : Ctreadstat) (pbuf : Storage) (pseg seglen : Int) : Ctreadstat :=
  let next := nextSegment pseg seglen
  let plast : Int := halfword pbuf 0
  if plast ≤ next then
    { avail := nextIndex stat.avail
      pseg := none
      buf := Function.update stat.buf stat.avail none
      len := Function.update stat.len stat.avail 0
      freebufs := stat.freebufs + 1 }
  else { stat with pseg := some next }

/-- `ctci_read` with a caller's buffer of `room` octets. `dl` is compared as an
unsigned number, so that a segment length below six is too long for every buffer. -/
def ctciRead (stat : Ctreadstat) (room : Nat) : ReadOutcome × Ctreadstat :=
  let len : Nat := (room + 2 ^ 32 - epHlen) % 2 ^ 32
  if len = 0 then (.syserr, stat)
  else if stat.pseg = none ∧ stat.len stat.avail = 0 then (.asleep, stat)
  else
    match stat.buf stat.avail with
    | none => (.panic, stat)
    | some pbuf =>
        let pseg := stat.pseg.getD ctcihdrSize
        let seglen := signedHalfword pbuf pseg
        let dl : Nat := ((seglen - ctcseghdrSize) % 2 ^ 32).toNat
        if len < dl then (.syserr, stat)
        else
          let pip := pseg + ctcseghdrSize
          let ep : Ep :=
            { epIfn := ctcifn
              epLen := Int.bmod ((dl : Int) + epHlen) (2 ^ 16)
              epOrder := ctcorder
              epType := ctceptype
              epData := fetch pbuf pip dl ++ List.replicate (len - dl) 0x00 }
          (.frame dl ep, afterFrame stat pbuf pseg seglen)

/-- The read buffer after the transfer of a block: `ctci_ioread` filled it with `0xcc`
before the read, and the channel stores as many octets as `ctci_iowrite` sends. -/
def received (around block : Storage) : Storage :=
  memcpy (memset around 0 0xcc ctcBuflen) 0
    (fetch block 0 (halfword block 0 + ctcihdrSize))

/-- `ctci_ioread` hangs the buffer up in the slot `ctci_read` looks at next. -/
def hangUp (stat : Ctreadstat) (around block : Storage) : Ctreadstat :=
  { stat with
    pseg := none
    buf := Function.update stat.buf stat.avail (some (received around block))
    len := Function.update stat.len stat.avail (halfword block 0 + ctcihdrSize) }

end MvsXinu.Ctc
