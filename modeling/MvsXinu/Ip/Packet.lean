import MvsXinu.Lib.Storage
import MvsXinu.Lib.Spans

/-!
# IP packets in storage

A packet is the `ep_data` part of a network buffer. Its header is read and written where
the fields of `struct ip` lie; the host order of the machine is the order of the network,
so `iph2net` and `ipnet2h` leave the fields as they are.
-/

namespace MvsXinu.Ip

open MvsXinu.Octets

set_option autoImplicit false

abbrev Packet := Storage

def ipVerlen (pip : Packet) : Nat := (pip 0).toNat
def ipHlen (pip : Packet) : Int := ((ipVerlen pip % 16 * 4 : Nat) : Int)
def ipLen (pip : Packet) : Int := (halfword pip 2 : Int)
def ipId (pip : Packet) : Nat := halfword pip 4
def ipFragoff (pip : Packet) : Nat := halfword pip 6
def ipProto (pip : Packet) : Octet := pip 9
def ipSrc (pip : Packet) : List Octet := fetch pip 12 4
def ipDst (pip : Packet) : List Octet := fetch pip 16 4

/-- `ip_fragoff & IP_FRAGOFF`, in units of 8 octets. -/
def fragOffset (pip : Packet) : Nat := ipFragoff pip % 8192

/-- `IP_MF`. -/
def moreFragments (pip : Packet) : Bool := decide (ipFragoff pip / 8192 % 2 = 1)

/-- `IP_DF`. -/
def dontFragment (pip : Packet) : Bool := decide (ipFragoff pip / 16384 % 2 = 1)

def packoff (pip : Packet) : Int := ((fragOffset pip * 8 : Nat) : Int)

/-- Where the data of a fragment ends in its datagram. -/
def packend (pip : Packet) : Int := packoff pip + ipLen pip - ipHlen pip

def payload (pip : Packet) : List Octet := fetch pip (ipHlen pip) (ipLen pip - ipHlen pip).toNat

def isFragment (pip : Packet) : Bool := decide (fragOffset pip ≠ 0) || moreFragments pip

/-- What tells one datagram from another. -/
structure Identity where
  src : List Octet
  dst : List Octet
  proto : Octet
  id : Nat
deriving DecidableEq

def identity (pip : Packet) : Identity where
  src := ipSrc pip
  dst := ipDst pip
  proto := ipProto pip
  id := ipId pip

theorem ipHlen_nonneg (pip : Packet) : 0 ≤ ipHlen pip := by
  unfold ipHlen
  omega

theorem packoff_nonneg (pip : Packet) : 0 ≤ packoff pip := by
  unfold packoff
  omega

theorem packoff_le_packend (pip : Packet) (valid : ipHlen pip ≤ ipLen pip) :
    packoff pip ≤ packend pip := by
  unfold packend
  omega

theorem packoff_le_iff (first second : Packet) :
    packoff first ≤ packoff second ↔ fragOffset first ≤ fragOffset second := by
  unfold packoff
  omega

end MvsXinu.Ip
