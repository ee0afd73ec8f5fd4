import Mathlib.Data.BitVec
import Mathlib.Logic.Function.Basic

/-!
# The routing table (`route.h`, `rtadd.c`, `rtdel.c`, `rttimer.c`, `rtget.c`)

A route is in the bucket that `rthash` gives for its network, longer masks first. The
build without `RIP` is modelled. Of a route the reference and use counts and the
debugging text are left out: no decision reads them, and a route that a caller of
`rtget` still holds is no longer in the table once it is unlinked.
-/

namespace MvsXinu.Routing

set_option autoImplicit false

abbrev IPaddr := BitVec 32

def ipAnyaddr : IPaddr := 0
def ipMaskall : IPaddr := 0xffffffff

def ipClassA (address : IPaddr) : Bool := address &&& 0x80000000 == 0
def ipClassB (address : IPaddr) : Bool := address &&& 0xc0000000 == 0x80000000
def ipClassC (address : IPaddr) : Bool := address &&& 0xe0000000 == 0xc0000000
def ipClassD (address : IPaddr) : Bool := address &&& 0xf0000000 == 0xe0000000

def rtTsize : Nat := 512
def rtInf : Int := 999
def rtmInf : Nat := 16

/-- The octet at `position` of an address in storage, the highest one first. -/
def octetAt (address : IPaddr) (position : Nat) : BitVec 8 :=
  address.extractLsb' (24 - 8 * position) 8

/-- The octets that `rthash` adds up, outside of class D. -/
def hashedOctets (net : IPaddr) : Nat :=
  if ipClassA net then 1 else if ipClassB net then 2 else if ipClassC net then 3 else 4

def rthash (net : IPaddr) : Nat :=
  if !ipClassA net && !ipClassB net && !ipClassC net && ipClassD net then
    ((net >>> 24) &&& 0xf0).toNat % rtTsize
  else
    ((List.range (hashedOctets net)).map fun position => (octetAt net position).toNat).sum % rtTsize

structure Netif where
  niBrc : IPaddr
  niNbrc : IPaddr
  niSubnet : IPaddr
  niNet : IPaddr
  deriving DecidableEq, Repr

def isbrc (nif : List Netif) (dest : IPaddr) : Bool :=
  dest == ipAnyaddr || dest == ipMaskall ||
    nif.any fun pni => dest == pni.niBrc || dest == pni.niNbrc || dest == pni.niSubnet ||
      dest == pni.niNet

def netmatch (nif : List Netif) (dst net mask : IPaddr) (islocal : Bool) : Bool :=
  if dst &&& mask ≠ net &&& mask then false
  else if islocal && (isbrc nif dst || ipClassD dst) then mask ≠ ipMaskall
  else true

/-- `rt_metric` and `rt_ifnum` are unsigned halfwords, `rt_ttl` is a signed one. -/
structure Route where
  rtNet : IPaddr
  rtMask : IPaddr
  rtGw : IPaddr
  rtMetric : Nat
  rtIfnum : Nat
  rtKey : Nat
  rtTtl : Int
  deriving DecidableEq, Repr

structure RouteTable where
  rttable : Nat → List Route
  riDefault : Option Route

def rtinit : RouteTable where
  rttable := fun _ => []
  riDefault := none

/-- The loop of `rtadd` over the bits of the mask. -/
def maskBits (mask : IPaddr) : Nat :=
  ((List.range 32).filter fun bit => mask.getLsbD bit).length

def toShort (value : Int) : Int := Int.bmod value (2 ^ 16)

def rtnew (net mask gw : IPaddr) (metric ifnum ttl : Nat) : Route where
  rtNet := net
  rtMask := mask
  rtGw := gw
  rtMetric := metric % 2 ^ 16
  rtIfnum := ifnum % 2 ^ 16
  rtKey := 0
  rtTtl := toShort ttl

/-- The scan of a bucket in `rtadd` and what it does at the place where it stops: a
duplicate by way of the same gateway only takes the new metric, one by way of another
gateway is replaced if the new metric is better. -/
def chainIn (prt : Route) : List Route → List Route
  | [] => [prt]
  | srt :: rest =>
      if srt.rtKey < prt.rtKey then prt :: srt :: rest
      else if srt.rtNet = prt.rtNet ∧ srt.rtMask = prt.rtMask then
        if srt.rtGw = prt.rtGw then { srt with rtMetric := prt.rtMetric } :: rest
        else if srt.rtMetric ≤ prt.rtMetric then srt :: rest
        else prt :: rest
      else srt :: chainIn prt rest

def rtadd (table : RouteTable) (net mask gw : IPaddr) (metric intf ttl : Nat) : RouteTable :=
  let prt := { rtnew net mask gw metric intf ttl with rtKey := maskBits mask }
  if net = ipAnyaddr then { table with riDefault := some prt }
  else
    let hv := rthash net
    { table with rttable := Function.update table.rttable hv (chainIn prt (table.rttable hv)) }

/-- `false` is `SYSERR`. -/
def rtdel (table : RouteTable) (net mask : IPaddr) : Bool × RouteTable :=
  if (table.riDefault.map Route.rtNet) = some net then (true, { table with riDefault := none })
  else
    let hv := rthash net
    let named := fun prt : Route => decide (net = prt.rtNet ∧ mask = prt.rtMask)
    if (table.rttable hv).any named then
      (true, { table with
        rttable := Function.update table.rttable hv ((table.rttable hv).eraseP named) })
    else (false, table)

/-- A route of a bucket after `delta` seconds, if it is still there. -/
def ageRoute (delta : Nat) (prt : Route) : Option Route :=
  let aged := if prt.rtTtl ≠ rtInf then { prt with rtTtl := toShort (prt.rtTtl - delta) } else prt
  if aged.rtTtl ≤ 0 then none else some aged

def ageDefault (delta : Nat) (prt : Route) : Option Route :=
  if prt.rtTtl < rtInf then
    let aged := { prt with rtTtl := toShort (prt.rtTtl - delta) }
    if aged.rtTtl ≤ 0 then none else some aged
  else some prt

def rttimer (table : RouteTable) (delta : Nat) : RouteTable where
  rttable := fun index => (table.rttable index).filterMap (ageRoute delta)
  riDefault := table.riDefault.bind (ageDefault delta)

/-- `rtget` passes over the routes that have expired, do not match, or are infinite. -/
def usable (nif : List Netif) (dest : IPaddr) (islocal : Bool) (prt : Route) : Bool :=
  decide (0 < prt.rtTtl) && netmatch nif dest prt.rtNet prt.rtMask islocal &&
    decide (prt.rtMetric < rtmInf)

def rtget (nif : List Netif) (table : RouteTable) (dest : IPaddr) (islocal : Bool) :
    Option Route :=
  let found := (table.rttable (rthash dest)).find? (usable nif dest islocal)
  let prt := found.or table.riDefault
  prt.filter fun prt => decide (prt.rtMetric < rtmInf)

inductive RouteCall where
  | rtadd (net mask gw : IPaddr) (metric intf ttl : Nat)
  | rtdel (net mask : IPaddr)
  | rttimer (delta : Nat)
  deriving DecidableEq, Repr

def routeStep (table : RouteTable) : RouteCall → RouteTable
  | .rtadd net mask gw metric intf ttl => rtadd table net mask gw metric intf ttl
  | .rtdel net mask => (rtdel table net mask).2
  | .rttimer delta => rttimer table delta

end MvsXinu.Routing
