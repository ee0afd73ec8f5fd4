import MvsXinu.Lib.Packing
import MvsXinu.Route.SetMask

/-!
# RIP updates (`rip.h`, `ripmetric.c`, `ripstart.c`, `ripadd.c`, `ripifset.c`, `ripsend.c`)

An update takes the routes of the table in its order and puts each into the packet that is open
on each interface. A packet has room for `MAXRIPROUTES` routes and an interface for `MAXNRIP`
packets, but `rq_cur` is counted up past the last one, and `ripsend` sends from every place up to
it. The host order of the machine is the order of the network.
-/

namespace MvsXinu.Rip

open MvsXinu.Routing MvsXinu.Packing

set_option autoImplicit false

abbrev Word := BitVec 32

def ripHsize : Nat := 4
def riprtSize : Nat := 20
def ripVersion : BitVec 8 := 1
def afInet : BitVec 16 := 2
def ripRequest : BitVec 8 := 1
def ripResponse : BitVec 8 := 2
def maxriproutes : Nat := 25
def ripInfinity : Nat := 16
def maxnrip : Nat := 5
def upRip : BitVec 16 := 520

structure Riprt where
  rrFamily : BitVec 16
  rrMbz : BitVec 16
  rrIpa : IPaddr
  rrPad : List (BitVec 8)
  rrMetric : Word
  deriving DecidableEq, Repr, Inhabited

/-- The header of a packet, and what lies behind it read as routes. -/
structure Rip where
  ripCmd : BitVec 8
  ripVers : BitVec 8
  ripMbz : BitVec 16
  ripRts : Nat → Riprt

/-- An interface with what the updates read. -/
structure RipIf extends MaskedIf where
  niUp : Bool
  deriving DecidableEq, Repr

/-- A packet with the routes that are in it so far, and its entry of `rq_len`. -/
structure Filled where
  header : BitVec 8 × BitVec 8 × BitVec 16
  routes : List Riprt
  len : Nat
  deriving DecidableEq, Repr

def Filled.rip (filled : Filled) : Rip where
  ripCmd := filled.header.1
  ripVers := filled.header.2.1
  ripMbz := filled.header.2.2
  ripRts := fun rn => filled.routes.getD rn default

/-- `rqPep` has the packets of `rq_pep` in order. -/
structure Rq where
  rqActive : Bool
  rqIp : IPaddr
  rqPort : BitVec 16
  rqPep : List Filled
  rqCur : Int
  rqNrts : Nat
  deriving DecidableEq, Repr

/-- `none` is `SYSERR`. -/
def ripmetric (prt : Route) (ifnum : Nat) : Option Nat :=
  if prt.rtIfnum = niLocal ∧ prt.rtMask = ipMaskall then none
  else if prt.rtIfnum = ifnum then some ripInfinity
  else some (prt.rtMetric + 1)

def Filled.blank : Filled where
  header := (ripResponse, ripVersion, 0)
  routes := []
  len := ripHsize

/-- `false` is `SYSERR`. -/
def ripstart (prq : Rq) : Bool × Rq :=
  let prq := { prq with rqCur := prq.rqCur + 1 }
  if (maxnrip : Int) ≤ prq.rqCur then (false, prq)
  else
    (true, { prq with rqNrts := 0, rqPep := prq.rqPep ++ [Filled.blank] })

/-- The entry for a route on an interface. -/
def riprtFor (pni : RipIf) (prt : Route) (metric : Nat) : Riprt where
  rrFamily := afInet
  rrMbz := 0
  rrIpa := if pni.niNet = netnum prt.rtNet ∨ prt.rtMask = ipMaskall then prt.rtNet
    else netnum prt.rtNet
  rrPad := List.replicate 8 0
  rrMetric := BitVec.ofNat 32 metric

/-- The end of the loop of `ripadd`. -/
def Rq.fill (prq : Rq) (entry : Riprt) : Rq :=
  { prq with
    rqNrts := prq.rqNrts + 1
    rqPep := prq.rqPep.modify prq.rqCur.toNat fun pep =>
      { pep with routes := pep.routes ++ [entry], len := pep.len + riprtSize } }

/-- `ripadd` on one interface. -/
def ripaddOn (pni : RipIf) (ifnum : Nat) (prq : Rq) (prt : Route) : Rq :=
  if !prq.rqActive || !pni.niUp then prq
  else
    match ripmetric prt ifnum with
    | none => prq
    | some metric =>
        if maxriproutes ≤ prq.rqNrts then
          match ripstart prq with
          | (false, prq) => prq
          | (true, prq) => prq.fill (riprtFor pni prt metric)
        else prq.fill (riprtFor pni prt metric)

def ripadd (nif : List RipIf) (rqinfo : Nat → Rq) (prt : Route) : Nat → Rq := fun ifnum =>
  match nif[ifnum]? with
  | none => rqinfo ifnum
  | some pni => ripaddOn pni ifnum (rqinfo ifnum) prt

def netifs (nif : List RipIf) : List Netif := nif.map fun pni => pni.toNetif

/-- `none` is `SYSERR`. What is not set is not read. -/
def ripifset (nif : List RipIf) (table : RouteTable) (gw : IPaddr) (port : BitVec 16) :
    Option (Nat → Rq) :=
  let prq : Rq :=
    { rqActive := true, rqIp := gw, rqPort := port, rqPep := [], rqCur := -1,
      rqNrts := maxriproutes }
  let idle := { prq with rqActive := false }
  if gw ≠ ipMaskall then
    match rtget (netifs nif) table gw true with
    | none => none
    | some prt =>
        if prt.rtIfnum = niLocal then none
        else some (Function.update (fun _ => idle) prt.rtIfnum prq)
  else
    some fun ifn =>
      if ifn = niLocal then idle
      else { prq with rqIp := ((nif[ifn]?).map fun pni => pni.niBrc).getD 0 }

/-- The routes in the order that `ripsend` takes them in. -/
def ripRoutes (table : RouteTable) : List Route :=
  (List.range rtTsize).flatMap table.rttable ++ table.riDefault.toList

/-- The places that `ripsend` sends from. One behind the array has no packet. -/
def Rq.places (prq : Rq) : List (Option Filled) :=
  (List.range (prq.rqCur + 1).toNat).map fun pn => prq.rqPep[pn]?

/-- A call of `udpsend` from the port of RIP. -/
structure Sent where
  ifnum : Nat
  ip : IPaddr
  port : BitVec 16
  pep : Option Filled
  deriving DecidableEq, Repr

def ripsend (nif : List RipIf) (table : RouteTable) (gw : IPaddr) (port : BitVec 16) :
    Option (List Sent) :=
  (ripifset nif table gw port).map fun rqinfo =>
    let rqinfo := (ripRoutes table).foldl (ripadd nif) rqinfo
    (List.range nif.length).flatMap fun ifnum =>
      let prq := rqinfo ifnum
      if prq.rqActive then
        prq.places.map fun pep => { ifnum := ifnum, ip := prq.rqIp, port := prq.rqPort, pep := pep }
      else []

/-! ## What an interface is sent -/

/-- The entries for the routes that are advertised on an interface. -/
def advertised (pni : RipIf) (ifnum : Nat) (routes : List Route) : List Riprt :=
  routes.filterMap fun prt => (ripmetric prt ifnum).map (riprtFor pni prt)

/-- A packet as `ripstart` and `ripadd` make it. -/
structure Filled.Formed (filled : Filled) : Prop where
  header : filled.header = (ripResponse, ripVersion, 0)
  len : filled.len = ripHsize + filled.routes.length * riprtSize

/-- The routes that there is room for on an interface. -/
def ripRoom : Nat := maxriproutes * maxnrip

/-- After the routes that `entries` are for: the first packets of an interface are packed with
the first entries, and past the last packet only `rq_cur` is counted. -/
structure Loaded (entries : List Riprt) (prq : Rq) : Prop where
  active : prq.rqActive = true
  packed : Packed maxriproutes (entries.take ripRoom)
    (prq.rqPep.map Filled.routes)
  formed : ∀ filled ∈ prq.rqPep, filled.Formed
  cur : prq.rqCur + 1 = prq.rqPep.length + (entries.length - ripRoom : Nat)
  nrts : prq.rqNrts = ((prq.rqPep.getLast?).map fun filled => filled.routes.length).getD
    maxriproutes

end MvsXinu.Rip
