import MvsXinu.Ip.InputProcess
import MvsXinu.Rip.Updates

/-!
# RIP packets that arrive (`ripin.c`, `ripcheck.c`, `ripok.c`, `riprecv.c`, `riprepl.c`)

With them `rtadd` and `rttimer` as they are built with `RIP`: where `dorip` is set, a route by
the same gateway takes the new ttl, too, and a route that expires is kept for `RIPZTIME` with an
infinite metric. The sending of a message to `ripout` is a flag beside the table.
-/

namespace MvsXinu.Rip

open MvsXinu.Routing hiding chainIn rtadd ageRoute ageDefault rttimer

set_option autoImplicit false

def riprttl : Nat := 180
def ripztime : Int := 120

/-- `(len - RIPHSIZE)/sizeof(struct riprt)`, without a sign. -/
def nrts (len : Word) : Nat := (len - BitVec.ofNat 32 ripHsize).toNat / riprtSize

def Riprt.zeroed (prr : Riprt) : Bool := prr.rrMbz == 0 && prr.rrPad.all fun octet => octet == 0

/-- `false` is `SYSERR`. -/
def ripcheck (prip : Rip) (len : Word) : Bool :=
  if prip.ripVers = 0 then false
  else if prip.ripVers = 1 then
    prip.ripMbz == 0 && (List.range (nrts len)).all fun i => (prip.ripRts i).zeroed
  else true

def ripok (rp : Riprt) : Bool :=
  let net := rp.rrIpa >>> 24
  if rp.rrFamily ≠ afInet then false
  else if (ripInfinity : Int) < rp.rrMetric.toInt then false
  else if ipClassD rp.rrIpa || IpProc.ipClassE rp.rrIpa then false
  else if net = 0 ∧ rp.rrIpa ≠ ipAnyaddr then false
  else if net = 127 then false
  else true

/-! ## The table -/

/-- The scan of `rtadd`. The flag is set where `ripout` is sent a message. -/
def chainIn (dorip : Bool) (metric : Nat) (prt : Route) : List Route → List Route × Bool
  | [] => ([prt], dorip)
  | srt :: rest =>
      if srt.rtKey < prt.rtKey then (prt :: srt :: rest, dorip)
      else if srt.rtNet = prt.rtNet ∧ srt.rtMask = prt.rtMask then
        if srt.rtGw = prt.rtGw then
          if dorip then
            let changed := decide (srt.rtMetric ≠ metric)
            let ttl := if changed && metric == rtmInf then ripztime else prt.rtTtl
            ({ srt with rtTtl := ttl, rtMetric := prt.rtMetric } :: rest, changed)
          else ({ srt with rtMetric := prt.rtMetric } :: rest, false)
        else if srt.rtMetric ≤ prt.rtMetric then (srt :: rest, false)
        else (prt :: rest, dorip)
      else
        let (rest, notify) := chainIn dorip metric prt rest
        (srt :: rest, notify)

def rtadd (dorip : Bool) (table : RouteTable) (net mask gw : IPaddr) (metric intf ttl : Nat) :
    RouteTable × Bool :=
  let prt := { rtnew net mask gw metric intf ttl with rtKey := maskBits mask }
  if net = ipAnyaddr then ({ table with riDefault := some prt }, false)
  else
    let hv := rthash net
    let (bucket, notify) := chainIn dorip metric prt (table.rttable hv)
    ({ table with rttable := Function.update table.rttable hv bucket }, notify)

/-- A route that expires is looked at again after it has become infinite. -/
def ageRoute (dorip : Bool) (delta : Nat) (prt : Route) : Option Route :=
  let aged := if prt.rtTtl ≠ rtInf then { prt with rtTtl := toShort (prt.rtTtl - delta) } else prt
  if aged.rtTtl ≤ 0 then
    if dorip && decide (aged.rtMetric < rtmInf) then
      let zombie := { aged with rtMetric := rtmInf, rtTtl := toShort (ripztime - delta) }
      if zombie.rtTtl ≤ 0 then none else some zombie
    else none
  else some aged

def ageDefault (dorip : Bool) (delta : Nat) (prt : Route) : Option Route :=
  if prt.rtTtl < rtInf then
    let aged := { prt with rtTtl := toShort (prt.rtTtl - delta) }
    if aged.rtTtl ≤ 0 then
      if dorip && decide (aged.rtMetric < rtmInf) then
        some { aged with rtMetric := rtmInf, rtTtl := ripztime }
      else none
    else some aged
  else some prt

def rttimer (dorip : Bool) (table : RouteTable) (delta : Nat) : RouteTable where
  rttable := fun index => (table.rttable index).filterMap (ageRoute dorip delta)
  riDefault := table.riDefault.bind (ageDefault dorip delta)

/-! ## The RIP process -/

def maskedIfs (nif : List RipIf) : List MaskedIf := nif.map fun pni => pni.toMaskedIf

/-- `riprecv` in its loop, `riplock` taken: the routes that are left. -/
structure Learning where
  gw : IPaddr
  ifnum : Nat
  rest : List Riprt

/-- To the loop; `none` is `SYSERR`. -/
def riprecv (nif : List RipIf) (table : RouteTable) (prip : Rip) (len : Word) (gw : IPaddr) :
    Option Learning :=
  (rtget (netifs nif) table gw false).map fun prt =>
    { gw := gw, ifnum := prt.rtIfnum, rest := (List.range (nrts len)).map prip.ripRts }

/-- One turn of the loop. -/
def learn (nif : List RipIf) (dorip : Bool) (gw : IPaddr) (ifnum : Nat) (table : RouteTable)
    (rp : Riprt) : RouteTable × Bool :=
  if ripok rp then
    rtadd dorip table rp.rrIpa (netmask (maskedIfs nif) rp.rrIpa) gw rp.rrMetric.toNat ifnum riprttl
  else (table, false)

/-- The answer for one route that was asked for. -/
def ripanswer (nif : List RipIf) (table : RouteTable) (rp : Riprt) : Riprt :=
  if rp.rrFamily ≠ afInet then rp
  else
    match rtget (netifs nif) table rp.rrIpa true with
    | some prt => { rp with rrMetric := BitVec.ofNat 32 prt.rtMetric }
    | none => { rp with rrMetric := BitVec.ofNat 32 ripInfinity }

/-- A request for everything that the router knows. -/
def wantsAll (prip : Rip) (len : Word) : Bool :=
  nrts len == 1 && (prip.ripRts 0).rrFamily == 0 &&
    (prip.ripRts 0).rrMetric == BitVec.ofNat 32 ripInfinity

/-- `none` is `SYSERR`. The answer goes out by the interface of the route to the asker. -/
def riprepl (nif : List RipIf) (table : RouteTable) (prip : Rip) (len : Word) (gw : IPaddr)
    (port : BitVec 16) : Option (List Sent) :=
  if wantsAll prip len then ripsend nif table gw port
  else
    (rtget (netifs nif) table gw true).map fun prt =>
      [{ ifnum := prt.rtIfnum, ip := gw, port := port
         pep := some
          { header := (ripResponse, ripVersion, 0)
            routes := (List.range (nrts len)).map fun rn => ripanswer nif table (prip.ripRts rn)
            len := len.toNat } }]

/-- A datagram as `rip` reads it. -/
structure Xgram where
  xgFip : IPaddr
  xgFport : BitVec 16
  xgData : Rip

/-- What `rip` does with a datagram. -/
inductive Turn where
  | passes
  | riprecv
  | riprepl

/-- One turn of the loop of `rip`. -/
def ripturn (gateway : Bool) (gram : Xgram) (len : Word) : Turn :=
  if !ripcheck gram.xgData len then .passes
  else if gram.xgData.ripCmd = ripResponse then
    if gram.xgFport = upRip then .riprecv else .passes
  else if gram.xgData.ripCmd = ripRequest then
    if gateway || gram.xgFport ≠ upRip then .riprepl else .passes
  else .passes

/-! ## The other build -/

theorem chainIn_quiet (metric : Nat) (prt : Route) (routes : List Route) :
    (chainIn false metric prt routes).1 = Routing.chainIn prt routes := by
  induction routes with
  | nil => rfl
  | cons srt rest ih =>
      unfold chainIn Routing.chainIn
      split_ifs with shorter duplicate gateway never better
      · rfl
      · cases never
      · rfl
      · rfl
      · rfl
      · exact congrArg (List.cons srt) ih

/-- Without `dorip` the functions are those of the build without `RIP`. -/
theorem rtadd_quiet (table : RouteTable) (net mask gw : IPaddr) (metric intf ttl : Nat) :
    (rtadd false table net mask gw metric intf ttl).1 =
      Routing.rtadd table net mask gw metric intf ttl := by
  unfold rtadd Routing.rtadd
  dsimp only
  split_ifs
  · rfl
  · rw [chainIn_quiet]

theorem rttimer_quiet (table : RouteTable) (delta : Nat) :
    rttimer false table delta = Routing.rttimer table delta := rfl

end MvsXinu.Rip
