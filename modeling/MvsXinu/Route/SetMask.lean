import MvsXinu.Lib.Runs
import MvsXinu.Route.Buffers
import MvsXinu.Route.Expiry

/-!
# The routes of a mask (`setmask.c`, `netmask.c`, `netnum.c`)

Each interface has a route to its subnet, one to its directed broadcast and one to its all-zeros
host address. `setmask` finds the routes of the old mask by the fields of the interface and makes
those of the new mask.
-/

namespace MvsXinu.Routing

open MvsXinu.Runs

set_option autoImplicit false

def niLocal : Nat := 0
def rtmNohops : Nat := 0

/-- An interface with what `setmask` reads and writes. -/
structure MaskedIf extends Netif where
  niIp : IPaddr
  niMask : IPaddr
  niIvalid : Bool
  niSvalid : Bool
  deriving DecidableEq, Repr

structure MaskState where
  nif : List MaskedIf
  bsdbrc : Bool
  route : RouteTable

def netnum (ipa : IPaddr) : IPaddr :=
  ipa &&& (if ipClassC ipa then 0xffffff00 else if ipClassB ipa then 0xffff0000
    else if ipClassA ipa then 0xff000000 else 0xffffffff)

def netmask (nif : List MaskedIf) (net : IPaddr) : IPaddr :=
  if net = 0 then net
  else
    match nif.find? fun pni => pni.niSvalid && pni.niIvalid && pni.niNet == netnum net with
    | some pni => pni.niMask
    | none =>
        if ipClassA net then 0xff000000 else if ipClassB net then 0xffff0000
        else if ipClassC net then 0xffffff00 else 0xffffffff

/-- The routes of the mask that was set before are taken out. -/
def dropRoutes (pni : MaskedIf) (table : RouteTable) : RouteTable :=
  let table := (rtdel table pni.niSubnet pni.niMask).2
  let table := (rtdel table pni.niBrc ipMaskall).2
  (rtdel table pni.niSubnet ipMaskall).2

/-- The fields of an interface under the new mask, but for `ni_nbrc`. -/
def MaskedIf.withMask (pni : MaskedIf) (bsdbrc : Bool) (mask : IPaddr) : MaskedIf :=
  let subnet := pni.niIp &&& mask
  { pni with
    niSubnet := subnet
    niMask := mask
    niSvalid := true
    niBrc := if bsdbrc then subnet else subnet ||| ~~~mask }

/-- The routes of the new mask are put in. -/
def makeRoutes (bsdbrc : Bool) (ifn : Nat) (pni : MaskedIf) (table : RouteTable) : RouteTable :=
  let aobrc := if bsdbrc then pni.niSubnet ||| ~~~pni.niMask else pni.niBrc
  let table := rtadd table pni.niSubnet pni.niMask pni.niIp rtmNohops ifn rtInf.toNat
  let table := rtadd table aobrc ipMaskall pni.niIp rtmNohops niLocal rtInf.toNat
  rtadd table pni.niSubnet ipMaskall pni.niIp rtmNohops niLocal rtInf.toNat

/-- `none` is the panic of an interface without an address. -/
def setmask (s : MaskState) (ifn : Nat) (mask : IPaddr) : Option MaskState :=
  match s.nif[ifn]? with
  | none => none
  | some pni =>
      if !pni.niIvalid then none
      else
        let dropped := if pni.niSvalid then dropRoutes pni s.route else s.route
        let masked := pni.withMask s.bsdbrc mask
        -- `ni_net` is found under the new mask already
        let defmask := netmask (s.nif.set ifn masked) pni.niIp
        let masked := { masked with niNbrc := pni.niIp ||| ~~~defmask }
        some { s with
          nif := s.nif.set ifn masked
          route := makeRoutes s.bsdbrc ifn masked dropped }

def maskStep (s : MaskState) (call : Nat × IPaddr) : MaskState :=
  (setmask s call.1 call.2).getD s

/-! ## The table as a set of routes -/

section Tables

variable {table : RouteTable}

instance (first second : Route) : Decidable (Unlike first second) :=
  inferInstanceAs (Decidable (¬ (_ ∧ _)))

theorem Shaped.inTable_iff (shaped : Shaped table) (prt : Route) :
    InTable table prt ↔ prt ∈ table.rttable (rthash prt.rtNet) := by
  constructor
  · rintro ⟨index, member⟩
    rw [shaped.hashed index prt member]
    exact member
  · intro member
    exact ⟨_, member⟩

theorem Shaped.inTable_same (shaped : Shaped table) {first second : Route}
    (inFirst : InTable table first) (inSecond : InTable table second)
    (alike : ¬ Unlike first second) : first = second := by
  have same := not_not.mp alike
  rw [shaped.inTable_iff] at inFirst inSecond
  rw [← same.1] at inSecond
  exact shaped.same inFirst inSecond same.1 same.2

theorem inTable_named (shaped : Shaped table) {prt : Route} (there : InTable table prt) :
    prt.rtNet ≠ ipAnyaddr := by
  obtain ⟨index, member⟩ := there
  exact shaped.named index prt member

theorem inTable_update (table : RouteTable) (hv : Nat) (bucket : List Route) (prt : Route) :
    InTable { table with rttable := Function.update table.rttable hv bucket } prt ↔
      prt ∈ bucket ∨ ∃ index, index ≠ hv ∧ prt ∈ table.rttable index := by
  constructor
  · rintro ⟨index, member⟩
    by_cases same : index = hv
    · subst same
      exact Or.inl (by simpa using member)
    · exact Or.inr ⟨index, same, by simpa [Function.update_of_ne same] using member⟩
  · rintro (member | ⟨index, apart, member⟩)
    · exact ⟨hv, by simpa using member⟩
    · exact ⟨index, by simpa [Function.update_of_ne apart] using member⟩

theorem mem_eraseP_iff {net mask : IPaddr} {routes : List Route}
    (distinct : routes.Pairwise Unlike) (prt : Route) :
    prt ∈ routes.eraseP (fun old => decide (net = old.rtNet ∧ mask = old.rtMask)) ↔
      prt ∈ routes ∧ ¬ (prt.rtNet = net ∧ prt.rtMask = mask) := by
  induction routes with
  | nil => simp
  | cons srt rest ih =>
      obtain ⟨apart, distinctRest⟩ := List.pairwise_cons.mp distinct
      by_cases named : net = srt.rtNet ∧ mask = srt.rtMask
      · rw [List.eraseP_cons_of_pos (by simpa using named)]
        constructor
        · intro member
          refine ⟨List.mem_cons_of_mem _ member, fun same => apart prt member ?_⟩
          exact ⟨named.1.symm.trans same.1.symm, named.2.symm.trans same.2.symm⟩
        · rintro ⟨member, other⟩
          rcases List.mem_cons.mp member with rfl | behind
          · exact absurd ⟨named.1.symm, named.2.symm⟩ other
          · exact behind
      · rw [List.eraseP_cons_of_neg (by simpa using named), List.mem_cons, ih distinctRest,
          List.mem_cons]
        constructor
        · rintro (rfl | ⟨behind, other⟩)
          · exact ⟨Or.inl rfl, fun same => named ⟨same.1.symm, same.2.symm⟩⟩
          · exact ⟨Or.inr behind, other⟩
        · rintro ⟨rfl | behind, other⟩
          · exact Or.inl rfl
          · exact Or.inr ⟨behind, other⟩

/-- `rtdel` takes out what has the network and the mask. -/
theorem rtdel_inTable (shaped : Shaped table) {net : IPaddr} (named : net ≠ ipAnyaddr)
    (mask : IPaddr) (prt : Route) : InTable (rtdel table net mask).2 prt ↔
      InTable table prt ∧ ¬ (prt.rtNet = net ∧ prt.rtMask = mask) := by
  have notDefault : (table.riDefault.map Route.rtNet) ≠ some net := by
    intro isDefault
    obtain ⟨old, found, isNet⟩ := Option.map_eq_some_iff.mp isDefault
    exact named (isNet ▸ shaped.default old found)
  unfold rtdel
  dsimp only
  rw [if_neg notDefault]
  split_ifs with present
  · rw [inTable_update, mem_eraseP_iff (shaped.distinct _)]
    constructor
    · rintro (⟨member, other⟩ | ⟨index, apart, member⟩)
      · exact ⟨⟨_, member⟩, other⟩
      · refine ⟨⟨index, member⟩, fun same => apart ?_⟩
        rw [← same.1]
        exact (shaped.hashed index prt member).symm
    · rintro ⟨⟨index, member⟩, other⟩
      by_cases same : index = rthash net
      · exact Or.inl ⟨same ▸ member, other⟩
      · exact Or.inr ⟨index, same, member⟩
  · refine ⟨fun there => ⟨there, fun same => present ?_⟩, fun there => there.1⟩
    apply List.any_eq_true.mpr
    refine ⟨prt, ?_, by simpa using ⟨same.1.symm, same.2.symm⟩⟩
    rw [← same.1]
    exact (shaped.inTable_iff prt).mp there

theorem rtdel_default (shaped : Shaped table) {net : IPaddr} (named : net ≠ ipAnyaddr)
    (mask : IPaddr) : (rtdel table net mask).2.riDefault = table.riDefault := by
  have notDefault : (table.riDefault.map Route.rtNet) ≠ some net := by
    intro isDefault
    obtain ⟨old, found, isNet⟩ := Option.map_eq_some_iff.mp isDefault
    exact named (isNet ▸ shaped.default old found)
  unfold rtdel
  dsimp only
  rw [if_neg notDefault]
  split_ifs <;> rfl

/-- A new route that no other one has the network and the mask of. -/
theorem mem_chainIn_new {prt : Route} {routes : List Route}
    (own : ∀ old ∈ routes, ¬ Unlike old prt → old = prt) (other : Route) :
    other ∈ chainIn prt routes ↔ other = prt ∨ other ∈ routes := by
  induction routes with
  | nil => simp [chainIn]
  | cons srt rest ih =>
      have rest := ih fun old member => own old (List.mem_cons_of_mem _ member)
      unfold chainIn
      by_cases shorter : srt.rtKey < prt.rtKey
      · rw [if_pos shorter, List.mem_cons]
      · rw [if_neg shorter]
        by_cases duplicate : srt.rtNet = prt.rtNet ∧ srt.rtMask = prt.rtMask
        · have same := own srt List.mem_cons_self (not_not.mpr duplicate)
          subst same
          simp
        · rw [if_neg duplicate, List.mem_cons, rest, List.mem_cons]
          tauto

/-- What `rtadd` leaves where it is. -/
theorem mem_chainIn_kept {prt old : Route} {routes : List Route} (member : old ∈ routes)
    (kept : Unlike old prt ∨ (old.rtGw = prt.rtGw ∧ old.rtMetric = prt.rtMetric)) :
    old ∈ chainIn prt routes := by
  induction routes with
  | nil => cases member
  | cons srt rest ih =>
      unfold chainIn
      split_ifs with shorter duplicate gateway better
      · exact List.mem_cons_of_mem _ member
      · rcases List.mem_cons.mp member with rfl | behind
        · rcases kept with unlike | ⟨_, metric⟩
          · exact absurd duplicate unlike
          · rw [← metric]
            exact List.mem_cons_self
        · exact List.mem_cons_of_mem _ behind
      · exact member
      · rcases List.mem_cons.mp member with rfl | behind
        · rcases kept with unlike | ⟨sameGateway, _⟩
          · exact absurd duplicate unlike
          · exact absurd sameGateway gateway
        · exact List.mem_cons_of_mem _ behind
      · rcases List.mem_cons.mp member with rfl | behind
        · exact List.mem_cons_self
        · exact List.mem_cons_of_mem _ (ih behind)

/-- A route to the same network by the same gateway is already there. -/
theorem chainIn_present {prt old : Route} {routes : List Route}
    (keyed : ∀ old ∈ routes, old.rtKey = maskBits old.rtMask)
    (key : prt.rtKey = maskBits prt.rtMask)
    (sorted : routes.Pairwise fun first second => second.rtKey ≤ first.rtKey)
    (distinct : routes.Pairwise Unlike) (member : old ∈ routes) (alike : ¬ Unlike old prt)
    (gateway : old.rtGw = prt.rtGw) (metric : old.rtMetric = prt.rtMetric) :
    chainIn prt routes = routes := by
  have same := not_not.mp alike
  induction routes with
  | nil => cases member
  | cons srt rest ih =>
      obtain ⟨longest, sortedRest⟩ := List.pairwise_cons.mp sorted
      obtain ⟨apart, distinctRest⟩ := List.pairwise_cons.mp distinct
      have oldKey : old.rtKey = prt.rtKey := by
        rw [keyed old member, key, same.2]
      unfold chainIn
      rcases List.mem_cons.mp member with rfl | behind
      · rw [if_neg (by omega), if_pos same, if_pos gateway, ← metric]
      · have first := longest old behind
        have unlike : ¬ (srt.rtNet = prt.rtNet ∧ srt.rtMask = prt.rtMask) := fun twice =>
          apart old behind ⟨twice.1.trans same.1.symm, twice.2.trans same.2.symm⟩
        rw [if_neg (by omega), if_neg unlike,
          ih (fun old member => keyed old (List.mem_cons_of_mem _ member)) sortedRest distinctRest
            behind]

theorem inTable_split (table : RouteTable) (hv : Nat) (prt : Route) :
    InTable table prt ↔
      prt ∈ table.rttable hv ∨ ∃ index, index ≠ hv ∧ prt ∈ table.rttable index := by
  have split := inTable_update table hv (table.rttable hv) prt
  rwa [Function.update_eq_self] at split

theorem rtadd_named {net : IPaddr} (named : net ≠ ipAnyaddr) (table : RouteTable)
    (mask gw : IPaddr) (metric intf ttl : Nat) :
    rtadd table net mask gw metric intf ttl =
      { table with
        rttable := Function.update table.rttable (rthash net)
          (chainIn (addedRoute net mask gw metric intf ttl) (table.rttable (rthash net))) } := by
  unfold rtadd
  dsimp only
  rw [if_neg named]
  rfl

theorem rtadd_default {net : IPaddr} (named : net ≠ ipAnyaddr) (table : RouteTable)
    (mask gw : IPaddr) (metric intf ttl : Nat) :
    (rtadd table net mask gw metric intf ttl).riDefault = table.riDefault := by
  rw [rtadd_named named]

theorem rtadd_inTable_new {net mask gw : IPaddr} {metric intf ttl : Nat}
    (named : net ≠ ipAnyaddr) (own : ∀ old, InTable table old →
      ¬ Unlike old (addedRoute net mask gw metric intf ttl) →
        old = addedRoute net mask gw metric intf ttl) (prt : Route) :
    InTable (rtadd table net mask gw metric intf ttl) prt ↔
      prt = addedRoute net mask gw metric intf ttl ∨ InTable table prt := by
  rw [rtadd_named named, inTable_update, inTable_split table (rthash net),
    mem_chainIn_new fun old member => own old ⟨_, member⟩]
  exact or_assoc

theorem rtadd_inTable_kept {net mask gw : IPaddr} {metric intf ttl : Nat} {old : Route}
    (there : InTable table old)
    (kept : Unlike old (addedRoute net mask gw metric intf ttl) ∨
      (old.rtGw = gw ∧ old.rtMetric = metric % 2 ^ 16)) :
    InTable (rtadd table net mask gw metric intf ttl) old := by
  by_cases isDefault : net = ipAnyaddr
  · unfold rtadd
    dsimp only
    rw [if_pos isDefault]
    exact there
  · rw [rtadd_named isDefault, inTable_update]
    rcases (inTable_split table (rthash net) old).mp there with member | apart
    · exact Or.inl (mem_chainIn_kept member kept)
    · exact Or.inr apart

theorem rtadd_present (shaped : Shaped table) {net mask gw : IPaddr} {metric intf ttl : Nat}
    {old : Route} (there : InTable table old) (sameNet : old.rtNet = net)
    (sameMask : old.rtMask = mask) (gateway : old.rtGw = gw)
    (sameMetric : old.rtMetric = metric % 2 ^ 16) :
    rtadd table net mask gw metric intf ttl = table := by
  have named : net ≠ ipAnyaddr := sameNet ▸ inTable_named shaped there
  have member := (shaped.inTable_iff old).mp there
  rw [sameNet] at member
  rw [rtadd_named named, chainIn_present (shaped.keyed _) rfl (shaped.sorted _)
    (shaped.distinct _) member (not_not.mpr ⟨sameNet, sameMask⟩) gateway sameMetric,
    Function.update_eq_self]

end Tables

/-! ## The routes of an interface -/

def subnetRoute (ifn : Nat) (pni : MaskedIf) : Route :=
  addedRoute (pni.niIp &&& pni.niMask) pni.niMask pni.niIp rtmNohops ifn rtInf.toNat

def broadcastRoute (pni : MaskedIf) : Route :=
  addedRoute ((pni.niIp &&& pni.niMask) ||| ~~~pni.niMask) ipMaskall pni.niIp rtmNohops niLocal
    rtInf.toNat

def zerosRoute (pni : MaskedIf) : Route :=
  addedRoute (pni.niIp &&& pni.niMask) ipMaskall pni.niIp rtmNohops niLocal rtInf.toNat

/-- Under a host mask the three are one route. -/
def maskRoutes (ifn : Nat) (pni : MaskedIf) : List Route :=
  if pni.niMask = ipMaskall then [subnetRoute ifn pni]
  else [subnetRoute ifn pni, broadcastRoute pni, zerosRoute pni]

/-- The routes that an interface is to have. -/
def setmaskRoutes (nif : List MaskedIf) (ifn : Nat) : List Route :=
  match nif[ifn]? with
  | none => []
  | some pni => if pni.niSvalid then maskRoutes ifn pni else []

/-- No route of the table has the network and the mask of the route. -/
def Free (table : RouteTable) (prt : Route) : Prop :=
  ∀ old ∈ table.rttable (rthash prt.rtNet), Unlike old prt

instance (table : RouteTable) (prt : Route) : Decidable (Free table prt) :=
  inferInstanceAs (Decidable (∀ old ∈ _, Unlike old prt))

/-- The table holds the routes of `base`, which are not from `setmask`, and of each interface
those of its mask. -/
structure Clean (base : RouteTable) (s : MaskState) : Prop where
  default : s.route.riDefault = base.riDefault
  routes : ∀ prt, InTable s.route prt ↔
    InTable base prt ∨ ∃ ifn, prt ∈ setmaskRoutes s.nif ifn
  free : ∀ ifn, ∀ prt ∈ setmaskRoutes s.nif ifn, Free base prt
  apart : ∀ ifn other, ifn ≠ other → ∀ prt ∈ setmaskRoutes s.nif ifn,
    ∀ old ∈ setmaskRoutes s.nif other, Unlike old prt

/-- What a broadcast route that `setmask` does not find has to be. -/
def Overwritten (bsdbrc : Bool) (ifn : Nat) (pni masked : MaskedIf) : Prop :=
  bsdbrc = true → pni.niSvalid = true → pni.niMask ≠ ipMaskall →
    broadcastRoute pni ∈ maskRoutes ifn masked

instance (bsdbrc : Bool) (ifn : Nat) (pni masked : MaskedIf) :
    Decidable (Overwritten bsdbrc ifn pni masked) :=
  inferInstanceAs (Decidable (_ → _ → _ → _))

/-- The new subnet is not that of the default route, the new routes are no others, and no
broadcast route of the old mask is left over. -/
def Clear (base : RouteTable) (s : MaskState) (call : Nat × IPaddr) : Prop :=
  ∀ pni : MaskedIf, s.nif[call.1]? = some pni →
    let masked := pni.withMask s.bsdbrc call.2
    masked.niSubnet ≠ ipAnyaddr ∧
    (∀ prt ∈ maskRoutes call.1 masked, Free base prt ∧
      ∀ other < s.nif.length, other ≠ call.1 →
        ∀ old ∈ setmaskRoutes s.nif other, Unlike old prt) ∧
    Overwritten s.bsdbrc call.1 pni masked

instance (base : RouteTable) (s : MaskState) (call : Nat × IPaddr) :
    Decidable (Clear base s call) :=
  inferInstanceAs (Decidable (∀ pni ∈ s.nif[call.1]?, _ ∧ _ ∧ _))

/-- The interface is there and has an address. -/
def Addressed (s : MaskState) (call : Nat × IPaddr) : Prop :=
  (s.nif[call.1]?.map MaskedIf.niIvalid) = some true

instance (s : MaskState) (call : Nat × IPaddr) : Decidable (Addressed s call) :=
  inferInstanceAs (Decidable (_ = _))

/-- What `setmask` reads in the interface was written for its mask. -/
structure Recorded (bsdbrc : Bool) (pni : MaskedIf) : Prop where
  subnet : pni.niSubnet = pni.niIp &&& pni.niMask
  broadcast : pni.niBrc = if bsdbrc then pni.niSubnet else pni.niSubnet ||| ~~~pni.niMask

structure MaskInv (base : RouteTable) (s : MaskState) : Prop extends Clean base s where
  shaped : Shaped s.route
  recorded : ∀ (ifn : Nat) (pni : MaskedIf), s.nif[ifn]? = some pni → pni.niSvalid = true →
    Recorded s.bsdbrc pni

/-! ## Keys -/

theorem broadcast_apart {mask : IPaddr} (notHost : mask ≠ ipMaskall) (ip : IPaddr) :
    (ip &&& mask) ||| ~~~mask ≠ ip &&& mask := by
  intro same
  apply notHost
  apply BitVec.eq_of_getLsbD_eq
  intro bit inside
  have bits := congrArg (fun address => address.getLsbD bit) same
  have all : ipMaskall.getLsbD bit = true := by
    have ones : ipMaskall = BitVec.allOnes 32 := rfl
    rw [ones, BitVec.getLsbD_allOnes]
    exact decide_eq_true inside
  rw [all]
  cases set : mask.getLsbD bit with
  | true => rfl
  | false =>
      rw [BitVec.getLsbD_or, BitVec.getLsbD_not, BitVec.getLsbD_and, set] at bits
      simp only [inside, decide_true, Bool.not_false, Bool.and_true, Bool.or_true,
        Bool.and_false] at bits
      cases bits

theorem host_broadcast (ip : IPaddr) : (ip &&& ipMaskall) ||| ~~~ipMaskall = ip &&& ipMaskall := by
  have ones : ipMaskall = BitVec.allOnes 32 := rfl
  simp [ones]

theorem broadcast_named {ip mask : IPaddr} (named : ip &&& mask ≠ ipAnyaddr) :
    (ip &&& mask) ||| ~~~mask ≠ ipAnyaddr :=
  fun zero => named (BitVec.or_eq_zero_iff.mp zero).1

theorem Recorded.broadcast_named {bsdbrc : Bool} {pni : MaskedIf} (recorded : Recorded bsdbrc pni)
    (named : pni.niIp &&& pni.niMask ≠ ipAnyaddr) : pni.niBrc ≠ ipAnyaddr := by
  rw [recorded.broadcast, recorded.subnet]
  split_ifs
  · exact named
  · exact Routing.broadcast_named named

theorem mem_maskRoutes_subnet (ifn : Nat) (pni : MaskedIf) :
    subnetRoute ifn pni ∈ maskRoutes ifn pni := by
  unfold maskRoutes
  split_ifs <;> exact List.mem_cons_self

theorem mem_maskRoutes_of_ne {ifn : Nat} {pni : MaskedIf} (notHost : pni.niMask ≠ ipMaskall)
    (prt : Route) : prt ∈ maskRoutes ifn pni ↔
      prt = subnetRoute ifn pni ∨ prt = broadcastRoute pni ∨ prt = zerosRoute pni := by
  rw [maskRoutes, if_neg notHost]
  simp

theorem mem_maskRoutes_host {ifn : Nat} {pni : MaskedIf} (host : pni.niMask = ipMaskall)
    (prt : Route) : prt ∈ maskRoutes ifn pni ↔ prt = subnetRoute ifn pni := by
  rw [maskRoutes, if_pos host]
  simp

/-- Each of the three has its network and mask among those of the interface. -/
theorem broadcast_key (ifn : Nat) (pni : MaskedIf) :
    ∃ prt ∈ maskRoutes ifn pni, ¬ Unlike (broadcastRoute pni) prt := by
  by_cases host : pni.niMask = ipMaskall
  · refine ⟨_, mem_maskRoutes_subnet ifn pni, not_not.mpr ⟨?_, host.symm⟩⟩
    change (pni.niIp &&& pni.niMask) ||| ~~~pni.niMask = pni.niIp &&& pni.niMask
    rw [host, host_broadcast]
  · exact ⟨_, (mem_maskRoutes_of_ne host _).mpr (Or.inr (Or.inl rfl)), not_not.mpr ⟨rfl, rfl⟩⟩

theorem zeros_key (ifn : Nat) (pni : MaskedIf) :
    ∃ prt ∈ maskRoutes ifn pni, ¬ Unlike (zerosRoute pni) prt := by
  by_cases host : pni.niMask = ipMaskall
  · exact ⟨_, mem_maskRoutes_subnet ifn pni, not_not.mpr ⟨rfl, host.symm⟩⟩
  · exact ⟨_, (mem_maskRoutes_of_ne host _).mpr (Or.inr (Or.inr rfl)), not_not.mpr ⟨rfl, rfl⟩⟩

theorem maskRoutes_distinct (ifn : Nat) (pni : MaskedIf) {first second : Route}
    (inFirst : first ∈ maskRoutes ifn pni) (inSecond : second ∈ maskRoutes ifn pni)
    (alike : ¬ Unlike first second) : first = second := by
  have same := not_not.mp alike
  by_cases host : pni.niMask = ipMaskall
  · rw [mem_maskRoutes_host host] at inFirst inSecond
    rw [inFirst, inSecond]
  · have apart := broadcast_apart host pni.niIp
    rw [mem_maskRoutes_of_ne host] at inFirst inSecond
    rcases inFirst with rfl | rfl | rfl <;> rcases inSecond with rfl | rfl | rfl
    · rfl
    · exact absurd same.2 host
    · exact absurd same.2 host
    · exact absurd same.2.symm host
    · rfl
    · exact absurd same.1 apart
    · exact absurd same.2.symm host
    · exact absurd same.1.symm apart
    · rfl

theorem maskRoutes_congr (ifn : Nat) {pni other : MaskedIf} (sameIp : other.niIp = pni.niIp)
    (sameMask : other.niMask = pni.niMask) : maskRoutes ifn other = maskRoutes ifn pni := by
  unfold maskRoutes subnetRoute broadcastRoute zerosRoute
  rw [sameIp, sameMask]

/-- Networks and masks that no route of a table has. -/
theorem Free.unlike {table : RouteTable} (shaped : Shaped table) {prt old : Route}
    (free : Free table prt) (there : InTable table old) : Unlike old prt := by
  intro same
  have member := (shaped.inTable_iff old).mp there
  rw [same.1] at member
  exact free old member same

/-! ## Out with the old routes -/

section Steps

variable {base : RouteTable} {s : MaskState} {ifn : Nat} {pni : MaskedIf}

theorem setmaskRoutes_of (found : s.nif[ifn]? = some pni) (valid : pni.niSvalid = true) :
    setmaskRoutes s.nif ifn = maskRoutes ifn pni := by
  rw [setmaskRoutes, found]
  simp only [valid, if_true]

theorem setmaskRoutes_unset (found : s.nif[ifn]? = some pni) (unset : pni.niSvalid = false) :
    setmaskRoutes s.nif ifn = [] := by
  rw [setmaskRoutes, found]
  simp only [unset, Bool.false_eq_true, if_false]

theorem subnet_named (inv : MaskInv base s) (found : s.nif[ifn]? = some pni)
    (valid : pni.niSvalid = true) : pni.niIp &&& pni.niMask ≠ ipAnyaddr := by
  have member := mem_maskRoutes_subnet ifn pni
  rw [← setmaskRoutes_of found valid] at member
  exact inTable_named inv.shaped ((inv.routes _).mpr (Or.inr ⟨ifn, member⟩))

/-- The broadcast route that `setmask` does not find when the broadcast address is the subnet. -/
def Stale (bsdbrc : Bool) (pni : MaskedIf) (prt : Route) : Prop :=
  bsdbrc = true ∧ pni.niSvalid = true ∧ pni.niMask ≠ ipMaskall ∧ prt = broadcastRoute pni

theorem dropRoutes_inTable (ifn : Nat) {table : RouteTable} (shaped : Shaped table) {bsdbrc : Bool}
    (recorded : Recorded bsdbrc pni) (named : pni.niIp &&& pni.niMask ≠ ipAnyaddr)
    (prt : Route) : InTable (dropRoutes pni table) prt ↔
      InTable table prt ∧ Unlike prt (subnetRoute ifn pni) ∧
        (bsdbrc = false → Unlike prt (broadcastRoute pni)) ∧ Unlike prt (zerosRoute pni) := by
  have namedBrc := recorded.broadcast_named named
  have first := rtdel_shaped shaped pni.niSubnet pni.niMask
  have second := rtdel_shaped first pni.niBrc ipMaskall
  rw [← recorded.subnet] at named
  unfold dropRoutes
  dsimp only
  rw [rtdel_inTable second named, rtdel_inTable first namedBrc, rtdel_inTable shaped named,
    recorded.broadcast, recorded.subnet]
  cases bsdbrc with
  | true =>
      simp only [if_true, Bool.true_eq_false, false_implies, true_and]
      constructor
      · rintro ⟨⟨⟨there, subnet⟩, zeros⟩, _⟩
        exact ⟨there, subnet, zeros⟩
      · rintro ⟨there, subnet, zeros⟩
        exact ⟨⟨⟨there, subnet⟩, zeros⟩, zeros⟩
  | false =>
      simp only [Bool.false_eq_true, if_false, true_implies]
      constructor
      · rintro ⟨⟨⟨there, subnet⟩, broadcast⟩, zeros⟩
        exact ⟨there, subnet, broadcast, zeros⟩
      · rintro ⟨there, subnet, broadcast, zeros⟩
        exact ⟨⟨⟨there, subnet⟩, broadcast⟩, zeros⟩

theorem dropRoutes_shaped {table : RouteTable} (shaped : Shaped table) (pni : MaskedIf) :
    Shaped (dropRoutes pni table) :=
  rtdel_shaped (rtdel_shaped (rtdel_shaped shaped _ _) _ _) _ _

theorem dropped_shaped (shaped : Shaped s.route) (pni : MaskedIf) :
    Shaped (if pni.niSvalid then dropRoutes pni s.route else s.route) := by
  split_ifs
  · exact dropRoutes_shaped shaped pni
  · exact shaped

theorem dropRoutes_default {table : RouteTable} (shaped : Shaped table) {bsdbrc : Bool}
    (recorded : Recorded bsdbrc pni) (named : pni.niIp &&& pni.niMask ≠ ipAnyaddr) :
    (dropRoutes pni table).riDefault = table.riDefault := by
  have namedBrc := recorded.broadcast_named named
  have first := rtdel_shaped shaped pni.niSubnet pni.niMask
  have second := rtdel_shaped first pni.niBrc ipMaskall
  rw [← recorded.subnet] at named
  unfold dropRoutes
  dsimp only
  rw [rtdel_default second named, rtdel_default first namedBrc, rtdel_default shaped named]

theorem dropped_default (inv : MaskInv base s) (found : s.nif[ifn]? = some pni) :
    (if pni.niSvalid then dropRoutes pni s.route else s.route).riDefault = base.riDefault := by
  rw [← inv.default]
  split_ifs with valid
  · exact dropRoutes_default inv.shaped (inv.recorded ifn pni found valid)
      (subnet_named inv found valid)
  · rfl

/-- What is left of the table when the interface has lost its routes. -/
theorem dropped_inTable (shapedBase : Shaped base) (inv : MaskInv base s)
    (found : s.nif[ifn]? = some pni) (prt : Route) :
    InTable (if pni.niSvalid then dropRoutes pni s.route else s.route) prt ↔
      InTable base prt ∨ (∃ other, other ≠ ifn ∧ prt ∈ setmaskRoutes s.nif other) ∨
        Stale s.bsdbrc pni prt := by
  cases valid : pni.niSvalid with
  | false =>
      simp only [Bool.false_eq_true, if_false, Stale, valid, false_and, and_false, or_false]
      rw [inv.routes]
      constructor
      · rintro (there | ⟨other, member⟩)
        · exact Or.inl there
        · refine Or.inr ⟨other, ?_, member⟩
          rintro rfl
          rw [setmaskRoutes_unset found valid] at member
          cases member
      · rintro (there | ⟨other, _, member⟩)
        · exact Or.inl there
        · exact Or.inr ⟨other, member⟩
  | true =>
      have own := setmaskRoutes_of found valid
      have named := subnet_named inv found valid
      -- nobody else has the network and the mask of a route of this interface
      have foreign : ∀ old, InTable base old ∨
          (∃ other, other ≠ ifn ∧ old ∈ setmaskRoutes s.nif other) →
          ∀ key, (∃ mine ∈ maskRoutes ifn pni, ¬ Unlike key mine) → Unlike old key := by
        rintro old others key ⟨mine, member, alike⟩ same
        rw [← own] at member
        have keys := not_not.mp alike
        have alikeOld : ¬ Unlike old mine :=
          not_not.mpr ⟨same.1.trans keys.1, same.2.trans keys.2⟩
        rcases others with there | ⟨other, apart, theirs⟩
        · exact alikeOld ((inv.free ifn mine member).unlike shapedBase there)
        · exact alikeOld (inv.apart ifn other apart.symm mine member old theirs)
      simp only [if_true]
      rw [dropRoutes_inTable ifn inv.shaped (inv.recorded ifn pni found valid) named,
        inv.routes]
      constructor
      · rintro ⟨there | ⟨other, member⟩, subnet, broadcast, zeros⟩
        · exact Or.inl there
        · by_cases same : other = ifn
          · subst same
            rw [own] at member
            by_cases host : pni.niMask = ipMaskall
            · rw [mem_maskRoutes_host host] at member
              exact absurd ⟨by rw [member], by rw [member]⟩ subnet
            · rw [mem_maskRoutes_of_ne host] at member
              rcases member with rfl | rfl | rfl
              · exact absurd ⟨rfl, rfl⟩ subnet
              · cases convention : s.bsdbrc with
                | false => exact absurd ⟨rfl, rfl⟩ (broadcast convention)
                | true => exact Or.inr (Or.inr ⟨rfl, valid, host, rfl⟩)
              · exact absurd ⟨rfl, rfl⟩ zeros
          · exact Or.inr (Or.inl ⟨other, same, member⟩)
      · intro left
        rcases or_assoc.mpr left with others | ⟨convention, _, host, rfl⟩
        · have unlike := foreign prt others
          refine ⟨?_, unlike _ ⟨_, mem_maskRoutes_subnet ifn pni, not_not.mpr ⟨rfl, rfl⟩⟩,
            fun _ => unlike _ (broadcast_key ifn pni), unlike _ (zeros_key ifn pni)⟩
          rcases others with there | ⟨other, _, member⟩
          · exact Or.inl there
          · exact Or.inr ⟨other, member⟩
        · refine ⟨Or.inr ⟨ifn, ?_⟩, fun same => host same.2.symm, ?_,
            fun same => broadcast_apart host pni.niIp same.1⟩
          · rw [own, mem_maskRoutes_of_ne host]
            exact Or.inr (Or.inl rfl)
          · rw [convention]
            intro impossible
            cases impossible

/-! ## In with the new routes -/

theorem makeRoutes_eq {bsdbrc : Bool} (recorded : Recorded bsdbrc pni) (table : RouteTable) :
    makeRoutes bsdbrc ifn pni table =
      rtadd (rtadd (rtadd table (pni.niIp &&& pni.niMask) pni.niMask pni.niIp rtmNohops ifn
          rtInf.toNat)
        ((pni.niIp &&& pni.niMask) ||| ~~~pni.niMask) ipMaskall pni.niIp rtmNohops niLocal
          rtInf.toNat)
        (pni.niIp &&& pni.niMask) ipMaskall pni.niIp rtmNohops niLocal rtInf.toNat := by
  unfold makeRoutes
  rw [recorded.broadcast, recorded.subnet]
  cases bsdbrc <;> rfl

theorem makeRoutes_default {bsdbrc : Bool} (recorded : Recorded bsdbrc pni)
    (named : pni.niIp &&& pni.niMask ≠ ipAnyaddr) (table : RouteTable) :
    (makeRoutes bsdbrc ifn pni table).riDefault = table.riDefault := by
  have namedBroadcast := broadcast_named named
  rw [makeRoutes_eq recorded, rtadd_default named, rtadd_default namedBroadcast,
    rtadd_default named]

theorem makeRoutes_shaped {table : RouteTable} (shaped : Shaped table) (bsdbrc : Bool)
    (ifn : Nat) (pni : MaskedIf) : Shaped (makeRoutes bsdbrc ifn pni table) :=
  rtadd_shaped (rtadd_shaped (rtadd_shaped shaped _ _ _ _ _ _) _ _ _ _ _ _) _ _ _ _ _ _

/-- A route by way of the interface with no hops is only found again. -/
theorem makeRoutes_kept {table : RouteTable} {bsdbrc : Bool} {old : Route}
    (there : InTable table old) (gateway : old.rtGw = pni.niIp) (metric : old.rtMetric = 0) :
    InTable (makeRoutes bsdbrc ifn pni table) old :=
  rtadd_inTable_kept (rtadd_inTable_kept (rtadd_inTable_kept there (Or.inr ⟨gateway, metric⟩))
    (Or.inr ⟨gateway, metric⟩)) (Or.inr ⟨gateway, metric⟩)

theorem makeRoutes_inTable (ifn : Nat) {table : RouteTable} (shaped : Shaped table) {bsdbrc : Bool}
    (recorded : Recorded bsdbrc pni) (named : pni.niIp &&& pni.niMask ≠ ipAnyaddr)
    (own : ∀ prt ∈ maskRoutes ifn pni, ∀ old, InTable table old → ¬ Unlike old prt → old = prt)
    (prt : Route) :
    InTable (makeRoutes bsdbrc ifn pni table) prt ↔
      InTable table prt ∨ prt ∈ maskRoutes ifn pni := by
  have namedBroadcast := broadcast_named named
  have subnet : (subnetRoute ifn pni).rtNet = pni.niIp &&& pni.niMask := rfl
  have gateway : (subnetRoute ifn pni).rtGw = pni.niIp := rfl
  have metric : (subnetRoute ifn pni).rtMetric = rtmNohops % 2 ^ 16 := rfl
  rw [makeRoutes_eq recorded]
  generalize installed : rtadd table (pni.niIp &&& pni.niMask) pni.niMask pni.niIp rtmNohops ifn
    rtInf.toNat = withSubnet
  have shapedSubnet : Shaped withSubnet := by
    rw [← installed]
    exact rtadd_shaped shaped _ _ _ _ _ _
  have first : ∀ prt, InTable withSubnet prt ↔ prt = subnetRoute ifn pni ∨ InTable table prt := by
    rw [← installed]
    exact rtadd_inTable_new named (own _ (mem_maskRoutes_subnet ifn pni))
  by_cases host : pni.niMask = ipMaskall
  · have there := (first (subnetRoute ifn pni)).mpr (Or.inl rfl)
    have broadcast : (subnetRoute ifn pni).rtNet =
        (pni.niIp &&& pni.niMask) ||| ~~~pni.niMask := by
      rw [subnet, host, host_broadcast]
    rw [rtadd_present shapedSubnet there broadcast host gateway metric,
      rtadd_present shapedSubnet there subnet host gateway metric, first, mem_maskRoutes_host host]
    exact or_comm
  · have mem : ∀ prt, prt ∈ maskRoutes ifn pni ↔ _ := mem_maskRoutes_of_ne host
    generalize broadcasting : rtadd withSubnet ((pni.niIp &&& pni.niMask) ||| ~~~pni.niMask)
      ipMaskall pni.niIp rtmNohops niLocal rtInf.toNat = withBroadcast
    have second : ∀ prt, InTable withBroadcast prt ↔
        prt = broadcastRoute pni ∨ InTable withSubnet prt := by
      rw [← broadcasting]
      apply rtadd_inTable_new namedBroadcast
      intro old there alike
      rcases (first old).mp there with rfl | before
      · exact absurd (not_not.mp alike).2 host
      · exact own _ ((mem _).mpr (Or.inr (Or.inl rfl))) old before alike
    rw [rtadd_inTable_new named, second, first, mem]
    · constructor
      · rintro (zeros | broadcast | subnet | there)
        · exact Or.inr (Or.inr (Or.inr zeros))
        · exact Or.inr (Or.inr (Or.inl broadcast))
        · exact Or.inr (Or.inl subnet)
        · exact Or.inl there
      · rintro (there | subnet | broadcast | zeros)
        · exact Or.inr (Or.inr (Or.inr there))
        · exact Or.inr (Or.inr (Or.inl subnet))
        · exact Or.inr (Or.inl broadcast)
        · exact Or.inl zeros
    · intro old there alike
      rcases (second old).mp there with rfl | there
      · exact absurd (not_not.mp alike).1 (broadcast_apart host pni.niIp)
      · rcases (first old).mp there with rfl | before
        · exact absurd (not_not.mp alike).2 host
        · exact own _ ((mem _).mpr (Or.inr (Or.inr rfl))) old before alike

/-! ## One call -/

/-- What a call leaves, for an interface with an address. -/
theorem maskStep_spec {call : Nat × IPaddr} (addressed : Addressed s call) :
    ∃ pni masked : MaskedIf, s.nif[call.1]? = some pni ∧ masked.niIp = pni.niIp ∧
      masked.niMask = call.2 ∧ masked.niSvalid = true ∧ Recorded s.bsdbrc masked ∧
      maskStep s call = { s with
        nif := s.nif.set call.1 masked
        route := makeRoutes s.bsdbrc call.1 masked
          (if pni.niSvalid then dropRoutes pni s.route else s.route) } := by
  obtain ⟨pni, found, valid⟩ := Option.map_eq_some_iff.mp addressed
  have notInvalid : ¬ ((!pni.niIvalid) = true) := by
    rw [valid]
    decide
  refine ⟨pni, { pni.withMask s.bsdbrc call.2 with
    niNbrc := pni.niIp ||| ~~~netmask (s.nif.set call.1 (pni.withMask s.bsdbrc call.2)) pni.niIp },
    found, rfl, rfl, rfl, ⟨rfl, rfl⟩, ?_⟩
  unfold maskStep setmask
  rw [found]
  dsimp only
  rw [if_neg notInvalid]
  rfl

theorem setmaskRoutes_set (nif : List MaskedIf) {masked : MaskedIf} (inside : ifn < nif.length)
    (valid : masked.niSvalid = true) :
    setmaskRoutes (nif.set ifn masked) ifn = maskRoutes ifn masked := by
  rw [setmaskRoutes, List.getElem?_set_self inside]
  simp only [valid, if_true]

theorem setmaskRoutes_set_ne (nif : List MaskedIf) (masked : MaskedIf) {other : Nat}
    (apart : other ≠ ifn) : setmaskRoutes (nif.set ifn masked) other = setmaskRoutes nif other := by
  rw [setmaskRoutes, List.getElem?_set_ne apart.symm, setmaskRoutes]

theorem setmaskRoutes_inside {nif : List MaskedIf} {prt : Route}
    (member : prt ∈ setmaskRoutes nif ifn) : ifn < nif.length := by
  by_contra outside
  rw [setmaskRoutes, List.getElem?_eq_none (by omega)] at member
  cases member

theorem Unlike.symm {first second : Route} (apart : Unlike first second) :
    Unlike second first := fun same => apart ⟨same.1.symm, same.2.symm⟩

theorem maskStep_inv (shapedBase : Shaped base) {call : Nat × IPaddr} (inv : MaskInv base s)
    (addressed : Addressed s call) (clear : Clear base s call) :
    MaskInv base (maskStep s call) := by
  obtain ⟨pni, masked, found, sameIp, newMask, valid, recorded, step⟩ := maskStep_spec addressed
  obtain ⟨subnet, free, overwritten⟩ := clear pni found
  have routes : maskRoutes call.1 (pni.withMask s.bsdbrc call.2) = maskRoutes call.1 masked :=
    maskRoutes_congr call.1 sameIp.symm newMask.symm
  rw [routes] at free
  unfold Overwritten at overwritten
  rw [routes] at overwritten
  have named : masked.niIp &&& masked.niMask ≠ ipAnyaddr := by
    rw [sameIp, newMask]
    exact subnet
  have inside : call.1 < s.nif.length := (List.getElem?_eq_some_iff.mp found).1
  have shapedDropped := dropped_shaped inv.shaped pni
  have dropped := dropped_inTable shapedBase inv found
  have made := makeRoutes_inTable call.1 shapedDropped recorded named (by
    intro prt member old there alike
    rcases (dropped old).mp there with inBase | ⟨other, apart, theirs⟩ | stale
    · exact absurd ((free prt member).1.unlike shapedBase inBase) alike
    · exact absurd ((free prt member).2 other (setmaskRoutes_inside theirs) apart old theirs) alike
    · obtain ⟨convention, wasValid, notHost, rfl⟩ := stale
      exact maskRoutes_distinct call.1 masked (overwritten convention wasValid notHost) member
        alike)
  have own := setmaskRoutes_set s.nif inside valid
  have others : ∀ other, other ≠ call.1 →
      setmaskRoutes (s.nif.set call.1 masked) other = setmaskRoutes s.nif other :=
    fun other apart => setmaskRoutes_set_ne s.nif masked apart
  rw [step]
  refine ⟨⟨?_, ?_, ?_, ?_⟩, makeRoutes_shaped shapedDropped _ _ _, ?_⟩
  · dsimp only
    rw [makeRoutes_default recorded named, dropped_default inv found]
  · intro prt
    dsimp only
    rw [made, dropped]
    constructor
    · rintro ((inBase | ⟨other, apart, theirs⟩ | ⟨convention, wasValid, notHost, rfl⟩) | mine)
      · exact Or.inl inBase
      · exact Or.inr ⟨other, (others other apart) ▸ theirs⟩
      · exact Or.inr ⟨call.1, own ▸ overwritten convention wasValid notHost⟩
      · exact Or.inr ⟨call.1, own ▸ mine⟩
    · rintro (inBase | ⟨other, member⟩)
      · exact Or.inl (Or.inl inBase)
      · by_cases same : other = call.1
        · subst same
          exact Or.inr (own ▸ member)
        · exact Or.inl (Or.inr (Or.inl ⟨other, same, (others other same) ▸ member⟩))
  · intro ifn prt member
    dsimp only at member
    by_cases same : ifn = call.1
    · subst same
      rw [own] at member
      exact (free prt member).1
    · rw [others ifn same] at member
      exact inv.free ifn prt member
  · have against : ∀ prt ∈ maskRoutes call.1 masked, ∀ other, other ≠ call.1 →
        ∀ old ∈ setmaskRoutes s.nif other, Unlike old prt := fun prt member other apart old theirs =>
      (free prt member).2 other (setmaskRoutes_inside theirs) apart old theirs
    intro ifn other different prt member old theirs
    dsimp only at member theirs
    by_cases mine : ifn = call.1
    · subst mine
      rw [own] at member
      rw [others other different.symm] at theirs
      exact against prt member other different.symm old theirs
    · rw [others ifn mine] at member
      by_cases yours : other = call.1
      · subst yours
        rw [own] at theirs
        exact (against old theirs ifn mine prt member).symm
      · rw [others other yours] at theirs
        exact inv.apart ifn other different prt member old theirs
  · intro ifn other foundOther validOther
    dsimp only at foundOther
    by_cases same : call.1 = ifn
    · subst same
      rw [List.getElem?_set_self inside] at foundOther
      rw [← Option.some.inj foundOther]
      exact recorded
    · rw [List.getElem?_set_ne same] at foundOther
      exact inv.recorded ifn other foundOther validOther

/-- The condition is needed: what `setmask` does not find stays in the table. -/
theorem maskStep_exact (shapedBase : Shaped base) {call : Nat × IPaddr} (inv : MaskInv base s)
    (addressed : Addressed s call) (clean : Clean base (maskStep s call)) :
    Clear base s call := by
  obtain ⟨pni, masked, found, sameIp, newMask, valid, recorded, step⟩ := maskStep_spec addressed
  intro pni' found'
  obtain rfl : pni = pni' := Option.some.inj (found.symm.trans found')
  have inside : call.1 < s.nif.length := (List.getElem?_eq_some_iff.mp found).1
  have own := setmaskRoutes_set s.nif inside valid
  have others : ∀ other, other ≠ call.1 →
      setmaskRoutes (s.nif.set call.1 masked) other = setmaskRoutes s.nif other :=
    fun other apart => setmaskRoutes_set_ne s.nif masked apart
  have routes : maskRoutes call.1 (pni.withMask s.bsdbrc call.2) = maskRoutes call.1 masked :=
    maskRoutes_congr call.1 sameIp.symm newMask.symm
  have shaped : Shaped (maskStep s call).route := by
    rw [step]
    exact makeRoutes_shaped (dropped_shaped inv.shaped pni) _ _ _
  have nif : (maskStep s call).nif = s.nif.set call.1 masked := by rw [step]
  rw [← nif] at own others
  dsimp only
  unfold Overwritten
  rw [routes]
  refine ⟨?_, ?_, ?_⟩
  · have there := (clean.routes _).mpr (Or.inr ⟨call.1, own ▸ mem_maskRoutes_subnet call.1 masked⟩)
    have named := inTable_named shaped there
    change pni.niIp &&& call.2 ≠ ipAnyaddr
    rw [← sameIp, ← newMask]
    exact named
  · intro prt member
    rw [← own] at member
    refine ⟨clean.free call.1 prt member, fun other _ apart old theirs => ?_⟩
    rw [← others other apart] at theirs
    exact clean.apart call.1 other apart.symm prt member old theirs
  · intro convention wasValid notHost
    have mine : broadcastRoute pni ∈ setmaskRoutes s.nif call.1 := by
      rw [setmaskRoutes_of found wasValid, mem_maskRoutes_of_ne notHost]
      exact Or.inr (Or.inl rfl)
    have left := (dropped_inTable shapedBase inv found (broadcastRoute pni)).mpr
      (Or.inr (Or.inr ⟨convention, wasValid, notHost, rfl⟩))
    have still : InTable (maskStep s call).route (broadcastRoute pni) := by
      rw [step]
      exact makeRoutes_kept left sameIp.symm rfl
    rcases (clean.routes _).mp still with inBase | ⟨other, member⟩
    · exact absurd ⟨rfl, rfl⟩ ((inv.free call.1 _ mine).unlike shapedBase inBase)
    · by_cases same : other = call.1
      · subst same
        rw [← own]
        exact member
      · rw [others other same] at member
        exact absurd ⟨rfl, rfl⟩ (inv.apart call.1 other (Ne.symm same) _ mine _ member)

end Steps

/-! ## Every sequence of calls -/

/-- Before the first `setmask`. -/
def unmasked (base : RouteTable) (bsdbrc : Bool) (nif : List MaskedIf) : MaskState where
  nif := nif
  bsdbrc := bsdbrc
  route := base

/-- After each call of a sequence the routes from `setmask` are those of the masks exactly if the
new routes are no others and the broadcast route of the old mask is not missed. -/
theorem setmask_routes_iff (base : RouteTable)
    (reached : Reach routeStep (fun _ _ => True) rtinit base) (bsdbrc : Bool)
    (nif : List MaskedIf) (unset : ∀ pni ∈ nif, pni.niSvalid = false)
    (calls : List (Nat × IPaddr))
    (addressed : Permitted maskStep Addressed (unmasked base bsdbrc nif) calls) :
    (∀ count, Clean base ((calls.take count).foldl maskStep (unmasked base bsdbrc nif))) ↔
      Permitted maskStep (Clear base) (unmasked base bsdbrc nif) calls := by
  have shaped : Shaped base := by
    apply reached.invariant
    · constructor <;> simp [rtinit]
    · intro before call shaped _
      exact routeStep_shaped shaped call
  have none : ∀ ifn, setmaskRoutes nif ifn = [] := by
    intro ifn
    cases found : nif[ifn]? with
    | none => rw [setmaskRoutes, found]
    | some pni =>
        rw [setmaskRoutes, found]
        simp only [unset pni (List.mem_of_getElem? found), Bool.false_eq_true, if_false]
  have initial : MaskInv base (unmasked base bsdbrc nif) := by
    refine ⟨⟨rfl, ?_, ?_, ?_⟩, shaped, ?_⟩
    · intro prt
      simp [unmasked, none]
    · intro ifn prt member
      simp [unmasked, none] at member
    · intro ifn other _ prt member
      simp [unmasked, none] at member
    · intro ifn pni found valid
      rw [unset pni (List.mem_of_getElem? found)] at valid
      cases valid
  exact promised_throughout_iff calls addressed initial (fun _ inv => inv.toClean)
    (fun _ _ inv promised clear => maskStep_inv shaped inv promised clear)
    (fun _ _ inv promised clean => maskStep_exact shaped inv promised clean)

/-- The loopback interface without a mask, and one with the address 10.1.1.1. -/
def twoInterfaces : List MaskedIf :=
  [{ niBrc := 0, niNbrc := 0, niSubnet := 0, niNet := 0, niIp := 0, niMask := 0, niIvalid := false,
     niSvalid := false },
   { niBrc := 0, niNbrc := 0, niSubnet := 0, niNet := 0x0a000000, niIp := 0x0a010101, niMask := 0,
     niIvalid := true, niSvalid := false }]

theorem all_ones_convention_clean :
    Clean rtinit ([(1, 0xffffff00), (1, 0xffff0000)].foldl maskStep
      (unmasked rtinit false twoInterfaces)) :=
  (setmask_routes_iff rtinit Reach.start false twoInterfaces (by decide)
    [(1, 0xffffff00), (1, 0xffff0000)] (by decide)).mpr (by decide) 2

def Contiguous (mask : IPaddr) : Prop := mask ≠ 0 ∧ ∃ hostBits < 32, mask = ipMaskall <<< hostBits

instance (mask : IPaddr) : Decidable (Contiguous mask) :=
  inferInstanceAs (Decidable (_ ∧ ∃ hostBits < 32, _))

/-- The subnet is that of no other interface. -/
def OwnSubnet (s : MaskState) (call : Nat × IPaddr) : Prop :=
  ∀ pni ∈ s.nif[call.1]?, ∀ other < s.nif.length, other ≠ call.1 →
    ∀ theirs ∈ s.nif[other]?, theirs.niSvalid = true → theirs.niSubnet ≠ pni.niIp &&& call.2

instance (s : MaskState) (call : Nat × IPaddr) : Decidable (OwnSubnet s call) :=
  inferInstanceAs (Decidable (∀ pni ∈ _, ∀ other < _, _ → ∀ theirs ∈ _, _ → _))

/-- With a subnet as the broadcast address, 10.1.1.255 stays in the table when 10.1.1.0 becomes
10.1.0.0. -/
theorem broadcast_route_left_over :
    ¬ ∀ (base : RouteTable), Reach routeStep (fun _ _ => True) rtinit base →
      ∀ (bsdbrc : Bool) (nif : List MaskedIf), (∀ pni ∈ nif, pni.niSvalid = false) →
        ∀ calls : List (Nat × IPaddr), (∀ call ∈ calls, Contiguous call.2) →
          Permitted maskStep Addressed (unmasked base bsdbrc nif) calls →
          Permitted maskStep OwnSubnet (unmasked base bsdbrc nif) calls →
          ∀ count, Clean base ((calls.take count).foldl maskStep (unmasked base bsdbrc nif)) := by
  intro always
  have clean := always rtinit Reach.start true twoInterfaces (by decide)
    [(1, 0xffffff00), (1, 0xffff0000)] (by decide) (by decide) (by decide) 2
  have left : InTable (([(1, 0xffffff00), (1, 0xffff0000)].take 2).foldl maskStep
      (unmasked rtinit true twoInterfaces)).route
        (addedRoute 0x0a0101ff ipMaskall 0x0a010101 rtmNohops niLocal rtInf.toNat) :=
    ⟨10, by decide⟩
  rcases (clean.routes _).mp left with ⟨_, impossible⟩ | ⟨ifn, member⟩
  · cases impossible
  · have inside := setmaskRoutes_inside member
    have none : ∀ ifn < 2, addedRoute 0x0a0101ff ipMaskall 0x0a010101 rtmNohops niLocal
        rtInf.toNat ∉ setmaskRoutes (([(1, 0xffffff00), (1, 0xffff0000)].take 2).foldl maskStep
          (unmasked rtinit true twoInterfaces)).nif ifn := by
      decide
    exact none ifn inside member

end MvsXinu.Routing
