import MvsXinu.Lib.Runs
import MvsXinu.Rip.Packets

/-!
# Hop counts in a network of routers

Any number of routers run RIP. Updates go out when they will, and datagrams get lost, come twice
or come late; in between other parts of the systems add and delete routes, and routes expire. A
metric below infinity is the length of a path all the same, from a router where the network was
configured, and the gateway of the route is the first router on it.
-/

namespace MvsXinu.Rip

open MvsXinu.Routing hiding chainIn rtadd ageRoute ageDefault rttimer
open MvsXinu.Runs

set_option autoImplicit false

/-- A router: the table, and `riprecv` where the RIP process is in it. -/
structure RipHost where
  route : RouteTable := rtinit
  dorip : Bool := false
  learning : Option Learning := none

/-- A datagram from the RIP port of a router. -/
structure Datagram (Router : Type*) where
  sender : Router
  ifnum : Nat
  port : BitVec 16
  rip : Rip
  len : Word

/-- `address` is the source address of what a router sends by an interface, `carries` tells
whose datagrams can come to whom, and `configured` which routes a router is given otherwise than
by RIP, by network number and metric. -/
structure Setting (Router : Type*) where
  nif : Router → List RipIf
  gateway : Router → Bool
  address : Router → Nat → IPaddr
  carries : Router → Router → Bool
  configured : Router → IPaddr → Nat → Bool

structure System (Router : Type*) where
  host : Router → RipHost := fun _ => {}
  sent : List (Datagram Router) := []

/-- `begins` is the start of `ripout` and `ripout` one turn of its loop. `read` is a datagram
that was sent before, `ask` a request that anyone may send, and `turn` goes on in `riprecv`. The
others are calls by other parts of the system. -/
inductive Event (Router : Type*) where
  | begins (router : Router)
  | ripout (router : Router)
  | read (router : Router) (index : Nat)
  | ask (router : Router) (gram : Xgram) (len : Word)
  | turn (router : Router)
  | rtadd (router : Router) (net mask gw : IPaddr) (metric intf ttl : Nat)
  | rtdel (router : Router) (net mask : IPaddr)
  | rttimer (router : Router) (delta : Nat)

section Steps

variable {Router : Type*}

/-- The datagrams of the packets that there are. -/
def datagrams (router : Router) (sends : List Sent) : List (Datagram Router) :=
  sends.filterMap fun sent => sent.pep.map fun filled =>
    { sender := router, ifnum := sent.ifnum, port := sent.port, rip := filled.rip
      len := BitVec.ofNat 32 filled.len }

def System.send (s : System Router) (router : Router) (sends : Option (List Sent)) :
    System Router :=
  { s with sent := s.sent ++ datagrams router (sends.getD []) }

/-- What `ripout` sends in a turn, `riplock` taken. -/
def update (setting : Setting Router) (s : System Router) (router : Router) : Option (List Sent) :=
  let host := s.host router
  if host.dorip && host.learning.isNone then
    ripsend (setting.nif router) host.route ipMaskall upRip
  else none

/-- The answer to a request. -/
def answer (setting : Setting Router) (s : System Router) (router : Router) (gram : Xgram)
    (len : Word) : Option (List Sent) :=
  let host := s.host router
  if host.learning.isSome then none
  else
    match ripturn (setting.gateway router) gram len with
    | .riprepl =>
        riprepl (setting.nif router) host.route gram.xgData len gram.xgFip gram.xgFport
    | _ => none

def arrived (setting : Setting Router) (datagram : Datagram Router) : Xgram where
  xgFip := setting.address datagram.sender datagram.ifnum
  xgFport := upRip
  xgData := datagram.rip

def hear (setting : Setting Router) (router : Router) (host : RipHost)
    (datagram : Datagram Router) : RipHost :=
  let gram := arrived setting datagram
  if host.learning.isSome then host
  else
    match ripturn (setting.gateway router) gram datagram.len with
    | .riprecv =>
        { host with
          learning := riprecv (setting.nif router) host.route gram.xgData datagram.len
            gram.xgFip }
    | _ => host

def goOn (nif : List RipIf) (host : RipHost) : RipHost :=
  match host.learning with
  | none => host
  | some ⟨_, _, []⟩ => { host with learning := none }
  | some ⟨gw, ifnum, rp :: rest⟩ =>
      { host with
        route := (learn nif host.dorip gw ifnum host.route rp).1
        learning := some ⟨gw, ifnum, rest⟩ }

/-- No update has more routes than `ripsend` has packets for. -/
def Fits (sends : Option (List Sent)) : Bool :=
  (sends.getD []).all fun sent => sent.pep.isSome

/-- Datagrams come from where the network carries them, and only what is configured is added
otherwise. A request for single routes comes from another port than that of RIP: the answer
has the metrics as they are in the table. -/
def Allowed (setting : Setting Router) (s : System Router) : Event Router → Bool
  | .ripout router => Fits (update setting s router)
  | .read router index =>
      (s.sent[index]?).all fun datagram =>
        datagram.port == upRip && setting.carries datagram.sender router
  | .ask router gram len =>
      gram.xgData.ripCmd == ripRequest && (wantsAll gram.xgData len || gram.xgFport != upRip) &&
        Fits (answer setting s router gram len)
  | .rtadd router net _ _ metric _ _ => setting.configured router (netnum net) (metric % 2 ^ 16)
  | _ => true

variable [DecidableEq Router]

def System.set (s : System Router) (router : Router) (host : RipHost) : System Router :=
  { s with host := Function.update s.host router host }

def step (setting : Setting Router) (s : System Router) : Event Router → System Router
  | .begins router => s.set router { s.host router with dorip := true }
  | .ripout router => s.send router (update setting s router)
  | .read router index =>
      match s.sent[index]? with
      | none => s
      | some datagram => s.set router (hear setting router (s.host router) datagram)
  | .ask router gram len => s.send router (answer setting s router gram len)
  | .turn router => s.set router (goOn (setting.nif router) (s.host router))
  | .rtadd router net mask gw metric intf ttl =>
      let host := s.host router
      s.set router { host with
        route := (rtadd host.dorip host.route net mask gw metric intf ttl).1 }
  | .rtdel router net mask =>
      s.set router { s.host router with route := (rtdel (s.host router).route net mask).2 }
  | .rttimer router delta =>
      let host := s.host router
      s.set router { host with route := rttimer host.dorip host.route delta }

end Steps

/-! ## Routes of a table -/

section Tables

variable {table : RouteTable} {prt : Route}

def Listed (table : RouteTable) (prt : Route) : Prop :=
  (∃ index, prt ∈ table.rttable index) ∨ table.riDefault = some prt

/-- A route in a bucket after `rtadd` was there, or has the gateway and the metric of the call. -/
theorem mem_chainIn {dorip : Bool} {metric : Nat} {new : Route} :
    ∀ {routes : List Route}, prt ∈ (chainIn dorip metric new routes).1 →
      prt ∈ routes ∨
        (prt.rtNet = new.rtNet ∧ prt.rtGw = new.rtGw ∧ prt.rtMetric = new.rtMetric) := by
  intro routes
  induction routes with
  | nil =>
      intro member
      rw [chainIn, List.mem_singleton] at member
      subst member
      exact Or.inr ⟨rfl, rfl, rfl⟩
  | cons srt rest ih =>
      intro member
      unfold chainIn at member
      split_ifs at member with shorter duplicate gateway active better
      · rcases List.mem_cons.mp member with rfl | old
        · exact Or.inr ⟨rfl, rfl, rfl⟩
        · exact Or.inl old
      · rcases List.mem_cons.mp member with rfl | old
        · exact Or.inr ⟨duplicate.1, gateway, rfl⟩
        · exact Or.inl (List.mem_cons_of_mem _ old)
      · rcases List.mem_cons.mp member with rfl | old
        · exact Or.inr ⟨duplicate.1, gateway, rfl⟩
        · exact Or.inl (List.mem_cons_of_mem _ old)
      · exact Or.inl member
      · rcases List.mem_cons.mp member with rfl | old
        · exact Or.inr ⟨rfl, rfl, rfl⟩
        · exact Or.inl (List.mem_cons_of_mem _ old)
      · rcases List.mem_cons.mp member with rfl | later
        · exact Or.inl List.mem_cons_self
        · rcases ih later with old | fresh
          · exact Or.inl (List.mem_cons_of_mem _ old)
          · exact Or.inr fresh

/-- A route of a table with another bucket is in that bucket or was there. -/
theorem updated_listed {hv : Nat} {routes : List Route}
    (listed : Listed { table with rttable := Function.update table.rttable hv routes } prt) :
    prt ∈ routes ∨ Listed table prt := by
  rcases listed with ⟨index, member⟩ | top
  · dsimp only at member
    by_cases same : index = hv
    · subst same
      rw [Function.update_self] at member
      exact Or.inl member
    · rw [Function.update_of_ne same] at member
      exact Or.inr (Or.inl ⟨index, member⟩)
  · exact Or.inr (Or.inr top)

theorem rtadd_listed {dorip : Bool} {net mask gw : IPaddr} {metric intf ttl : Nat}
    (listed : Listed (rtadd dorip table net mask gw metric intf ttl).1 prt) :
    Listed table prt ∨ (prt.rtNet = net ∧ prt.rtGw = gw ∧ prt.rtMetric = metric % 2 ^ 16) := by
  unfold rtadd at listed
  dsimp only at listed
  split_ifs at listed with isDefault
  · rcases listed with inside | top
    · exact Or.inl (Or.inl inside)
    · rw [← Option.some.inj top]
      exact Or.inr ⟨rfl, rfl, rfl⟩
  · rcases updated_listed listed with member | old
    · rcases mem_chainIn member with old | fresh
      · exact Or.inl (Or.inl ⟨_, old⟩)
      · exact Or.inr fresh
    · exact Or.inl old

theorem rtdel_listed {net mask : IPaddr} (listed : Listed (rtdel table net mask).2 prt) :
    Listed table prt := by
  unfold rtdel at listed
  dsimp only at listed
  split_ifs at listed
  · rcases listed with inside | top
    · exact Or.inl inside
    · cases top
  · rcases updated_listed listed with member | old
    · exact Or.inl ⟨_, List.mem_of_mem_eraseP member⟩
    · exact old
  · exact listed

/-- What time does to a route: it stays with its metric or becomes infinite. -/
def Older (before after : Route) : Prop :=
  after.rtNet = before.rtNet ∧ after.rtGw = before.rtGw ∧
    (after.rtMetric = before.rtMetric ∨ after.rtMetric = rtmInf)

theorem ageRoute_older {dorip : Bool} {delta : Nat} {before : Route}
    (aged : ageRoute dorip delta before = some prt) : Older before prt := by
  unfold ageRoute at aged
  dsimp only at aged
  split_ifs at aged <;>
    first
      | exact Option.some.inj aged ▸ ⟨rfl, rfl, Or.inl rfl⟩
      | exact Option.some.inj aged ▸ ⟨rfl, rfl, Or.inr rfl⟩

theorem ageDefault_older {dorip : Bool} {delta : Nat} {before : Route}
    (aged : ageDefault dorip delta before = some prt) : Older before prt := by
  unfold ageDefault at aged
  dsimp only at aged
  split_ifs at aged <;>
    first
      | exact Option.some.inj aged ▸ ⟨rfl, rfl, Or.inl rfl⟩
      | exact Option.some.inj aged ▸ ⟨rfl, rfl, Or.inr rfl⟩

theorem rttimer_listed {dorip : Bool} {delta : Nat}
    (listed : Listed (rttimer dorip table delta) prt) :
    ∃ before, Listed table before ∧ Older before prt := by
  rcases listed with ⟨index, member⟩ | top
  · obtain ⟨before, inside, aged⟩ := List.mem_filterMap.mp member
    exact ⟨before, Or.inl ⟨index, inside⟩, ageRoute_older aged⟩
  · obtain ⟨before, inside, aged⟩ := Option.bind_eq_some_iff.mp top
    exact ⟨before, Or.inr inside, ageDefault_older aged⟩

theorem ripRoutes_listed (member : prt ∈ ripRoutes table) : Listed table prt := by
  rcases List.mem_append.mp member with bucket | top
  · obtain ⟨index, _, inside⟩ := List.mem_flatMap.mp bucket
    exact Or.inl ⟨index, inside⟩
  · exact Or.inr (Option.mem_toList.mp top)

end Tables

/-! ## Entries on the way -/

section Entries

theorem and_class (address mask bits : IPaddr) (inside : mask &&& bits = bits) :
    (address &&& mask) &&& bits = address &&& bits := by
  rw [BitVec.and_assoc, inside]

/-- The mask of the class of an address. -/
def classMask (ipa : IPaddr) : IPaddr :=
  if ipClassC ipa then 0xffffff00 else if ipClassB ipa then 0xffff0000
    else if ipClassA ipa then 0xff000000 else 0xffffffff

theorem classMask_top (ipa : IPaddr) :
    classMask ipa &&& 0x80000000 = 0x80000000 ∧ classMask ipa &&& 0xc0000000 = 0xc0000000 ∧
      classMask ipa &&& 0xe0000000 = 0xe0000000 := by
  unfold classMask
  split_ifs <;> decide

/-- The class is in the bits that its mask keeps. -/
theorem classMask_kept (ipa : IPaddr) : classMask (ipa &&& classMask ipa) = classMask ipa := by
  obtain ⟨first, second, third⟩ := classMask_top ipa
  have alike : ∀ other, ipClassA other = ipClassA ipa → ipClassB other = ipClassB ipa →
      ipClassC other = ipClassC ipa → classMask other = classMask ipa := by
    intro other classA classB classC
    unfold classMask
    rw [classA, classB, classC]
  apply alike
  · unfold ipClassA
    rw [and_class _ _ _ first]
  · unfold ipClassB
    rw [and_class _ _ _ second]
  · unfold ipClassC
    rw [and_class _ _ _ third]

theorem netnum_netnum (ipa : IPaddr) : netnum (netnum ipa) = netnum ipa := by
  have netnum_eq : ∀ address, netnum address = address &&& classMask address := fun _ => rfl
  rw [netnum_eq, netnum_eq, classMask_kept, BitVec.and_assoc, BitVec.and_self]

theorem riprtFor_netnum (pni : RipIf) (prt : Route) (metric : Nat) :
    netnum (riprtFor pni prt metric).rrIpa = netnum prt.rtNet := by
  unfold riprtFor
  dsimp only
  split_ifs
  · rfl
  · exact netnum_netnum _

theorem riprtFor_metric (pni : RipIf) (prt : Route) {metric : Nat} (word : metric < 2 ^ 32) :
    (riprtFor pni prt metric).rrMetric.toNat = metric := by
  unfold riprtFor
  rw [BitVec.toNat_ofNat, Nat.mod_eq_of_lt word]

/-- A metric that is accepted is not beyond infinity, as a number with a sign. -/
theorem ripok_metric {rp : Riprt} (fine : ripok rp = true) :
    rp.rrMetric.toInt ≤ (ripInfinity : Int) := by
  by_contra large
  have beyond : (ripInfinity : Int) < rp.rrMetric.toInt := Int.not_le.mp large
  unfold ripok at fine
  dsimp only at fine
  split_ifs at fine

end Entries

/-! ## Paths -/

section Paths

variable {Router : Type*} {setting : Setting Router} {router : Router}
  {net : IPaddr} {metric : Nat}

/-- A router is told of a network at this distance. -/
inductive Reached (setting : Setting Router) : Router → IPaddr → Nat → Prop where
  | own {router : Router} {net : IPaddr} {metric : Nat}
      (own : setting.configured router net metric = true) : Reached setting router net metric
  | heard {router neighbour : Router} {net : IPaddr} {metric : Nat}
      (carries : setting.carries neighbour router = true)
      (told : Reached setting neighbour net metric) : Reached setting router net (metric + 1)

/-- The routers from the first one on, each carried to by the next, the last with the network
configured. -/
def Leads (setting : Setting Router) (router : Router) (path : List Router) (net : IPaddr)
    (metric : Nat) : Prop :=
  (router :: path).IsChain (fun near far => setting.carries far near = true) ∧
    ∃ own, setting.configured ((router :: path).getLast (List.cons_ne_nil _ _)) net own = true ∧
      metric = own + path.length

theorem Leads.cons {neighbour : Router} {path : List Router}
    (leads : Leads setting neighbour path net metric)
    (carries : setting.carries neighbour router = true) :
    Leads setting router (neighbour :: path) net (metric + 1) := by
  obtain ⟨chain, own, configured, length⟩ := leads
  refine ⟨List.isChain_cons_cons.mpr ⟨carries, chain⟩, own, ?_, ?_⟩
  · rw [List.getLast_cons (List.cons_ne_nil _ _)]
    exact configured
  · rw [length, List.length_cons, Nat.add_assoc]

theorem Reached.leads (reached : Reached setting router net metric) :
    ∃ path, Leads setting router path net metric := by
  induction reached with
  | @own router net metric own => exact ⟨[], List.IsChain.singleton _, metric, own, rfl⟩
  | @heard router neighbour net metric carries _ ih =>
      obtain ⟨path, leads⟩ := ih
      exact ⟨neighbour :: path, leads.cons carries⟩

/-- An entry of a datagram is one hop longer than the route that it was made for. -/
structure Truthful (setting : Setting Router) (sender : Router) (rp : Riprt) : Prop where
  small : rp.rrMetric.toNat ≤ 2 ^ 16
  told : rp.rrMetric.toNat < rtmInf →
    ∃ metric, rp.rrMetric.toNat = metric + 1 ∧ Reached setting sender (netnum rp.rrIpa) metric

/-- A finite route is configured, or a neighbour told of it. -/
def Backed (setting : Setting Router) (router : Router) (prt : Route) : Prop :=
  prt.rtMetric < rtmInf →
    setting.configured router (netnum prt.rtNet) prt.rtMetric = true ∨
      ∃ neighbour ifnum metric, setting.carries neighbour router = true ∧
        prt.rtGw = setting.address neighbour ifnum ∧ prt.rtMetric = metric + 1 ∧
          Reached setting neighbour (netnum prt.rtNet) metric

theorem Backed.reached {prt : Route} (backed : Backed setting router prt)
    (finite : prt.rtMetric < rtmInf) :
    Reached setting router (netnum prt.rtNet) prt.rtMetric := by
  rcases backed finite with configured | ⟨neighbour, _, metric, carries, _, length, told⟩
  · exact .own configured
  · rw [length]
    exact .heard carries told

structure HostSound (setting : Setting Router) (router : Router) (host : RipHost) : Prop where
  small : ∀ prt, Listed host.route prt → prt.rtMetric < 2 ^ 16
  backed : ∀ prt, Listed host.route prt → Backed setting router prt
  learning : ∀ learning ∈ host.learning, ∃ neighbour ifnum,
    setting.carries neighbour router = true ∧
      learning.gw = setting.address neighbour ifnum ∧
        ∀ rp ∈ learning.rest, Truthful setting neighbour rp

structure Sound (setting : Setting Router) (s : System Router) : Prop where
  host : ∀ router, HostSound setting router (s.host router)
  sent : ∀ datagram ∈ s.sent, datagram.port = upRip → ∀ place < nrts datagram.len,
    Truthful setting datagram.sender (datagram.rip.ripRts place)

theorem start_host (router : Router) : HostSound setting router {} where
  small := by
    rintro prt (⟨_, member⟩ | top)
    · cases member
    · cases top
  backed := by
    rintro prt (⟨_, member⟩ | top)
    · cases member
    · cases top
  learning := by
    intro learning member
    cases member

theorem start_sound : Sound setting ({} : System Router) where
  host := start_host
  sent := by
    intro datagram member
    cases member

/-- What a router advertises is one hop longer than what it has. -/
theorem HostSound.advertised {host : RipHost} (sound : HostSound setting router host)
    {pni : RipIf} {ifnum : Nat} {rp : Riprt}
    (member : rp ∈ advertised pni ifnum (ripRoutes host.route)) : Truthful setting router rp := by
  obtain ⟨prt, walked, made⟩ := List.mem_filterMap.mp member
  obtain ⟨metric, valued, rfl⟩ := Option.map_eq_some_iff.mp made
  have listed := ripRoutes_listed walked
  have small := sound.small prt listed
  unfold ripmetric at valued
  split_ifs at valued
  · cases Option.some.inj valued
    have poisoned := riprtFor_metric pni prt (show ripInfinity < 2 ^ 32 by decide)
    refine ⟨?_, ?_⟩
    · rw [poisoned]
      decide
    · intro finite
      rw [poisoned] at finite
      cases finite.ne rfl
  · cases Option.some.inj valued
    have word := riprtFor_metric pni prt (show prt.rtMetric + 1 < 2 ^ 32 by omega)
    refine ⟨?_, ?_⟩
    · rw [word]
      exact small
    · intro finite
      rw [word] at finite ⊢
      rw [riprtFor_netnum]
      exact ⟨_, rfl, (sound.backed prt listed).reached (Nat.lt_of_succ_lt finite)⟩

end Paths

/-! ## Steps -/

section Steps

variable {Router : Type*} {setting : Setting Router} {s : System Router} {router : Router}
  {host : RipHost}

theorem Sound.update (sound : Sound setting s) (router : Router) {sends : List Sent}
    {gw : IPaddr} {port : BitVec 16}
    (update : ripsend (setting.nif router) (s.host router).route gw port = some sends) :
    Sound setting (s.send router (some sends)) where
  host := sound.host
  sent := by
    intro datagram member rip place inside
    rcases List.mem_append.mp member with old | new
    · exact sound.sent datagram old rip place inside
    · obtain ⟨sent, listed, made⟩ := List.mem_filterMap.mp new
      obtain ⟨filled, pep, rfl⟩ := Option.map_eq_some_iff.mp made
      obtain ⟨pni, entry⟩ := ripsend_entries update listed pep inside
      exact (sound.host router).advertised entry

theorem Sound.nothing (sound : Sound setting s) (router : Router) :
    Sound setting (s.send router none) where
  host := sound.host
  sent := by
    intro datagram member
    unfold System.send datagrams at member
    rw [Option.getD_none, List.filterMap_nil, List.append_nil] at member
    exact sound.sent datagram member

/-- The answer to a request for single routes does not go to a RIP process. -/
theorem Sound.answer (sound : Sound setting s) (router : Router) {gram : Xgram} {len : Word}
    (asked : wantsAll gram.xgData len = true ∨ gram.xgFport ≠ upRip) :
    Sound setting (s.send router (answer setting s router gram len)) := by
  unfold Rip.answer
  dsimp only
  split_ifs
  · exact sound.nothing router
  · cases ripturn (setting.gateway router) gram len with
    | passes => exact sound.nothing router
    | riprecv => exact sound.nothing router
    | riprepl =>
        dsimp only
        cases replied : riprepl (setting.nif router) (s.host router).route gram.xgData len
            gram.xgFip gram.xgFport with
        | none => exact sound.nothing router
        | some sends =>
            unfold riprepl at replied
            split_ifs at replied with all
            · exact sound.update router replied
            · have other := asked.resolve_left all
              refine ⟨sound.host, ?_⟩
              intro datagram member rip
              rcases List.mem_append.mp member with old | new
              · exact sound.sent datagram old rip
              · obtain ⟨prt, _, rfl⟩ := Option.map_eq_some_iff.mp replied
                obtain ⟨sent, listed, made⟩ := List.mem_filterMap.mp new
                obtain ⟨filled, _, rfl⟩ := Option.map_eq_some_iff.mp made
                rw [List.mem_singleton.mp listed] at rip
                exact absurd rip other

theorem rtadd_sound {net mask gw : IPaddr} {metric : Nat} (sound : HostSound setting router host)
    (dorip : Bool) (intf ttl : Nat)
    (backed : ∀ prt : Route, prt.rtNet = net → prt.rtGw = gw → prt.rtMetric = metric % 2 ^ 16 →
      Backed setting router prt) :
    HostSound setting router
      { host with route := (rtadd dorip host.route net mask gw metric intf ttl).1 } where
  small := by
    intro prt listed
    rcases rtadd_listed listed with old | ⟨_, _, cut⟩
    · exact sound.small prt old
    · rw [cut]
      exact Nat.mod_lt _ (by decide)
  backed := by
    intro prt listed
    rcases rtadd_listed listed with old | ⟨net, gw, cut⟩
    · exact sound.backed prt old
    · exact backed prt net gw cut
  learning := sound.learning

/-- A route of a neighbour is entered with the metric that the neighbour sent. -/
theorem learn_sound (nif : List RipIf) (sound : HostSound setting router host) {gw : IPaddr}
    (ifnum : Nat) {rp : Riprt} {neighbour : Router} {out : Nat}
    (carries : setting.carries neighbour router = true)
    (source : gw = setting.address neighbour out) (truthful : Truthful setting neighbour rp) :
    HostSound setting router
      { host with route := (learn nif host.dorip gw ifnum host.route rp).1 } := by
  unfold learn
  split_ifs with fine
  · apply rtadd_sound sound
    intro prt net gateway cut finite
    have small := truthful.small
    have bound := ripok_metric fine
    have word : rp.rrMetric.toNat % 2 ^ 16 = rp.rrMetric.toNat := by
      apply Nat.mod_eq_of_lt
      rw [BitVec.toInt_eq_toNat_of_lt (by omega)] at bound
      unfold ripInfinity at bound
      omega
    rw [word] at cut
    rw [cut] at finite
    obtain ⟨metric, length, told⟩ := truthful.told finite
    exact Or.inr ⟨neighbour, out, metric, carries, gateway.trans source, cut.trans length,
      net ▸ told⟩
  · exact sound

theorem goOn_sound (nif : List RipIf) (sound : HostSound setting router host) :
    HostSound setting router (goOn nif host) := by
  unfold goOn
  cases loop : host.learning with
  | none => exact sound
  | some learning =>
      obtain ⟨neighbour, out, carries, source, truthful⟩ := sound.learning learning loop
      obtain ⟨gw, ifnum, rest⟩ := learning
      cases rest with
      | nil =>
          refine ⟨sound.small, sound.backed, ?_⟩
          intro learning member
          cases member
      | cons rp rest =>
          have learned := learn_sound nif sound ifnum carries source
            (truthful rp List.mem_cons_self)
          refine ⟨learned.small, learned.backed, ?_⟩
          intro later member
          rw [← Option.some.inj member]
          exact ⟨neighbour, out, carries, source,
            fun other inside => truthful other (List.mem_cons_of_mem _ inside)⟩

theorem hear_sound (sound : HostSound setting router host) {datagram : Datagram Router}
    (carries : setting.carries datagram.sender router = true)
    (truthful : ∀ place < nrts datagram.len,
      Truthful setting datagram.sender (datagram.rip.ripRts place)) :
    HostSound setting router (hear setting router host datagram) := by
  unfold hear
  dsimp only
  split_ifs
  · exact sound
  · cases ripturn (setting.gateway router) (arrived setting datagram) datagram.len with
    | passes => exact sound
    | riprepl => exact sound
    | riprecv =>
        refine ⟨sound.small, sound.backed, ?_⟩
        intro learning member
        obtain ⟨prt, _, rfl⟩ := Option.map_eq_some_iff.mp (Option.mem_def.mp member)
        refine ⟨datagram.sender, datagram.ifnum, carries, rfl, ?_⟩
        intro rp inside
        obtain ⟨place, listed, rfl⟩ := List.mem_map.mp inside
        exact truthful place (List.mem_range.mp listed)

theorem rttimer_sound (sound : HostSound setting router host) (dorip : Bool) (delta : Nat) :
    HostSound setting router { host with route := rttimer dorip host.route delta } where
  small := by
    intro prt listed
    obtain ⟨before, there, _, _, same | infinite⟩ := rttimer_listed listed
    · rw [same]
      exact sound.small before there
    · rw [infinite]
      decide
  backed := by
    intro prt listed finite
    obtain ⟨before, there, net, gw, same | infinite⟩ := rttimer_listed listed
    · rw [same] at finite
      rw [net, gw, same]
      exact sound.backed before there finite
    · exact absurd infinite finite.ne
  learning := sound.learning

theorem rtdel_sound (sound : HostSound setting router host) (net mask : IPaddr) :
    HostSound setting router { host with route := (rtdel host.route net mask).2 } where
  small := fun prt listed => sound.small prt (rtdel_listed listed)
  backed := fun prt listed => sound.backed prt (rtdel_listed listed)
  learning := sound.learning

variable [DecidableEq Router]

theorem Sound.set (sound : Sound setting s) (own : HostSound setting router host) :
    Sound setting (s.set router host) where
  host := by
    intro other
    unfold System.set
    dsimp only
    by_cases same : other = router
    · subst same
      rw [Function.update_self]
      exact own
    · rw [Function.update_of_ne same]
      exact sound.host other
  sent := sound.sent

theorem step_sound (event : Event Router) (sound : Sound setting s)
    (allowed : Allowed setting s event = true) : Sound setting (step setting s event) := by
  cases event with
  | begins router =>
      have own := sound.host router
      exact sound.set ⟨own.small, own.backed, own.learning⟩
  | ripout router =>
      unfold step Rip.update
      dsimp only
      split_ifs
      · cases sends : ripsend (setting.nif router) (s.host router).route ipMaskall upRip with
        | none => exact sound.nothing router
        | some sends => exact sound.update router ‹_›
      · exact sound.nothing router
  | read router index =>
      unfold step
      dsimp only
      cases found : s.sent[index]? with
      | none => exact sound
      | some datagram =>
          unfold Allowed at allowed
          dsimp only at allowed
          rw [found, Option.all_some, Bool.and_eq_true] at allowed
          exact sound.set (hear_sound (sound.host router) allowed.2
            (sound.sent datagram (List.mem_of_getElem? found) (beq_iff_eq.mp allowed.1)))
  | ask router gram len =>
      unfold Allowed at allowed
      dsimp only at allowed
      rw [Bool.and_eq_true, Bool.and_eq_true, Bool.or_eq_true] at allowed
      refine sound.answer router (allowed.1.2.imp_right ?_)
      exact bne_iff_ne.mp
  | turn router => exact sound.set (goOn_sound _ (sound.host router))
  | rtadd router net mask gw metric intf ttl =>
      refine sound.set (rtadd_sound (sound.host router) _ intf ttl ?_)
      intro prt same _ cut _
      rw [same, cut]
      exact Or.inl allowed
  | rtdel router net mask => exact sound.set (rtdel_sound (sound.host router) net mask)
  | rttimer router delta => exact sound.set (rttimer_sound (sound.host router) _ delta)

end Steps

/-- Three routers in a line, the first with the network 10.0.0.0. -/
def lineIf (third host : Nat) : RipIf where
  niBrc := BitVec.ofNat 32 (0xc0a800ff + 256 * third)
  niNbrc := BitVec.ofNat 32 (0xc0a800ff + 256 * third)
  niSubnet := BitVec.ofNat 32 (0xc0a80000 + 256 * third)
  niNet := BitVec.ofNat 32 (0xc0a80000 + 256 * third)
  niIp := BitVec.ofNat 32 (0xc0a80000 + 256 * third + host)
  niMask := 0xffffff00
  niIvalid := true
  niSvalid := true
  niUp := true

def line : Setting (Fin 3) where
  nif := fun router =>
    [{ lineIf 0 0 with niUp := false }, lineIf router 2, lineIf (router + 1) 1]
  gateway := fun _ => true
  address := fun router ifnum =>
    BitVec.ofNat 32 (if ifnum = 1 then 0xc0a80002 + 256 * router else 0xc0a80101 + 256 * router)
  carries := fun far near => far.val + 1 == near.val || near.val + 1 == far.val
  configured := fun router net metric => metric == 0 &&
    (net == 0x0a000000 && router == 0 || net == BitVec.ofNat 32 (0xc0a80000 + 256 * router) ||
      net == BitVec.ofNat 32 (0xc0a80100 + 256 * router))

def lineRun : List (Event (Fin 3)) :=
  [.rtadd 0 0x0a000000 0xff000000 0x0a000001 0 1 999,
    .rtadd 0 0xc0a80100 0xffffff00 0xc0a80101 0 2 999,
    .rtadd 1 0xc0a80100 0xffffff00 0xc0a80102 0 1 999,
    .rtadd 1 0xc0a80200 0xffffff00 0xc0a80201 0 2 999,
    .rtadd 2 0xc0a80200 0xffffff00 0xc0a80202 0 1 999,
    .begins 0, .ripout 0, .read 1 1, .turn 1, .turn 1, .turn 1,
    .begins 1, .ripout 1, .read 2 3, .turn 2, .turn 2, .turn 2, .turn 2]

end MvsXinu.Rip
