import MvsXinu.Rip.Responses

/-!
# The packets of an update

On each interface the routes that are advertised are packed in the order of the table. What a
receiver reads out of the packets are these routes again, as far as `MAXNRIP` packets have room
for them; for each route more the update sends from one place more behind `rq_pep`.
-/

namespace MvsXinu.Rip

open MvsXinu.Routing hiding chainIn rtadd ageRoute ageDefault rttimer
open MvsXinu.Packing

set_option autoImplicit false

section Loading

variable {pni : RipIf} {ifnum : Nat} {prt : Route} {entries : List Riprt} {prq : Rq}

/-- The part of `advertised` that is for one route. -/
def entryFor (pni : RipIf) (ifnum : Nat) (prt : Route) : Option Riprt :=
  (ripmetric prt ifnum).map (riprtFor pni prt)

theorem modify_last {Item : Type*} (front : List Item) (item : Item) (change : Item → Item) :
    (front ++ [item]).modify front.length change = front ++ [change item] :=
  List.modifyTailIdx_add _ 0 front [item]

theorem ripRoom_eq : ripRoom = 125 := rfl

theorem Loaded.places (loaded : Loaded entries prq) :
    prq.places = prq.rqPep.map some ++ List.replicate (entries.length - ripRoom) none := by
  have cur := loaded.cur
  generalize entries.length - ripRoom = past at cur ⊢
  have count : (prq.rqCur + 1).toNat = prq.rqPep.length + past := by omega
  unfold Rq.places
  rw [count, List.range_add, List.map_append, List.map_map]
  congr 1
  · apply List.ext_getElem?
    intro place
    rw [List.getElem?_map, List.getElem?_map]
    by_cases inside : place < prq.rqPep.length <;> simp [inside]
  · apply List.eq_replicate_iff.mpr
    constructor
    · simp
    · intro pep member
      obtain ⟨place, _, rfl⟩ := List.mem_map.mp member
      simp

/-- An update starts with no packet. -/
theorem loaded_nil (ip : IPaddr) (port : BitVec 16) :
    Loaded []
      { rqActive := true, rqIp := ip, rqPort := port, rqPep := [], rqCur := -1,
        rqNrts := maxriproutes } where
  active := rfl
  packed := packed_nil maxriproutes
  formed := by simp
  cur := rfl
  nrts := rfl

/-- With no room left the last packet is full, too. -/
theorem Loaded.past (loaded : Loaded entries prq) (full : ripRoom ≤ entries.length) :
    prq.rqPep.length = maxnrip ∧ prq.rqNrts = maxriproutes := by
  have size : (entries.take ripRoom).length = 125 := by
    rw [List.length_take]
    exact Nat.min_eq_left full
  have packed := loaded.packed
  have nrts := loaded.nrts
  rcases List.eq_nil_or_concat prq.rqPep with none | ⟨front, last, split⟩
  · rw [none] at packed
    rw [← packed.flat] at size
    cases size
  · rw [List.concat_eq_append] at split
    rw [split, List.map_append, List.map_singleton] at packed
    have length := packed.length
    obtain ⟨nonempty, within⟩ := packed.filled last.routes (by simp)
    have positive := List.length_pos_iff.mpr nonempty
    rw [size, List.length_map] at length
    rw [split, List.getLast?_concat] at nrts
    simp only [maxriproutes, Option.map_some, Option.getD_some] at within length nrts
    rw [split, List.length_append, List.length_singleton]
    unfold maxnrip maxriproutes
    omega

theorem Loaded.entry (loaded : Loaded entries prq) {filled : Filled}
    (member : filled ∈ prq.rqPep) {entry : Riprt} (inside : entry ∈ filled.routes) :
    entry ∈ entries := by
  apply List.mem_of_mem_take
  rw [← loaded.packed.flat]
  exact List.mem_flatten.mpr ⟨_, List.mem_map_of_mem member, inside⟩

/-- A packet that is started or has room takes the entry of a route. -/
theorem Loaded.fill {front : List Filled} {last : Filled} (loaded : Loaded entries prq)
    (split : prq.rqPep = front ++ [last]) (few : entries.length < ripRoom)
    (room : last.routes.length < maxriproutes) (entry : Riprt) :
    Loaded (entries ++ [entry]) (prq.fill entry) := by
  have cur := loaded.cur
  have packed := loaded.packed
  rw [List.take_of_length_le few.le, split, List.map_append] at packed
  rw [split, List.length_append, List.length_singleton, Nat.sub_eq_zero_of_le few.le] at cur
  have place : prq.rqCur.toNat = front.length := by omega
  have filled : (prq.fill entry).rqPep =
      front ++ [{ last with routes := last.routes ++ [entry], len := last.len + riprtSize }] := by
    simp only [Rq.fill, place, split]
    exact modify_last front last _
  have more : (entries ++ [entry]).length ≤ ripRoom := by
    rw [List.length_append, List.length_singleton]
    exact few
  refine ⟨loaded.active, ?_, ?_, ?_, ?_⟩
  · rw [List.take_of_length_le more, filled, List.map_append]
    exact packed.fill room entry
  · intro other member
    rw [filled] at member
    rcases List.mem_append.mp member with old | new
    · exact loaded.formed other (split ▸ List.mem_append_left _ old)
    · have formed := loaded.formed last (split ▸ List.mem_append_right _ List.mem_cons_self)
      rw [List.mem_singleton.mp new]
      refine ⟨formed.header, ?_⟩
      rw [formed.len, List.length_append, List.length_singleton, Nat.add_mul, Nat.one_mul,
        Nat.add_assoc]
  · rw [filled, List.length_append, List.length_singleton, Nat.sub_eq_zero_of_le more]
    exact cur
  · have nrts := loaded.nrts
    rw [split, List.getLast?_concat] at nrts
    rw [filled, List.getLast?_concat]
    simp only [Rq.fill, nrts, Option.map_some, Option.getD_some, List.length_append,
      List.length_singleton]

/-- When the last packet is full, all of them are. -/
theorem Loaded.full {front : List Filled} {last : Filled} (loaded : Loaded entries prq)
    (split : prq.rqPep = front ++ [last]) (closed : maxriproutes ≤ last.routes.length) :
    ∀ filled ∈ prq.rqPep, filled.routes.length = maxriproutes := by
  have packed := loaded.packed
  rw [split, List.map_append, List.map_singleton] at packed
  have within := (packed.filled last.routes (by simp)).2
  have full := packed.full
  rw [List.dropLast_concat] at full
  intro filled member
  rw [split] at member
  rcases List.mem_append.mp member with old | top
  · exact full _ (List.mem_map_of_mem old)
  · rw [List.mem_singleton.mp top]
    exact Nat.le_antisymm within closed

theorem Loaded.room (loaded : Loaded entries prq) (few : entries.length < ripRoom)
    (full : ∀ filled ∈ prq.rqPep, filled.routes.length = maxriproutes) :
    prq.rqPep.length < maxnrip := by
  have packed := loaded.packed
  rw [List.take_of_length_le few.le] at packed
  rw [ripRoom_eq] at few
  rcases List.eq_nil_or_concat prq.rqPep with none | ⟨front, last, split⟩
  · rw [none]
    decide
  · rw [List.concat_eq_append] at split
    rw [split] at packed full
    rw [List.map_append, List.map_singleton] at packed
    have length := packed.length
    have top := full last (List.mem_append_right _ List.mem_cons_self)
    rw [List.length_map, top] at length
    rw [split, List.length_append, List.length_singleton]
    simp only [maxriproutes, maxnrip] at length ⊢
    omega

/-- Behind packets that are full a new one is started with the entry. -/
theorem Loaded.start (loaded : Loaded entries prq) (few : entries.length < ripRoom)
    (full : ∀ filled ∈ prq.rqPep, filled.routes.length = maxriproutes) (entry : Riprt) :
    ∃ started, ripstart prq = (true, started) ∧
      Loaded (entries ++ [entry]) (started.fill entry) := by
  have cur := loaded.cur
  have packed := loaded.packed
  have room := loaded.room few full
  rw [List.take_of_length_le few.le] at packed
  rw [Nat.sub_eq_zero_of_le few.le] at cur
  have inside : ¬ (maxnrip : Int) ≤ prq.rqCur + 1 := by omega
  have more : (entries ++ [entry]).length ≤ ripRoom := by
    rw [List.length_append, List.length_singleton]
    exact few
  refine ⟨_, if_neg inside, ?_⟩
  have place : (prq.rqCur + 1).toNat = prq.rqPep.length := by omega
  have filled : (Rq.fill { prq with
      rqCur := prq.rqCur + 1, rqNrts := 0, rqPep := prq.rqPep ++ [Filled.blank] } entry).rqPep =
      prq.rqPep ++ [{ Filled.blank with routes := [entry], len := ripHsize + riprtSize }] := by
    simp only [Rq.fill, place]
    exact modify_last prq.rqPep _ _
  refine ⟨loaded.active, ?_, ?_, ?_, ?_⟩
  · rw [List.take_of_length_le more, filled, List.map_append]
    refine packed.start (by decide) ?_ entry
    intro box member
    obtain ⟨other, inside, rfl⟩ := List.mem_map.mp member
    exact full other inside
  · intro other member
    rw [filled] at member
    rcases List.mem_append.mp member with old | new
    · exact loaded.formed other old
    · rw [List.mem_singleton.mp new]
      exact ⟨rfl, rfl⟩
  · rw [filled, List.length_append, List.length_singleton, Nat.sub_eq_zero_of_le more]
    simp only [Rq.fill]
    omega
  · rw [filled, List.getLast?_concat]
    rfl

/-- With no room left nothing is put anywhere. -/
theorem Loaded.overrun (loaded : Loaded entries prq) (full : ripRoom ≤ entries.length)
    (entry : Riprt) :
    ∃ counted, ripstart prq = (false, counted) ∧ Loaded (entries ++ [entry]) counted := by
  obtain ⟨packets, _⟩ := loaded.past full
  have cur := loaded.cur
  have outside : (maxnrip : Int) ≤ prq.rqCur + 1 := by omega
  refine ⟨_, if_pos outside, loaded.active, ?_, loaded.formed, ?_, loaded.nrts⟩
  · rw [List.take_append_of_le_length full]
    exact loaded.packed
  · rw [List.length_append, List.length_singleton]
    simp only
    omega

/-- A route is put into the packets of an interface, or is not for it. -/
theorem Loaded.ripadd (loaded : Loaded entries prq) (up : pni.niUp = true) (prt : Route) :
    Loaded (entries ++ (entryFor pni ifnum prt).toList) (ripaddOn pni ifnum prq prt) := by
  unfold ripaddOn entryFor
  rw [if_neg (by simp [loaded.active, up])]
  cases ripmetric prt ifnum with
  | none =>
      rw [Option.map_none, Option.toList_none, List.append_nil]
      exact loaded
  | some metric =>
      simp only [Option.map_some, Option.toList_some]
      by_cases few : entries.length < ripRoom
      · have nrts := loaded.nrts
        rcases List.eq_nil_or_concat prq.rqPep with none | ⟨front, last, split⟩
        · rw [none, List.getLast?_nil, Option.map_none, Option.getD_none] at nrts
          obtain ⟨started, opened, after⟩ :=
            loaded.start few (by simp [none]) (riprtFor pni prt metric)
          rw [if_pos nrts.ge, opened]
          exact after
        · rw [List.concat_eq_append] at split
          rw [split, List.getLast?_concat, Option.map_some, Option.getD_some] at nrts
          by_cases closed : maxriproutes ≤ prq.rqNrts
          · obtain ⟨started, opened, after⟩ := loaded.start few (loaded.full split (nrts ▸ closed))
              (riprtFor pni prt metric)
            rw [if_pos closed, opened]
            exact after
          · rw [if_neg closed]
            rw [nrts] at closed
            exact loaded.fill split few (Nat.not_le.mp closed) (riprtFor pni prt metric)
      · obtain ⟨_, last⟩ := loaded.past (Nat.not_lt.mp few)
        obtain ⟨counted, started, after⟩ :=
          loaded.overrun (Nat.not_lt.mp few) (riprtFor pni prt metric)
        rw [if_pos last.ge, started]
        exact after

theorem ripaddOn_kept (pni : RipIf) (ifnum : Nat) (prq : Rq) (prt : Route) :
    (ripaddOn pni ifnum prq prt).rqIp = prq.rqIp ∧
      (ripaddOn pni ifnum prq prt).rqPort = prq.rqPort := by
  have started : (ripstart prq).2.rqIp = prq.rqIp ∧ (ripstart prq).2.rqPort = prq.rqPort := by
    unfold ripstart
    dsimp only
    split_ifs
    · exact ⟨rfl, rfl⟩
    · exact ⟨rfl, rfl⟩
  unfold ripaddOn
  split_ifs
  · exact ⟨rfl, rfl⟩
  · cases ripmetric prt ifnum with
    | none => exact ⟨rfl, rfl⟩
    | some metric =>
        rcases opened : ripstart prq with ⟨_ | _, after⟩
        · rw [opened] at started
          exact started
        · rw [opened] at started
          exact started
  · cases ripmetric prt ifnum with
    | none => exact ⟨rfl, rfl⟩
    | some metric => exact ⟨rfl, rfl⟩

theorem walk_kept (pni : RipIf) (ifnum : Nat) (routes : List Route) :
    ∀ prq : Rq, (routes.foldl (ripaddOn pni ifnum) prq).rqIp = prq.rqIp ∧
      (routes.foldl (ripaddOn pni ifnum) prq).rqPort = prq.rqPort := by
  induction routes with
  | nil =>
      intro prq
      exact ⟨rfl, rfl⟩
  | cons prt rest ih =>
      intro prq
      obtain ⟨ip, port⟩ := ripaddOn_kept pni ifnum prq prt
      obtain ⟨restIp, restPort⟩ := ih (ripaddOn pni ifnum prq prt)
      exact ⟨restIp.trans ip, restPort.trans port⟩

theorem advertised_cons (prt : Route) (routes : List Route) :
    advertised pni ifnum (prt :: routes) =
      (entryFor pni ifnum prt).toList ++ advertised pni ifnum routes := by
  unfold advertised entryFor
  rw [List.filterMap_cons]
  cases ripmetric prt ifnum <;> rfl

theorem Loaded.walk (routes : List Route) (up : pni.niUp = true) :
    ∀ {entries : List Riprt} {prq : Rq}, Loaded entries prq →
      Loaded (entries ++ advertised pni ifnum routes)
        (routes.foldl (ripaddOn pni ifnum) prq) := by
  induction routes with
  | nil =>
      intro entries prq loaded
      rw [advertised, List.filterMap_nil, List.append_nil]
      exact loaded
  | cons prt rest ih =>
      intro entries prq loaded
      rw [advertised_cons, ← List.append_assoc]
      exact ih (loaded.ripadd up prt)

end Loading

section Sending

variable {nif : List RipIf} {pni : RipIf} {ifnum : Nat} {table : RouteTable}

theorem walk_on (found : nif[ifnum]? = some pni) (routes : List Route) :
    ∀ rqinfo : Nat → Rq, routes.foldl (ripadd nif) rqinfo ifnum =
      routes.foldl (ripaddOn pni ifnum) (rqinfo ifnum) := by
  induction routes with
  | nil =>
      intro rqinfo
      rfl
  | cons prt rest ih =>
      intro rqinfo
      rw [List.foldl_cons, ih, List.foldl_cons]
      simp only [ripadd, found]

/-- What is collected for each index in turn, with the index on it, is taken apart by it. -/
theorem filter_flatMap_range {Item : Type*} (index : Item → Nat) (items : Nat → List Item)
    (own : ∀ place, ∀ item ∈ items place, index item = place) {place : Nat} :
    ∀ {count : Nat}, place < count →
      ((List.range count).flatMap items).filter (fun item => index item == place) = items place := by
  intro count
  induction count with
  | zero =>
      intro inside
      cases inside
  | succ count ih =>
      intro inside
      have others : ∀ other, other ≠ place →
          (items other).filter (fun item => index item == place) = [] := by
        intro other apart
        rw [List.filter_eq_nil_iff]
        intro item member same
        exact apart ((own other item member).symm.trans (beq_iff_eq.mp same))
      have mine : (items place).filter (fun item => index item == place) = items place := by
        rw [List.filter_eq_self]
        intro item member
        exact beq_iff_eq.mpr (own place item member)
      rw [List.range_succ, List.flatMap_append, List.filter_append, List.flatMap_singleton]
      rcases Nat.lt_succ_iff_lt_or_eq.mp inside with before | rfl
      · rw [ih before, others count (Nat.ne_of_gt before), List.append_nil]
      · have earlier : ((List.range place).flatMap items).filter
            (fun item => index item == place) = [] := by
          rw [List.filter_eq_nil_iff]
          intro item member same
          obtain ⟨other, listed, there⟩ := List.mem_flatMap.mp member
          rw [own other item there] at same
          exact (List.mem_range.mp listed).ne (beq_iff_eq.mp same)
        rw [earlier, mine, List.nil_append]

/-- An update goes out by the interface, to the address. -/
def Targets (nif : List RipIf) (table : RouteTable) (gw : IPaddr) (ifnum : Nat) (pni : RipIf)
    (ip : IPaddr) : Prop :=
  ifnum ≠ niLocal ∧
    if gw = ipMaskall then ip = pni.niBrc
    else ip = gw ∧ ∃ prt ∈ rtget (netifs nif) table gw true, prt.rtIfnum = ifnum

theorem ripifset_spec {gw ip : IPaddr} (found : nif[ifnum]? = some pni)
    (target : Targets nif table gw ifnum pni ip) (port : BitVec 16) :
    ∃ rqinfo, ripifset nif table gw port = some rqinfo ∧ rqinfo ifnum =
      { rqActive := true, rqIp := ip, rqPort := port, rqPep := [], rqCur := -1,
        rqNrts := maxriproutes } := by
  obtain ⟨outward, target⟩ := target
  unfold ripifset
  dsimp only
  split_ifs at target with everyone
  · rw [if_neg (not_not.mpr everyone)]
    refine ⟨_, rfl, ?_⟩
    rw [if_neg outward, found, target]
    rfl
  · obtain ⟨rfl, prt, listed, rfl⟩ := target
    rw [if_pos everyone, Option.mem_def.mp listed]
    dsimp only
    rw [if_neg outward]
    exact ⟨_, rfl, Function.update_self _ _ _⟩

theorem advertised_zeroed {routes : List Route} {entry : Riprt}
    (member : entry ∈ advertised pni ifnum routes) : entry.zeroed = true := by
  obtain ⟨prt, _, made⟩ := List.mem_filterMap.mp member
  obtain ⟨metric, _, rfl⟩ := Option.map_eq_some_iff.mp made
  rfl

/-- A packet says how many routes are in it. -/
theorem Filled.Formed.nrts {filled : Filled} (formed : filled.Formed)
    (room : filled.routes.length ≤ maxriproutes) :
    nrts (BitVec.ofNat 32 filled.len) = filled.routes.length := by
  unfold maxriproutes at room
  unfold Rip.nrts
  rw [formed.len, BitVec.toNat_sub, BitVec.toNat_ofNat, BitVec.toNat_ofNat]
  unfold ripHsize riprtSize
  omega

/-- A receiver reads the routes of a packet out of it. -/
theorem Filled.Formed.read {filled : Filled} (formed : filled.Formed)
    (room : filled.routes.length ≤ maxriproutes) :
    (List.range (Rip.nrts (BitVec.ofNat 32 filled.len))).map filled.rip.ripRts = filled.routes := by
  rw [formed.nrts room]
  apply List.ext_getElem
  · simp
  · intro place before inside
    rw [List.getElem_map, List.getElem_range]
    simp only [Filled.rip, List.getD_eq_getElem?_getD, List.getElem?_eq_getElem inside,
      Option.getD_some]

theorem Filled.Formed.check {filled : Filled} (formed : filled.Formed)
    (room : filled.routes.length ≤ maxriproutes)
    (zeroed : ∀ entry ∈ filled.routes, entry.zeroed = true) :
    ripcheck filled.rip (BitVec.ofNat 32 filled.len) = true := by
  have header := formed.header
  have first : filled.rip.ripVers = 1 := congrArg (fun fields => fields.2.1) header
  have empty : filled.rip.ripMbz = 0 := congrArg (fun fields => fields.2.2) header
  unfold ripcheck
  rw [first, if_neg (by decide), if_pos rfl, empty, Bool.and_eq_true]
  refine ⟨rfl, List.all_eq_true.mpr ?_⟩
  intro place listed
  have member : filled.rip.ripRts place ∈ filled.routes := by
    rw [← formed.read room]
    exact List.mem_map_of_mem listed
  exact zeroed _ member

/-- On every interface that is up an update sends the routes that it advertises there, in the
order of the table and in packets that are full but for the last one. The receiver accepts each
packet and reads these routes out of it. For each route over `ripRoom` there is a call of
`udpsend` with what lies behind `rq_pep`. -/
theorem update_packed (found : nif[ifnum]? = some pni) (up : pni.niUp = true) {gw ip : IPaddr}
    (target : Targets nif table gw ifnum pni ip) (port : BitVec 16) :
    ∃ (sends : List Sent) (packets : List Filled), ripsend nif table gw port = some sends ∧
      sends.filter (fun sent => sent.ifnum == ifnum) =
        (packets.map some ++
          List.replicate ((advertised pni ifnum (ripRoutes table)).length - ripRoom) none).map
            (fun pep => { ifnum := ifnum, ip := ip, port := port, pep := pep }) ∧
      Packed maxriproutes ((advertised pni ifnum (ripRoutes table)).take ripRoom)
        (packets.map Filled.routes) ∧
      ∀ filled ∈ packets, ripcheck filled.rip (BitVec.ofNat 32 filled.len) = true ∧
        filled.rip.ripCmd = ripResponse ∧
        (List.range (nrts (BitVec.ofNat 32 filled.len))).map filled.rip.ripRts =
          filled.routes := by
  obtain ⟨rqinfo, set, fresh⟩ := ripifset_spec found target port
  have loaded : Loaded (advertised pni ifnum (ripRoutes table))
      ((ripRoutes table).foldl (ripadd nif) rqinfo ifnum) := by
    have walked := @Loaded.walk pni ifnum (ripRoutes table) up [] _ (loaded_nil ip port)
    rw [List.nil_append] at walked
    rw [walk_on found, fresh]
    exact walked
  have kept := walk_kept pni ifnum (ripRoutes table) (rqinfo ifnum)
  rw [← walk_on found, fresh] at kept
  have packed := loaded.packed
  refine ⟨_, _, congrArg (Option.map _) set, ?_, packed, ?_⟩
  · rw [filter_flatMap_range Sent.ifnum _ ?_ (List.getElem?_eq_some_iff.mp found).1]
    · dsimp only
      rw [if_pos loaded.active, loaded.places, kept.1, kept.2]
    · intro place sent member
      dsimp only at member
      split_ifs at member
      · obtain ⟨pep, _, rfl⟩ := List.mem_map.mp member
        rfl
      · cases member
  · intro filled member
    have formed := loaded.formed filled member
    have within := (packed.filled filled.routes (List.mem_map_of_mem member)).2
    refine ⟨formed.check within ?_, congrArg Prod.fst formed.header, formed.read within⟩
    intro entry inside
    exact advertised_zeroed (loaded.entry member inside)

/-- Thirty networks by way of the interface 1, and an interface 2. -/
def thirtyRoutes : RouteTable where
  rttable := fun index =>
    if index = 10 then
      (List.range 30).map fun number =>
        { rtNet := BitVec.ofNat 32 (0x0a000000 + 256 * number), rtMask := 0xffffff00
          rtGw := 0xc0a80101, rtMetric := 1, rtIfnum := 1, rtKey := 24, rtTtl := rtInf }
    else []
  riDefault := none

def plainIf : RipIf where
  niBrc := 0xc0a802ff
  niNbrc := 0xc0a802ff
  niSubnet := 0xc0a80200
  niNet := 0xc0a80200
  niIp := 0xc0a80201
  niMask := 0xffffff00
  niIvalid := true
  niSvalid := true
  niUp := true

theorem thirty_routes_packed :
    (advertised plainIf 2 (ripRoutes thirtyRoutes)).length = 30 ∧
      ∃ (sends : List Sent) (packets : List Filled),
        ripsend [plainIf, plainIf, plainIf] thirtyRoutes ipMaskall upRip = some sends ∧
        sends.filter (fun sent => sent.ifnum == 2) =
          (packets.map some ++
            List.replicate ((advertised plainIf 2 (ripRoutes thirtyRoutes)).length - ripRoom)
              none).map
              (fun pep => { ifnum := 2, ip := 0xc0a802ff, port := upRip, pep := pep }) ∧
        Packed maxriproutes ((advertised plainIf 2 (ripRoutes thirtyRoutes)).take ripRoom)
          (packets.map Filled.routes) ∧
        ∀ filled ∈ packets, ripcheck filled.rip (BitVec.ofNat 32 filled.len) = true ∧
          filled.rip.ripCmd = ripResponse ∧
          (List.range (nrts (BitVec.ofNat 32 filled.len))).map filled.rip.ripRts =
            filled.routes := by
  have target : Targets [plainIf, plainIf, plainIf] thirtyRoutes ipMaskall 2 plainIf 0xc0a802ff :=
    ⟨by decide, rfl⟩
  exact ⟨by decide +kernel, update_packed rfl rfl target upRip⟩

/-- An interface is left out of an update, or starts with no packet. -/
theorem ripifset_queue {gw : IPaddr} {port : BitVec 16} {rqinfo : Nat → Rq}
    (set : ripifset nif table gw port = some rqinfo) (ifnum : Nat) :
    (rqinfo ifnum).rqActive = false ∨ ∃ ip, rqinfo ifnum =
      { rqActive := true, rqIp := ip, rqPort := port, rqPep := [], rqCur := -1,
        rqNrts := maxriproutes } := by
  unfold ripifset at set
  dsimp only at set
  split_ifs at set
  · cases route : rtget (netifs nif) table gw true with
    | none =>
        rw [route] at set
        cases set
    | some prt =>
        rw [route] at set
        dsimp only at set
        split_ifs at set
        rw [← Option.some.inj set]
        by_cases same : ifnum = prt.rtIfnum
        · subst same
          exact Or.inr ⟨gw, Function.update_self _ _ _⟩
        · rw [Function.update_of_ne same]
          exact Or.inl rfl
  · rw [← Option.some.inj set]
    dsimp only
    split_ifs
    · exact Or.inl rfl
    · exact Or.inr ⟨_, rfl⟩

theorem walk_idle {prq : Rq} (idle : prq.rqActive = false ∨ pni.niUp = false)
    (routes : List Route) : routes.foldl (ripaddOn pni ifnum) prq = prq := by
  have same : ∀ prt, ripaddOn pni ifnum prq prt = prq := by
    intro prt
    unfold ripaddOn
    rcases idle with inactive | down
    · rw [if_pos (by simp [inactive])]
    · rw [if_pos (by simp [down])]
  induction routes with
  | nil => rfl
  | cons prt rest ih => rw [List.foldl_cons, same, ih]

/-- What a receiver reads out of a packet was advertised. -/
theorem ripsend_entries {gw : IPaddr} {port : BitVec 16} {sends : List Sent}
    (update : ripsend nif table gw port = some sends) {sent : Sent} (member : sent ∈ sends)
    {filled : Filled} (pep : sent.pep = some filled) {place : Nat}
    (inside : place < nrts (BitVec.ofNat 32 filled.len)) :
    ∃ pni, filled.rip.ripRts place ∈ advertised pni sent.ifnum (ripRoutes table) := by
  obtain ⟨rqinfo, set, made⟩ := Option.map_eq_some_iff.mp update
  dsimp only at made
  rw [← made] at member
  obtain ⟨ifnum, listed, here⟩ := List.mem_flatMap.mp member
  obtain ⟨pni, found⟩ : ∃ pni, nif[ifnum]? = some pni :=
    ⟨_, List.getElem?_eq_getElem (List.mem_range.mp listed)⟩
  rw [walk_on found] at here
  split_ifs at here with active
  · obtain ⟨other, placed, rfl⟩ := List.mem_map.mp here
    dsimp only at pep ⊢
    subst pep
    refine ⟨pni, ?_⟩
    rcases ripifset_queue set ifnum with inactive | ⟨ip, fresh⟩
    · rw [walk_idle (Or.inl inactive), inactive] at active
      cases active
    · rw [fresh] at placed
      cases up : pni.niUp with
      | false =>
          rw [walk_idle (Or.inr up)] at placed
          cases placed
      | true =>
          have loaded := @Loaded.walk pni ifnum (ripRoutes table) up [] _ (loaded_nil ip port)
          rw [List.nil_append] at loaded
          rw [loaded.places] at placed
          rcases List.mem_append.mp placed with packet | past
          · obtain ⟨packed, there, same⟩ := List.mem_map.mp packet
            rw [Option.some.inj same] at there
            apply loaded.entry there
            have within := (loaded.packed.filled _ (List.mem_map_of_mem there)).2
            rw [← (loaded.formed filled there).read within]
            exact List.mem_map_of_mem (List.mem_range.mpr inside)
          · cases (List.mem_replicate.mp past).2
  · cases here

end Sending

end MvsXinu.Rip
