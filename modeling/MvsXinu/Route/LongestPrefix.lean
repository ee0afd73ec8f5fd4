import MvsXinu.Route.Table

/-!
# Longest match

Within a bucket the routes are in the order of their masks, so the first usable one is
the best one there. It is the best one of the table as long as every route that matches
a destination is in the bucket of the destination, and for that the mask has to cover
the part of the network address that `rthash` reads.
-/

namespace MvsXinu.Routing

set_option autoImplicit false

/-- The bits of an address that `rthash` looks at. -/
def hashedBits (net : IPaddr) : IPaddr :=
  if ipClassA net then 0xff000000
  else if ipClassB net then 0xffff0000
  else if ipClassC net then 0xffffff00
  else if ipClassD net then 0xf0000000
  else 0xffffffff

def Covered (net mask : IPaddr) : Prop := hashedBits net &&& mask = hashedBits net

instance (net mask : IPaddr) : Decidable (Covered net mask) := inferInstanceAs (Decidable (_ = _))

/-- A route that may carry traffic for `dest`. -/
structure Live (dest : IPaddr) (prt : Route) : Prop where
  matching : dest &&& prt.rtMask = prt.rtNet &&& prt.rtMask
  fresh : 0 < prt.rtTtl
  finite : prt.rtMetric < rtmInf

def InTable (table : RouteTable) (prt : Route) : Prop := ∃ index, prt ∈ table.rttable index

/-- What `rtget` is to return: a longest live match, or else the default route. -/
def LongestMatch (table : RouteTable) (dest : IPaddr) (result : Option Route) : Prop :=
  (∃ prt, result = some prt ∧ InTable table prt ∧ Live dest prt ∧
      ∀ other, InTable table other → Live dest other →
        maskBits other.rtMask ≤ maskBits prt.rtMask) ∨
    ((∀ other, InTable table other → ¬ Live dest other) ∧
      result = table.riDefault.filter fun prt => decide (prt.rtMetric < rtmInf))

/-! ## The bucket of a destination -/

theorem and_of_subset (left right outer inner : IPaddr) (subset : inner &&& outer = inner)
    (same : left &&& outer = right &&& outer) : left &&& inner = right &&& inner := by
  rw [← subset, BitVec.and_comm inner outer, ← BitVec.and_assoc, ← BitVec.and_assoc, same]

theorem octetAt_of_and (left right bits : IPaddr) (position : Nat)
    (covers : octetAt bits position = 0xff) (same : left &&& bits = right &&& bits) :
    octetAt left position = octetAt right position := by
  have octets := congrArg (fun address => octetAt address position) same
  simp only [octetAt, BitVec.extractLsb'_and] at octets covers ⊢
  rw [covers] at octets
  have ones : (0xff : BitVec 8) = BitVec.allOnes 8 := rfl
  simpa only [ones, BitVec.and_allOnes] using octets

/-- The class of an address is decided by its four highest bits. -/
theorem classes_eq (left right : IPaddr) (same : left &&& 0xf0000000 = right &&& 0xf0000000) :
    ipClassA left = ipClassA right ∧ ipClassB left = ipClassB right ∧
      ipClassC left = ipClassC right ∧ ipClassD left = ipClassD right := by
  have a := and_of_subset left right 0xf0000000 0x80000000 (by decide) same
  have b := and_of_subset left right 0xf0000000 0xc0000000 (by decide) same
  have c := and_of_subset left right 0xf0000000 0xe0000000 (by decide) same
  simp only [ipClassA, ipClassB, ipClassC, ipClassD, a, b, c, same, and_self]

theorem hashedBits_class (net : IPaddr) : 0xf0000000 &&& hashedBits net = 0xf0000000 := by
  unfold hashedBits
  split_ifs <;> decide

theorem hashedBits_octet (net : IPaddr) (unicast : ipClassD net = false) (position : Nat)
    (bound : position < hashedOctets net) : octetAt (hashedBits net) position = 0xff := by
  unfold hashedOctets at bound
  unfold hashedBits
  split_ifs at bound ⊢ with a b c d
  · have all : ∀ position < 1, octetAt 0xff000000 position = 0xff := by decide
    exact all position bound
  · have all : ∀ position < 2, octetAt 0xffff0000 position = 0xff := by decide
    exact all position bound
  · have all : ∀ position < 3, octetAt 0xffffff00 position = 0xff := by decide
    exact all position bound
  · rw [unicast] at d
    cases d
  · have all : ∀ position < 4, octetAt 0xffffffff position = 0xff := by decide
    exact all position bound

theorem rthash_of_match (dest net mask : IPaddr) (unicast : ipClassD dest = false)
    (covered : Covered net mask) (same : dest &&& mask = net &&& mask) :
    rthash dest = rthash net := by
  have bits : dest &&& hashedBits net = net &&& hashedBits net :=
    and_of_subset dest net mask (hashedBits net) covered same
  obtain ⟨a, b, c, d⟩ := classes_eq dest net
    (and_of_subset dest net (hashedBits net) 0xf0000000 (hashedBits_class net) bits)
  have unicastNet : ipClassD net = false := d ▸ unicast
  have count : hashedOctets dest = hashedOctets net := by
    rw [hashedOctets, hashedOctets, a, b, c]
  simp only [rthash, unicast, unicastNet, Bool.and_false, Bool.false_eq_true, if_false, count]
  have octets : ((List.range (hashedOctets net)).map fun position =>
      (octetAt dest position).toNat) =
      (List.range (hashedOctets net)).map fun position => (octetAt net position).toNat := by
    apply List.map_congr_left
    intro position member
    have covers := hashedBits_octet net unicastNet position (List.mem_range.mp member)
    rw [octetAt_of_and dest net (hashedBits net) position covers bits]
  rw [octets]

/-! ## The order of a bucket -/

/-- A bucket in order: its routes hash to it, are covered, and the longer masks come
first. -/
structure Bucket (index : Nat) (routes : List Route) : Prop where
  hashed : ∀ prt ∈ routes, rthash prt.rtNet = index
  covered : ∀ prt ∈ routes, Covered prt.rtNet prt.rtMask
  keyed : ∀ prt ∈ routes, prt.rtKey = maskBits prt.rtMask
  ordered : routes.Pairwise fun first second => second.rtKey ≤ first.rtKey

def Ordered (table : RouteTable) : Prop := ∀ index, Bucket index (table.rttable index)

theorem mem_chainIn (prt : Route) (routes : List Route) (other : Route)
    (member : other ∈ chainIn prt routes) :
    other = prt ∨ ∃ old ∈ routes, other.rtNet = old.rtNet ∧ other.rtMask = old.rtMask ∧
      other.rtKey = old.rtKey := by
  induction routes with
  | nil => exact Or.inl (by simpa [chainIn] using member)
  | cons srt rest ih =>
      have kept : ∀ old ∈ srt :: rest, ∃ original ∈ srt :: rest,
          old.rtNet = original.rtNet ∧ old.rtMask = original.rtMask ∧
            old.rtKey = original.rtKey := fun old found => ⟨old, found, rfl, rfl, rfl⟩
      unfold chainIn at member
      split_ifs at member with longer duplicate gateway better
      · rcases List.mem_cons.mp member with new | old
        · exact Or.inl new
        · exact Or.inr (kept other old)
      · rcases List.mem_cons.mp member with updated | old
        · exact Or.inr ⟨srt, List.mem_cons_self, by rw [updated], by rw [updated], by rw [updated]⟩
        · exact Or.inr (kept other (List.mem_cons_of_mem _ old))
      · exact Or.inr (kept other member)
      · rcases List.mem_cons.mp member with new | old
        · exact Or.inl new
        · exact Or.inr (kept other (List.mem_cons_of_mem _ old))
      · rcases List.mem_cons.mp member with first | later
        · exact Or.inr (kept other (first ▸ List.mem_cons_self))
        · rcases ih later with new | ⟨old, found, same⟩
          · exact Or.inl new
          · exact Or.inr ⟨old, List.mem_cons_of_mem _ found, same⟩

theorem chainIn_ordered (prt : Route) (routes : List Route)
    (keyed : ∀ old ∈ routes, old.rtKey = maskBits old.rtMask)
    (key : prt.rtKey = maskBits prt.rtMask)
    (ordered : routes.Pairwise fun first second => second.rtKey ≤ first.rtKey) :
    (chainIn prt routes).Pairwise fun first second => second.rtKey ≤ first.rtKey := by
  induction routes with
  | nil => simp [chainIn]
  | cons srt rest ih =>
      obtain ⟨first, later⟩ := List.pairwise_cons.mp ordered
      unfold chainIn
      split_ifs with longer duplicate gateway better
      · apply List.pairwise_cons.mpr
        refine ⟨?_, ordered⟩
        intro other member
        rcases List.mem_cons.mp member with equal | behind
        · rw [equal]
          omega
        · have bound := first other behind
          omega
      · exact List.pairwise_cons.mpr ⟨first, later⟩
      · exact ordered
      · -- a duplicate has the same mask, and so the same key
        have same : prt.rtKey = srt.rtKey := by
          rw [key, keyed srt List.mem_cons_self, duplicate.2]
        apply List.pairwise_cons.mpr
        refine ⟨?_, later⟩
        intro other member
        rw [same]
        exact first other member
      · apply List.pairwise_cons.mpr
        refine ⟨?_, ih (fun old member => keyed old (List.mem_cons_of_mem _ member)) later⟩
        intro other member
        rcases mem_chainIn prt rest other member with new | ⟨old, found, -, -, sameKey⟩
        · rw [new]
          omega
        · rw [sameKey]
          exact first old found

theorem chainIn_bucket (index : Nat) (prt : Route) (routes : List Route)
    (bucket : Bucket index routes) (hash : rthash prt.rtNet = index)
    (covered : Covered prt.rtNet prt.rtMask) (key : prt.rtKey = maskBits prt.rtMask) :
    Bucket index (chainIn prt routes) := by
  constructor
  · intro other member
    rcases mem_chainIn prt routes other member with new | ⟨old, found, net, -, -⟩
    · rw [new]
      exact hash
    · rw [net]
      exact bucket.hashed old found
  · intro other member
    rcases mem_chainIn prt routes other member with new | ⟨old, found, net, mask, -⟩
    · rw [new]
      exact covered
    · rw [net, mask]
      exact bucket.covered old found
  · intro other member
    rcases mem_chainIn prt routes other member with new | ⟨old, found, -, mask, sameKey⟩
    · rw [new]
      exact key
    · rw [mask, sameKey]
      exact bucket.keyed old found
  · exact chainIn_ordered prt routes bucket.keyed key bucket.ordered

theorem Bucket.sublist {index : Nat} {routes shorter : List Route} (bucket : Bucket index routes)
    (sublist : shorter.Sublist routes) : Bucket index shorter :=
  ⟨fun prt member => bucket.hashed prt (sublist.subset member),
    fun prt member => bucket.covered prt (sublist.subset member),
    fun prt member => bucket.keyed prt (sublist.subset member),
    bucket.ordered.sublist sublist⟩

theorem ageRoute_fields (delta : Nat) (prt aged : Route) (kept : ageRoute delta prt = some aged) :
    aged.rtNet = prt.rtNet ∧ aged.rtMask = prt.rtMask ∧ aged.rtKey = prt.rtKey := by
  simp only [ageRoute] at kept
  split_ifs at kept with expired infinite
  · cases kept
    exact ⟨rfl, rfl, rfl⟩
  · cases kept
    exact ⟨rfl, rfl, rfl⟩

theorem Bucket.aged {index : Nat} {routes : List Route} (delta : Nat)
    (bucket : Bucket index routes) : Bucket index (routes.filterMap (ageRoute delta)) := by
  constructor
  · intro prt member
    obtain ⟨old, found, kept⟩ := List.mem_filterMap.mp member
    rw [(ageRoute_fields delta old prt kept).1]
    exact bucket.hashed old found
  · intro prt member
    obtain ⟨old, found, kept⟩ := List.mem_filterMap.mp member
    rw [(ageRoute_fields delta old prt kept).1, (ageRoute_fields delta old prt kept).2.1]
    exact bucket.covered old found
  · intro prt member
    obtain ⟨old, found, kept⟩ := List.mem_filterMap.mp member
    rw [(ageRoute_fields delta old prt kept).2.1, (ageRoute_fields delta old prt kept).2.2]
    exact bucket.keyed old found
  · apply List.Pairwise.filterMap _ _ bucket.ordered
    intro first second order younger keptFirst older keptSecond
    rw [(ageRoute_fields delta first younger keptFirst).2.2,
      (ageRoute_fields delta second older keptSecond).2.2]
    exact order

/-! ## Runs -/

/-- The mask of a new route, unless it is the default route, covers what is hashed. -/
def CoveredCall : RouteCall → Prop
  | .rtadd net mask _ _ _ _ => net = ipAnyaddr ∨ Covered net mask
  | _ => True

theorem updated_ordered (table : RouteTable) (hv : Nat) (routes : List Route)
    (ordered : Ordered table) (bucket : Bucket hv routes) :
    ∀ index, Bucket index (Function.update table.rttable hv routes index) := by
  intro index
  by_cases same : index = hv
  · subst same
    rw [Function.update_self]
    exact bucket
  · rw [Function.update_of_ne same]
    exact ordered index

theorem routeStep_ordered (table : RouteTable) (call : RouteCall) (ordered : Ordered table)
    (covered : CoveredCall call) : Ordered (routeStep table call) := by
  cases call with
  | rtadd net mask gw metric intf ttl =>
      simp only [routeStep, rtadd]
      split_ifs with isDefault
      · exact ordered
      · apply updated_ordered table _ _ ordered
        exact chainIn_bucket _ _ _ (ordered _) rfl (covered.resolve_left isDefault) rfl
  | rtdel net mask =>
      simp only [routeStep, rtdel]
      split_ifs
      · exact ordered
      · apply updated_ordered table _ _ ordered
        exact (ordered _).sublist List.eraseP_sublist
      · exact ordered
  | rttimer delta =>
      intro index
      exact (ordered index).aged delta

theorem run_ordered (calls : List RouteCall) (table : RouteTable) (ordered : Ordered table)
    (covered : ∀ call ∈ calls, CoveredCall call) : Ordered (calls.foldl routeStep table) := by
  induction calls generalizing table with
  | nil => exact ordered
  | cons call rest ih =>
      apply ih
      · exact routeStep_ordered table call ordered (covered call List.mem_cons_self)
      · intro other member
        exact covered other (List.mem_cons_of_mem _ member)

theorem usable_iff (nif : List Netif) (dest : IPaddr) (islocal : Bool) (prt : Route)
    (unicast : ipClassD dest = false) (notBroadcast : isbrc nif dest = false) :
    usable nif dest islocal prt = true ↔ Live dest prt := by
  have matching : netmatch nif dest prt.rtNet prt.rtMask islocal =
      decide (dest &&& prt.rtMask = prt.rtNet &&& prt.rtMask) := by
    simp only [netmatch, unicast, notBroadcast, Bool.or_self, Bool.and_false,
      Bool.false_eq_true, if_false]
    split_ifs with differs
    · exact (decide_eq_false differs).symm
    · exact (decide_eq_true (not_not.mp differs)).symm
  rw [usable, matching, Bool.and_eq_true, Bool.and_eq_true, decide_eq_true_iff,
    decide_eq_true_iff, decide_eq_true_iff]
  constructor
  · rintro ⟨⟨fresh, same⟩, finite⟩
    exact ⟨same, fresh, finite⟩
  · rintro ⟨same, fresh, finite⟩
    exact ⟨⟨fresh, same⟩, finite⟩

theorem find_is_first {Item : Type*} (order : Item → Item → Prop) (test : Item → Bool)
    (items : List Item) (found : Item) (reflexive : ∀ item, order item item)
    (ordered : items.Pairwise order) (first : items.find? test = some found) :
    ∀ other ∈ items, test other = true → order found other := by
  induction items with
  | nil => cases first
  | cons head rest ih =>
      obtain ⟨before, later⟩ := List.pairwise_cons.mp ordered
      intro other member passes
      by_cases here : test head = true
      · rw [List.find?_cons_of_pos here, Option.some.injEq] at first
        subst first
        rcases List.mem_cons.mp member with equal | behind
        · rw [equal]
          exact reflexive head
        · exact before other behind
      · rw [List.find?_cons_of_neg here] at first
        rcases List.mem_cons.mp member with equal | behind
        · rw [equal] at passes
          exact absurd passes here
        · exact ih later first other behind passes

theorem rtget_ordered (nif : List Netif) (table : RouteTable) (dest : IPaddr) (islocal : Bool)
    (unicast : ipClassD dest = false) (notBroadcast : isbrc nif dest = false)
    (ordered : Ordered table) : LongestMatch table dest (rtget nif table dest islocal) := by
  -- a live route of any bucket is in the bucket that is searched
  have here : ∀ prt, InTable table prt → Live dest prt → prt ∈ table.rttable (rthash dest) := by
    rintro prt ⟨index, member⟩ live
    have hash := rthash_of_match dest prt.rtNet prt.rtMask unicast
      ((ordered index).covered prt member) live.matching
    rw [hash, (ordered index).hashed prt member]
    exact member
  unfold rtget
  cases found : (table.rttable (rthash dest)).find? (usable nif dest islocal) with
  | none =>
      refine Or.inr ⟨?_, rfl⟩
      intro other inTable live
      have unusable := List.find?_eq_none.mp found other (here other inTable live)
      exact unusable ((usable_iff nif dest islocal other unicast notBroadcast).mpr live)
  | some prt =>
      have live : Live dest prt :=
        (usable_iff nif dest islocal prt unicast notBroadcast).mp (List.find?_some found)
      have member := List.mem_of_find?_eq_some found
      refine Or.inl ⟨prt, ?_, ⟨rthash dest, member⟩, live, ?_⟩
      · simp only [Option.some_or, Option.filter_some, decide_eq_true live.finite, if_true]
      · intro other inTable otherLive
        have bucket := ordered (rthash dest)
        have inBucket := here other inTable otherLive
        have order := find_is_first (fun first second : Route => second.rtKey ≤ first.rtKey) _ _
          prt (fun _ => le_refl _) bucket.ordered found other inBucket
          ((usable_iff nif dest islocal other unicast notBroadcast).mpr otherLive)
        rw [← bucket.keyed other inBucket, ← bucket.keyed prt member]
        exact order

/-- After any calls whose new routes are covered, `rtget` returns a longest match. -/
theorem rtget_longest_match (calls : List RouteCall) (covered : ∀ call ∈ calls, CoveredCall call)
    (nif : List Netif) (dest : IPaddr) (islocal : Bool) (unicast : ipClassD dest = false)
    (notBroadcast : isbrc nif dest = false) :
    LongestMatch (calls.foldl routeStep rtinit) dest
      (rtget nif (calls.foldl routeStep rtinit) dest islocal) := by
  apply rtget_ordered nif _ dest islocal unicast notBroadcast
  apply run_ordered calls rtinit _ covered
  intro index
  exact ⟨by simp [rtinit], by simp [rtinit], by simp [rtinit], by simp [rtinit]⟩

/-- A class A network and one of its subnets, by way of two gateways. -/
def subnetCalls : List RouteCall :=
  [.rtadd 0x0a000000 0xff000000 0x0a000001 1 1 999,
    .rtadd 0x0a010000 0xffff0000 0x0a010001 2 1 999]

theorem subnet_matched :
    (rtget [] (subnetCalls.foldl routeStep rtinit) 0x0a010203 false).map Route.rtGw =
        some 0x0a010001 ∧
      LongestMatch (subnetCalls.foldl routeStep rtinit) 0x0a010203
        (rtget [] (subnetCalls.foldl routeStep rtinit) 0x0a010203 false) := by
  refine ⟨by decide, ?_⟩
  apply rtget_longest_match subnetCalls _ [] 0x0a010203 false (by decide) (by decide)
  intro call member
  rcases List.mem_cons.mp member with first | later
  · subst first
    exact Or.inr (by decide)
  · have second := List.mem_singleton.mp later
    subst second
    exact Or.inr (by decide)

/-- The route to 192.168.0.0 with a mask of sixteen bits. -/
def supernetCalls : List RouteCall := [.rtadd 0xc0a80000 0xffff0000 0xc0a80001 1 1 999]

/-- 192.168.5.1 matches the route and hashes to another bucket. -/
theorem supernet_missed :
    Live 0xc0a80501 { rtnew 0xc0a80000 0xffff0000 0xc0a80001 1 1 999 with rtKey := 16 } ∧
      isbrc [] 0xc0a80501 = false ∧ ipClassD 0xc0a80501 = false ∧
      rtget [] (supernetCalls.foldl routeStep rtinit) 0xc0a80501 false = none ∧
      ¬ LongestMatch (supernetCalls.foldl routeStep rtinit) 0xc0a80501
        (rtget [] (supernetCalls.foldl routeStep rtinit) 0xc0a80501 false) := by
  have live : Live 0xc0a80501
      { rtnew 0xc0a80000 0xffff0000 0xc0a80001 1 1 999 with rtKey := 16 } :=
    ⟨by decide, by decide, by decide⟩
  have missed : rtget [] (supernetCalls.foldl routeStep rtinit) 0xc0a80501 false = none := by
    decide
  refine ⟨live, by decide, by decide, missed, ?_⟩
  rintro (⟨prt, found, -⟩ | ⟨nothing, -⟩)
  · rw [missed] at found
    cases found
  · exact nothing _ ⟨rthash 0xc0a80000, by decide⟩ live

end MvsXinu.Routing
