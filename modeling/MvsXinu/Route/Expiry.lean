import Mathlib.Data.List.Pairwise
import MvsXinu.Lib.Runs
import MvsXinu.Route.Buffers

/-!
# When routes expire

`rttimer` counts a short down by an unsigned step. A route is removed in time as long as the
short tells what is left of its ttl: the ttl must not be cut when it is stored, no call may step
past the range of a short, and the countdown must not come to a value that stops it.
-/

namespace MvsXinu.Routing

open MvsXinu.Runs

set_option autoImplicit false

/-! ## One ttl -/

/-- Where the countdown stops: that of a table entry at `RT_INF`, that of the default route also
above it. -/
def Stops (net : IPaddr) (ttl : Int) : Prop :=
  if net = ipAnyaddr then rtInf ≤ ttl else ttl = rtInf

instance (net : IPaddr) (ttl : Int) : Decidable (Stops net ttl) :=
  inferInstanceAs (Decidable (if net = ipAnyaddr then rtInf ≤ ttl else ttl = rtInf))

theorem Stops.positive {net : IPaddr} {ttl : Int} (stops : Stops net ttl) : 0 < ttl := by
  unfold Stops rtInf at stops
  split_ifs at stops
  · omega
  · omega

/-- What one call leaves of a ttl. -/
def ageTtl (net : IPaddr) (delta : Nat) (ttl : Int) : Option Int :=
  let aged := if Stops net ttl then ttl else toShort (ttl - delta)
  if aged ≤ 0 then none else some aged

def ttlAfter (net : IPaddr) : Int → List Nat → Option Int
  | ttl, [] => some ttl
  | ttl, delta :: later => (ageTtl net delta ttl).bind fun left => ttlAfter net left later

theorem toShort_sub (left : Int) (delta : Nat) :
    toShort (toShort left - delta) = toShort (left - delta) := by
  unfold toShort
  exact Int.bmod_sub_bmod

theorem ageTtl_stopped {net : IPaddr} {ttl : Int} (stops : Stops net ttl) (delta : Nat) :
    ageTtl net delta ttl = some ttl := by
  have positive := stops.positive
  simp only [ageTtl, if_pos stops]
  rw [if_neg (by omega)]

theorem ttlAfter_stopped {net : IPaddr} {ttl : Int} (stops : Stops net ttl) (deltas : List Nat) :
    ttlAfter net ttl deltas = some ttl := by
  induction deltas with
  | nil => rfl
  | cons delta later ih =>
      rw [ttlAfter, ageTtl_stopped stops]
      exact ih

/-- As long as `left` seconds are left, the stored ttl says whether a call uses them up, and if
it has stopped they are not used up. -/
def Told (net : IPaddr) (left : Int) : List Nat → Prop
  | [] => True
  | delta :: later =>
      if Stops net (toShort left) then ((delta :: later).sum : Int) < left
      else (toShort (left - delta) ≤ 0 ↔ left - delta ≤ 0) ∧
        (0 < left - delta → Told net (left - delta) later)

instance decidableTold (net : IPaddr) :
    ∀ (left : Int) (deltas : List Nat), Decidable (Told net left deltas)
  | _, [] => .isTrue trivial
  | left, delta :: later =>
      have := decidableTold net (left - delta) later
      inferInstanceAs (Decidable (if Stops net (toShort left) then _ < _ else _ ∧ _))

theorem sum_take_le (deltas : List Nat) (count : Nat) : (deltas.take count).sum ≤ deltas.sum := by
  have parts := congrArg List.sum (List.take_append_drop count deltas)
  rw [List.sum_append] at parts
  omega

/-- A ttl is there after a call exactly if it is not used up. -/
theorem told_iff (net : IPaddr) (deltas : List Nat) : ∀ left : Int,
    (∀ count < deltas.length, (ttlAfter net (toShort left) (deltas.take (count + 1))).isSome = true ↔
      ((deltas.take (count + 1)).sum : Int) < left) ↔ Told net left deltas := by
  induction deltas with
  | nil =>
      intro left
      constructor
      · intro _
        trivial
      · intro _ count impossible
        cases impossible
  | cons delta later ih =>
      intro left
      by_cases stops : Stops net (toShort left)
      · rw [Told, if_pos stops]
        simp only [ttlAfter_stopped stops, Option.isSome_some, true_iff]
        constructor
        · intro all
          have last := all later.length (Nat.lt_succ_self _)
          rwa [List.take_of_length_le (by simp)] at last
        · intro total count _
          have part := sum_take_le (delta :: later) (count + 1)
          omega
      · rw [Told, if_neg stops]
        have shifted : ∀ count, ((delta :: later).take (count + 1)).sum =
            delta + (later.take count).sum := by
          intro count
          rw [List.take_succ_cons, List.sum_cons]
        by_cases expires : toShort (left - delta) ≤ 0
        · have gone : ∀ count, ttlAfter net (toShort left) ((delta :: later).take (count + 1)) =
              none := by
            intro count
            rw [List.take_succ_cons, ttlAfter]
            simp only [ageTtl, if_neg stops, toShort_sub, if_pos expires, Option.bind_none]
          simp only [gone, Option.isSome_none, Bool.false_eq_true, false_iff, shifted, expires,
            true_iff]
          constructor
          · intro all
            have first := all 0 (Nat.succ_pos _)
            simp only [List.take_zero, List.sum_nil] at first
            exact ⟨by omega, fun some => by omega⟩
          · rintro ⟨past, _⟩ count _
            omega
        · have stays : ∀ count, ttlAfter net (toShort left) ((delta :: later).take (count + 1)) =
              ttlAfter net (toShort (left - delta)) (later.take count) := by
            intro count
            rw [List.take_succ_cons, ttlAfter]
            simp only [ageTtl, if_neg stops, toShort_sub, if_neg expires, Option.bind_some]
          simp only [stays, shifted, expires, false_iff]
          rw [← ih (left - delta)]
          constructor
          · intro all
            have first := all 0 (Nat.succ_pos _)
            simp only [List.take_zero, ttlAfter, Option.isSome_some, List.sum_nil, true_iff] at first
            refine ⟨by omega, fun _ count short => ?_⟩
            rw [all (count + 1) (Nat.succ_lt_succ short)]
            omega
          · rintro ⟨some, others⟩ count short
            cases count with
            | zero =>
                simp only [List.take_zero, ttlAfter, Option.isSome_some, List.sum_nil, true_iff]
                omega
            | succ count =>
                rw [others (by omega) count (Nat.lt_of_succ_lt_succ short)]
                omega

/-! ## A table -/

section Tables

variable {table : RouteTable}

/-- A route after the calls, if it is still there. -/
def agedBy (deltas : List Nat) (prt : Route) : Option Route :=
  (ttlAfter prt.rtNet prt.rtTtl deltas).map fun ttl => { prt with rtTtl := ttl }

theorem ageRoute_ttl (delta : Nat) {prt : Route} (named : prt.rtNet ≠ ipAnyaddr) :
    ageRoute delta prt = (ageTtl prt.rtNet delta prt.rtTtl).map fun ttl => { prt with rtTtl := ttl } := by
  unfold ageRoute ageTtl Stops
  simp only [if_neg named, ne_eq, ite_not]
  split_ifs <;> rfl

theorem ageDefault_ttl (delta : Nat) {prt : Route} (isDefault : prt.rtNet = ipAnyaddr) :
    ageDefault delta prt = (ageTtl prt.rtNet delta prt.rtTtl).map fun ttl => { prt with rtTtl := ttl } := by
  by_cases stops : Stops prt.rtNet prt.rtTtl
  · have above : rtInf ≤ prt.rtTtl := by rwa [Stops, if_pos isDefault] at stops
    rw [ageTtl_stopped stops, ageDefault, if_neg (by omega)]
    rfl
  · have below : prt.rtTtl < rtInf := by
      rw [Stops, if_pos isDefault] at stops
      omega
    simp only [ageDefault, if_pos below, ageTtl, if_neg stops]
    split_ifs <;> rfl

theorem agedBy_cons (delta : Nat) (later : List Nat) (prt : Route) :
    agedBy (delta :: later) prt =
      ((ageTtl prt.rtNet delta prt.rtTtl).map fun ttl => { prt with rtTtl := ttl }).bind
        (agedBy later) := by
  unfold agedBy
  rw [ttlAfter]
  cases ageTtl prt.rtNet delta prt.rtTtl with
  | none => rfl
  | some left => rfl

theorem timers_rttable (deltas : List Nat) (index : Nat) : ∀ {table : RouteTable}, Shaped table →
    (deltas.foldl rttimer table).rttable index = (table.rttable index).filterMap (agedBy deltas) := by
  induction deltas with
  | nil =>
      intro table _
      exact (List.filterMap_some).symm
  | cons delta later ih =>
      intro table shaped
      rw [List.foldl_cons, ih (rttimer_shaped shaped delta)]
      unfold rttimer
      rw [List.filterMap_filterMap]
      apply List.filterMap_congr
      intro prt member
      rw [agedBy_cons, ageRoute_ttl delta (shaped.named index prt member)]

theorem timers_default (deltas : List Nat) : ∀ {table : RouteTable}, Shaped table →
    (deltas.foldl rttimer table).riDefault = table.riDefault.bind (agedBy deltas) := by
  induction deltas with
  | nil =>
      intro table _
      exact (Option.bind_fun_some _).symm
  | cons delta later ih =>
      intro table shaped
      rw [List.foldl_cons, ih (rttimer_shaped shaped delta)]
      unfold rttimer
      cases found : table.riDefault with
      | none => rfl
      | some prt =>
          dsimp only [Option.bind_some]
          rw [agedBy_cons, ageDefault_ttl delta (shaped.default prt found)]

/-- A route to the network is in the table, or is the default route. -/
def Present (table : RouteTable) (net mask : IPaddr) : Prop :=
  if net = ipAnyaddr then table.riDefault.isSome = true
  else ∃ prt ∈ table.rttable (rthash net), prt.rtNet = net ∧ prt.rtMask = mask

instance (table : RouteTable) (net mask : IPaddr) : Decidable (Present table net mask) :=
  inferInstanceAs (Decidable (if net = ipAnyaddr then table.riDefault.isSome = true
    else ∃ prt ∈ table.rttable (rthash net), prt.rtNet = net ∧ prt.rtMask = mask))

/-- The route that `rtadd` makes. -/
def addedRoute (net mask gw : IPaddr) (metric intf ttl : Nat) : Route :=
  { rtnew net mask gw metric intf ttl with rtKey := maskBits mask }

/-- `rtadd` has put its route into the table. -/
def Added (table : RouteTable) (net mask gw : IPaddr) (metric intf ttl : Nat) : Prop :=
  if net = ipAnyaddr then
    (rtadd table net mask gw metric intf ttl).riDefault =
      some (addedRoute net mask gw metric intf ttl)
  else addedRoute net mask gw metric intf ttl ∈
    (rtadd table net mask gw metric intf ttl).rttable (rthash net)

instance (table : RouteTable) (net mask gw : IPaddr) (metric intf ttl : Nat) :
    Decidable (Added table net mask gw metric intf ttl) :=
  inferInstanceAs (Decidable (if net = ipAnyaddr then _ = _ else _ ∈ _))

/-- The default route is always put in. -/
theorem added_default (table : RouteTable) (mask gw : IPaddr) (metric intf ttl : Nat) :
    Added table ipAnyaddr mask gw metric intf ttl := rfl

theorem Shaped.same (shaped : Shaped table) {index : Nat} {first second : Route}
    (inFirst : first ∈ table.rttable index) (inSecond : second ∈ table.rttable index)
    (net : first.rtNet = second.rtNet) (mask : first.rtMask = second.rtMask) : first = second := by
  have : Std.Symm Unlike := ⟨fun _ _ apart same => apart ⟨same.1.symm, same.2.symm⟩⟩
  by_contra apart
  exact (shaped.distinct index).forall inFirst inSecond apart ⟨net, mask⟩

/-- What is left of the route decides whether it is there. -/
theorem present_after {net mask gw : IPaddr} {metric intf ttl : Nat} (shaped : Shaped table)
    (added : Added table net mask gw metric intf ttl) (deltas : List Nat) :
    Present (deltas.foldl rttimer (rtadd table net mask gw metric intf ttl)) net mask ↔
      (ttlAfter net (toShort ttl) deltas).isSome = true := by
  have shapedAdded := rtadd_shaped shaped net mask gw metric intf ttl
  have agedAdded : (agedBy deltas (addedRoute net mask gw metric intf ttl)).isSome =
      (ttlAfter net (toShort ttl) deltas).isSome := by
    rw [agedBy, Option.isSome_map]
    simp only [addedRoute, rtnew]
  unfold Added at added
  rw [← agedAdded, Present]
  by_cases isDefault : net = ipAnyaddr
  · simp only [if_pos isDefault] at added ⊢
    rw [timers_default deltas shapedAdded, added, Option.bind_some]
  · simp only [if_neg isDefault] at added ⊢
    rw [timers_rttable deltas _ shapedAdded]
    constructor
    · rintro ⟨aged, member, sameNet, sameMask⟩
      obtain ⟨old, found, kept⟩ := List.mem_filterMap.mp member
      have fields : aged.rtNet = old.rtNet ∧ aged.rtMask = old.rtMask := by
        obtain ⟨left, _, rfl⟩ := Option.map_eq_some_iff.mp kept
        exact ⟨rfl, rfl⟩
      have same := shapedAdded.same found added (fields.1.symm.trans sameNet)
        (fields.2.symm.trans sameMask)
      rw [← same, kept]
      rfl
    · intro some
      obtain ⟨aged, kept⟩ := Option.isSome_iff_exists.mp some
      refine ⟨aged, List.mem_filterMap.mpr ⟨_, added, kept⟩, ?_⟩
      obtain ⟨left, _, rfl⟩ := Option.map_eq_some_iff.mp kept
      exact ⟨rfl, rfl⟩

end Tables

/-! ## Every sequence of calls -/

/-- The route to the network is there until the time is used up, and not any more after the call
that uses it up. -/
structure ExpiresOnTime (table : RouteTable) (net mask : IPaddr) (ttl : Nat) (deltas : List Nat) :
    Prop where
  present : ∀ count ≤ deltas.length, (deltas.take count).sum < ttl →
    Present ((deltas.take count).foldl rttimer table) net mask
  removed : ∀ count < deltas.length, ttl ≤ (deltas.take (count + 1)).sum →
    ¬ Present ((deltas.take (count + 1)).foldl rttimer table) net mask

/-- A route without a timeout stays. Any other one expires in time exactly if its stored ttl tells
what is left. -/
theorem route_expiry_iff (table : RouteTable)
    (reached : Reach routeStep (fun _ _ => True) rtinit table) (net mask gw : IPaddr)
    (metric intf ttl : Nat) (added : Added table net mask gw metric intf ttl) (deltas : List Nat) :
    ((ttl : Int) = rtInf →
      Present (deltas.foldl rttimer (rtadd table net mask gw metric intf ttl)) net mask) ∧
    ((ttl : Int) ≠ rtInf →
      (ExpiresOnTime (rtadd table net mask gw metric intf ttl) net mask ttl deltas ↔
        Told net ttl deltas)) := by
  have shaped : Shaped table := by
    apply reached.invariant
    · constructor <;> simp [rtinit]
    · intro before call shaped _
      exact routeStep_shaped shaped call
  have after := present_after shaped added
  constructor
  · intro infinite
    have stops : Stops net (toShort ttl) := by
      have short : toShort rtInf = rtInf := by decide
      rw [infinite, short, Stops]
      split_ifs
      · exact le_refl _
      · rfl
    rw [after, ttlAfter_stopped stops]
    rfl
  · intro _
    rw [← told_iff]
    constructor
    · intro expires count short
      rw [← after]
      constructor
      · intro present
        by_contra past
        exact expires.removed count short (by omega) present
      · intro before
        exact expires.present (count + 1) short (by omega)
    · intro told
      constructor
      · intro count short before
        rw [after]
        cases count with
        | zero => rfl
        | succ count =>
            rw [told count short]
            omega
      · intro count short past
        rw [after, told count short]
        omega

/-- The ttl of the routes that redirects bring. -/
theorem redirect_route_expires :
    ExpiresOnTime (rtadd rtinit 0x0a000000 0xff000000 0x0a000001 1 1 300) 0x0a000000 0xff000000
      300 [100, 199, 1] :=
  ((route_expiry_iff rtinit Reach.start 0x0a000000 0xff000000 0x0a000001 1 1 300 (by decide)
    [100, 199, 1]).2 (by decide)).mpr (by decide)

/-- One second after it was added, a route with a ttl of 1000 seconds is one without a timeout. -/
theorem countdown_meets_inf :
    ¬ ∀ (table : RouteTable), Reach routeStep (fun _ _ => True) rtinit table →
      ∀ (net mask gw : IPaddr) (metric intf ttl : Nat),
        Added table net mask gw metric intf ttl → (ttl : Int) ≠ rtInf → ∀ deltas : List Nat,
          ExpiresOnTime (rtadd table net mask gw metric intf ttl) net mask ttl deltas := by
  intro always
  have expires := always rtinit Reach.start 0x0a000000 0xff000000 0x0a000001 1 1 1000 (by decide)
    (by decide) [1, 999]
  exact expires.removed 1 (by decide) (by decide) (by decide)

end MvsXinu.Routing
