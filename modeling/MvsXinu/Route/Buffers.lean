import MvsXinu.Lib.References
import MvsXinu.Lib.Runs
import MvsXinu.Route.LongestPrefix

/-!
# Routes in their buffers (`rtadd.c`, `rtdel.c`, `rttimer.c`, `rtget.c`, `rtfree.c`, `rtnew.c`)

Below the table of `Table.lean` the routes are buffers of the pool `ri_bpool` with a count of
references, `rt_refcnt`, and the buckets are lists of buffers. `held` has a buffer once for
each `rtget` that returned it and has not been followed by its `rtfree`. The calls are made
under `ri_mutex`, so each is one step; an `rtadd` that finds the pool empty waits in `getbuf`
and does nothing yet.
-/

namespace MvsXinu.Routing

open MvsXinu.References MvsXinu.Runs

set_option autoImplicit false

def rtBpsize : Nat := 100

structure RouteStore where
  route : Nat → Route
  counts : Counts Nat
  rttable : Nat → List Nat
  riDefault : Option Nat
  held : List Nat

def storeInit : RouteStore where
  route := fun _ => rtnew 0 0 0 0 0 0
  counts := { count := fun _ => 0, pool := List.range rtBpsize }
  rttable := fun _ => []
  riDefault := none
  held := []

/-- The macro `RTFREE`. -/
def RouteStore.rtfreeMacro (s : RouteStore) (prt : Nat) : RouteStore :=
  { s with counts := s.counts.release prt }

def RouteStore.setRoute (s : RouteStore) (prt : Nat) (route : Route) : RouteStore :=
  { s with route := Function.update s.route prt route }

def RouteStore.setBucket (s : RouteStore) (hv : Nat) (bucket : List Nat) : RouteStore :=
  { s with rttable := Function.update s.rttable hv bucket }

/-- The scan of `rtadd`: what it has passed, where it stopped, and whether at a duplicate. -/
def scanBucket (route : Nat → Route) (prt : Route) : List Nat → List Nat × List Nat × Bool
  | [] => ([], [], false)
  | srt :: rest =>
      if (route srt).rtKey < prt.rtKey then ([], srt :: rest, false)
      else if (route srt).rtNet = prt.rtNet ∧ (route srt).rtMask = prt.rtMask then
        ([], srt :: rest, true)
      else
        let found := scanBucket route prt rest
        (srt :: found.1, found.2)

/-- `rtadd` from the scan on, for the new route in the buffer `prt`. -/
def chainAt (s : RouteStore) (prt hv : Nat) : RouteStore :=
  match scanBucket s.route (s.route prt) (s.rttable hv) with
  | (before, srt :: rest, true) =>
      if (s.route srt).rtGw = (s.route prt).rtGw then
        (s.setRoute srt { s.route srt with rtMetric := (s.route prt).rtMetric }).rtfreeMacro prt
      else if (s.route srt).rtMetric ≤ (s.route prt).rtMetric then s.rtfreeMacro prt
      else (s.setBucket hv (before ++ prt :: rest)).rtfreeMacro srt
  | (before, rest, _) => s.setBucket hv (before ++ prt :: rest)

/-- The default route that was there is let go. -/
def dropDefault (s : RouteStore) : RouteStore :=
  match s.riDefault with
  | none => s
  | some old => { s.rtfreeMacro old with riDefault := none }

/-- The new route in its buffer, before it is linked in. -/
def RouteStore.made (s : RouteStore) (prt : Nat) (rest : List Nat) (route : Route) : RouteStore :=
  { s.setRoute prt route with counts := s.counts.take prt rest }

def addRoute (s : RouteStore) (net mask gw : IPaddr) (metric intf ttl : Nat) : RouteStore :=
  match s.counts.pool with
  | [] => s
  | prt :: rest =>
      let made := s.made prt rest
        { rtnew net mask gw metric intf ttl with rtKey := maskBits mask }
      if net = ipAnyaddr then { dropDefault made with riDefault := some prt }
      else chainAt made prt (rthash net)

def deleteRoute (s : RouteStore) (net mask : IPaddr) : RouteStore :=
  if (s.riDefault.map fun prt => (s.route prt).rtNet) = some net then dropDefault s
  else
    let hv := rthash net
    let named := fun prt => decide (net = (s.route prt).rtNet ∧ mask = (s.route prt).rtMask)
    match (s.rttable hv).find? named with
    | none => s
    | some prt => (s.setBucket hv ((s.rttable hv).eraseP named)).rtfreeMacro prt

/-- The route with what is left of its time. -/
def countDown (delta : Nat) (prt : Route) : Route :=
  if prt.rtTtl ≠ rtInf then { prt with rtTtl := toShort (prt.rtTtl - delta) } else prt

/-- The walk of `rttimer` along a bucket: `before` are the routes it has kept. -/
def ageWalk (delta index : Nat) (before : List Nat) : List Nat → RouteStore → RouteStore
  | [], s => s
  | prt :: rest, s =>
      let aged := s.setRoute prt (countDown delta (s.route prt))
      if (aged.route prt).rtTtl ≤ 0 then
        ageWalk delta index before rest ((aged.setBucket index (before ++ rest)).rtfreeMacro prt)
      else ageWalk delta index (before ++ [prt]) rest aged

def ageBuckets (delta : Nat) (s : RouteStore) (indices : List Nat) : RouteStore :=
  indices.foldl (fun s index => ageWalk delta index [] (s.rttable index) s) s

def ageStoredDefault (delta : Nat) (s : RouteStore) : RouteStore :=
  match s.riDefault with
  | none => s
  | some prt =>
      if (s.route prt).rtTtl < rtInf then
        let aged := s.setRoute prt
          { s.route prt with rtTtl := toShort ((s.route prt).rtTtl - delta) }
        if (aged.route prt).rtTtl ≤ 0 then dropDefault aged else aged
      else s

def ageRoutes (s : RouteStore) (delta : Nat) : RouteStore :=
  ageStoredDefault delta (ageBuckets delta s (List.range rtTsize))

/-- The buffer that `rtget` returns. -/
def findRoute (nif : List Netif) (s : RouteStore) (dest : IPaddr) (islocal : Bool) : Option Nat :=
  let found := (s.rttable (rthash dest)).find? fun prt => usable nif dest islocal (s.route prt)
  (found.or s.riDefault).filter fun prt => decide ((s.route prt).rtMetric < rtmInf)

def getRoute (nif : List Netif) (s : RouteStore) (dest : IPaddr) (islocal : Bool) : RouteStore :=
  match findRoute nif s dest islocal with
  | none => s
  | some prt => { s with counts := s.counts.share prt, held := prt :: s.held }

def freeRoute (s : RouteStore) (prt : Nat) : RouteStore :=
  { s.rtfreeMacro prt with held := s.held.erase prt }

inductive StoreEvent where
  | change (call : RouteCall)
  | rtget (nif : List Netif) (dest : IPaddr) (islocal : Bool)
  | rtfree (prt : Nat)

def storeStep (s : RouteStore) : StoreEvent → RouteStore
  | .change (.rtadd net mask gw metric intf ttl) => addRoute s net mask gw metric intf ttl
  | .change (.rtdel net mask) => deleteRoute s net mask
  | .change (.rttimer delta) => ageRoutes s delta
  | .rtget nif dest islocal => getRoute nif s dest islocal
  | .rtfree prt => freeRoute s prt

/-- Each `rtfree` is paired with an earlier `rtget`. -/
def Paired (s : RouteStore) : StoreEvent → Prop
  | .rtfree prt => prt ∈ s.held
  | .change _ | .rtget _ _ _ => True

def Linked (s : RouteStore) (prt : Nat) : Prop :=
  (∃ index, prt ∈ s.rttable index) ∨ s.riDefault = some prt

/-- What the table is to be. -/
structure Represented (s : RouteStore) : Prop where
  sorted : ∀ index, (s.rttable index).Pairwise fun first second =>
    (s.route second).rtKey ≤ (s.route first).rtKey
  distinct : ∀ index, (s.rttable index).Pairwise fun first second =>
    ¬ ((s.route first).rtNet = (s.route second).rtNet ∧
      (s.route first).rtMask = (s.route second).rtMask)
  hashed : ∀ index, ∀ prt ∈ s.rttable index, rthash (s.route prt).rtNet = index
  linkedCount : ∀ prt, Linked s prt → (s.counts.count prt).toInt = 1 + s.held.count prt
  heldCount : ∀ prt ∈ s.held, ¬ Linked s prt → (s.counts.count prt).toInt = s.held.count prt
  inUse : ∀ prt, Linked s prt ∨ prt ∈ s.held → s.counts.pool.count prt = 0
  released : ∀ prt, prt < rtBpsize → ¬ Linked s prt → prt ∉ s.held →
    s.counts.pool.count prt = 1

/-! ## The shape of the table -/

def Unlike (first second : Route) : Prop :=
  ¬ (first.rtNet = second.rtNet ∧ first.rtMask = second.rtMask)

structure Shaped (table : RouteTable) : Prop where
  hashed : ∀ index, ∀ prt ∈ table.rttable index, rthash prt.rtNet = index
  keyed : ∀ index, ∀ prt ∈ table.rttable index, prt.rtKey = maskBits prt.rtMask
  named : ∀ index, ∀ prt ∈ table.rttable index, prt.rtNet ≠ ipAnyaddr
  sorted : ∀ index, (table.rttable index).Pairwise fun first second => second.rtKey ≤ first.rtKey
  distinct : ∀ index, (table.rttable index).Pairwise Unlike
  default : ∀ prt ∈ table.riDefault, prt.rtNet = ipAnyaddr

/-- The scan stops at a shorter mask only after all the routes with the same mask. -/
theorem chainIn_distinct (prt : Route) (routes : List Route)
    (keyed : ∀ old ∈ routes, old.rtKey = maskBits old.rtMask)
    (key : prt.rtKey = maskBits prt.rtMask)
    (sorted : routes.Pairwise fun first second => second.rtKey ≤ first.rtKey)
    (distinct : routes.Pairwise Unlike) : (chainIn prt routes).Pairwise Unlike := by
  induction routes with
  | nil => simp [chainIn]
  | cons srt rest ih =>
      obtain ⟨longest, sortedRest⟩ := List.pairwise_cons.mp sorted
      obtain ⟨apart, distinctRest⟩ := List.pairwise_cons.mp distinct
      unfold chainIn
      split_ifs with shorter duplicate gateway worse
      · apply List.pairwise_cons.mpr
        refine ⟨?_, distinct⟩
        rintro other member ⟨-, sameMask⟩
        have otherKey := keyed other member
        have below : other.rtKey ≤ srt.rtKey := by
          rcases List.mem_cons.mp member with rfl | behind
          · exact le_refl _
          · exact longest other behind
        rw [← sameMask, ← key] at otherKey
        omega
      · exact List.pairwise_cons.mpr ⟨apart, distinctRest⟩
      · exact distinct
      · apply List.pairwise_cons.mpr
        refine ⟨?_, distinctRest⟩
        intro other member same
        apply apart other member
        rw [duplicate.1, duplicate.2]
        exact same
      · apply List.pairwise_cons.mpr
        refine ⟨?_, ih (fun old member => keyed old (List.mem_cons_of_mem _ member)) sortedRest
          distinctRest⟩
        intro other member same
        rcases mem_chainIn prt rest other member with rfl | ⟨old, found, net, mask, -⟩
        · exact duplicate same
        · apply apart old found
          rw [← net, ← mask]
          exact same

theorem shaped_update {table : RouteTable} (shaped : Shaped table) (hv : Nat)
    (bucket : List Route) (hashed : ∀ prt ∈ bucket, rthash prt.rtNet = hv)
    (keyed : ∀ prt ∈ bucket, prt.rtKey = maskBits prt.rtMask)
    (named : ∀ prt ∈ bucket, prt.rtNet ≠ ipAnyaddr)
    (sorted : bucket.Pairwise fun first second => second.rtKey ≤ first.rtKey)
    (distinct : bucket.Pairwise Unlike) :
    Shaped { table with rttable := Function.update table.rttable hv bucket } := by
  refine ⟨?_, ?_, ?_, ?_, ?_, shaped.default⟩
  all_goals
    intro index
    by_cases same : index = hv
    · subst same
      simpa using by assumption
    · simp only [Function.update_of_ne same]
      first
        | exact shaped.hashed index
        | exact shaped.keyed index
        | exact shaped.named index
        | exact shaped.sorted index
        | exact shaped.distinct index

theorem rtadd_shaped {table : RouteTable} (shaped : Shaped table) (net mask gw : IPaddr)
    (metric intf ttl : Nat) : Shaped (rtadd table net mask gw metric intf ttl) := by
  unfold rtadd
  dsimp only
  split_ifs with isDefault
  · refine ⟨shaped.hashed, shaped.keyed, shaped.named, shaped.sorted, shaped.distinct, ?_⟩
    intro prt isNew
    rw [← Option.some.inj isNew]
    exact isDefault
  · apply shaped_update shaped
    · intro prt member
      rcases mem_chainIn _ _ prt member with rfl | ⟨old, found, sameNet, -, -⟩
      · rfl
      · rw [sameNet]
        exact shaped.hashed _ old found
    · intro prt member
      rcases mem_chainIn _ _ prt member with rfl | ⟨old, found, -, sameMask, sameKey⟩
      · rfl
      · rw [sameMask, sameKey]
        exact shaped.keyed _ old found
    · intro prt member
      rcases mem_chainIn _ _ prt member with rfl | ⟨old, found, sameNet, -, -⟩
      · exact isDefault
      · rw [sameNet]
        exact shaped.named _ old found
    · exact chainIn_ordered _ _ (shaped.keyed _) rfl (shaped.sorted _)
    · exact chainIn_distinct _ _ (shaped.keyed _) rfl (shaped.sorted _) (shaped.distinct _)

theorem rtdel_shaped {table : RouteTable} (shaped : Shaped table) (net mask : IPaddr) :
    Shaped (rtdel table net mask).2 := by
  unfold rtdel
  dsimp only
  split_ifs
  · refine ⟨shaped.hashed, shaped.keyed, shaped.named, shaped.sorted, shaped.distinct, ?_⟩
    intro prt isDefault
    cases isDefault
  · have sublist := List.eraseP_sublist (p := fun prt : Route =>
      decide (net = prt.rtNet ∧ mask = prt.rtMask)) (l := table.rttable (rthash net))
    apply shaped_update shaped
    · exact fun prt member => shaped.hashed _ prt (sublist.subset member)
    · exact fun prt member => shaped.keyed _ prt (sublist.subset member)
    · exact fun prt member => shaped.named _ prt (sublist.subset member)
    · exact (shaped.sorted _).sublist sublist
    · exact (shaped.distinct _).sublist sublist
  · exact shaped

theorem rttimer_shaped {table : RouteTable} (shaped : Shaped table) (delta : Nat) :
    Shaped (rttimer table delta) := by
  have fields := ageRoute_fields delta
  refine ⟨?_, ?_, ?_, ?_, ?_, ?_⟩
  · intro index prt member
    obtain ⟨old, found, kept⟩ := List.mem_filterMap.mp member
    rw [(fields old prt kept).1]
    exact shaped.hashed index old found
  · intro index prt member
    obtain ⟨old, found, kept⟩ := List.mem_filterMap.mp member
    rw [(fields old prt kept).2.1, (fields old prt kept).2.2]
    exact shaped.keyed index old found
  · intro index prt member
    obtain ⟨old, found, kept⟩ := List.mem_filterMap.mp member
    rw [(fields old prt kept).1]
    exact shaped.named index old found
  · intro index
    apply List.Pairwise.filterMap _ _ (shaped.sorted index)
    intro first second order younger keptFirst older keptSecond
    rw [(fields first younger keptFirst).2.2, (fields second older keptSecond).2.2]
    exact order
  · intro index
    apply List.Pairwise.filterMap _ _ (shaped.distinct index)
    intro first second unlike younger keptFirst older keptSecond
    unfold Unlike
    rw [(fields first younger keptFirst).1, (fields second older keptSecond).1,
      (fields first younger keptFirst).2.1, (fields second older keptSecond).2.1]
    exact unlike
  · intro prt isDefault
    obtain ⟨old, found, kept⟩ := Option.bind_eq_some_iff.mp isDefault
    have sameNet : prt.rtNet = old.rtNet := by
      unfold ageDefault at kept
      dsimp only at kept
      split_ifs at kept
      · rw [← Option.some.inj kept]
      · rw [← Option.some.inj kept]
    rw [sameNet]
    exact shaped.default old found

theorem routeStep_shaped {table : RouteTable} (shaped : Shaped table) (call : RouteCall) :
    Shaped (routeStep table call) := by
  cases call with
  | rtadd net mask gw metric intf ttl => exact rtadd_shaped shaped net mask gw metric intf ttl
  | rtdel net mask => exact rtdel_shaped shaped net mask
  | rttimer delta => exact rttimer_shaped shaped delta

/-! ## The table behind the buffers -/

def RouteStore.view (s : RouteStore) : RouteTable where
  rttable := fun index => (s.rttable index).map s.route
  riDefault := s.riDefault.map s.route

/-- No buffer is in the table twice. -/
structure Separate (s : RouteStore) : Prop where
  nodup : ∀ index, (s.rttable index).Nodup
  apart : ∀ index other prt, prt ∈ s.rttable index → prt ∈ s.rttable other → index = other
  default : ∀ index prt, prt ∈ s.rttable index → s.riDefault ≠ some prt

theorem Shaped.separate {s : RouteStore} (shaped : Shaped s.view) : Separate s := by
  constructor
  · intro index
    have unlike := List.pairwise_map.mp (shaped.distinct index)
    apply unlike.imp
    rintro first second differ rfl
    exact differ ⟨rfl, rfl⟩
  · intro index other prt member memberOther
    rw [← shaped.hashed index (s.route prt) (List.mem_map_of_mem member)]
    exact shaped.hashed other (s.route prt) (List.mem_map_of_mem memberOther)
  · intro index prt member isDefault
    apply shaped.named index (s.route prt) (List.mem_map_of_mem member)
    apply shaped.default
    simp [RouteStore.view, isDefault]

theorem map_update_of_not_mem {route : Nat → Route} {prt : Nat} {value : Route}
    {bucket : List Nat} (absent : prt ∉ bucket) :
    bucket.map (Function.update route prt value) = bucket.map route := by
  apply List.map_congr_left
  intro other member
  apply Function.update_of_ne
  rintro rfl
  exact absent member

theorem scanBucket_split (route : Nat → Route) (prt : Route) (bucket : List Nat) :
    bucket = (scanBucket route prt bucket).1 ++ (scanBucket route prt bucket).2.1 := by
  induction bucket with
  | nil => rfl
  | cons srt rest ih =>
      unfold scanBucket
      split_ifs
      · rfl
      · rfl
      · simp only [List.cons_append]
        rw [← ih]

/-- Where the scan stopped `rtadd` does what `chainIn` does. -/
theorem chainIn_map (route : Nat → Route) (prt : Route) (bucket : List Nat) :
    chainIn prt (bucket.map route) =
      match scanBucket route prt bucket with
      | (before, srt :: rest, true) =>
          before.map route ++
            (if (route srt).rtGw = prt.rtGw then { route srt with rtMetric := prt.rtMetric }
              else if (route srt).rtMetric ≤ prt.rtMetric then route srt else prt) ::
            rest.map route
      | (before, rest, _) => before.map route ++ prt :: rest.map route := by
  induction bucket with
  | nil => rfl
  | cons srt rest ih =>
      simp only [List.map_cons]
      unfold chainIn scanBucket
      split_ifs with shorter duplicate gateway worse
      · rfl
      · simp [gateway]
      · simp [gateway, worse]
      · simp [gateway, worse]
      · rw [ih]
        rcases found : scanBucket route prt rest with ⟨before, behind, isdup⟩
        cases behind with
        | nil => simp
        | cons next others =>
            cases isdup with
            | true => simp
            | false => simp

theorem setBucket_view (s : RouteStore) (hv : Nat) (bucket : List Nat) :
    (s.setBucket hv bucket).view =
      { s.view with
        rttable := Function.update s.view.rttable hv (bucket.map s.route) } := by
  unfold RouteStore.view RouteStore.setBucket
  congr 1
  funext index
  by_cases same : index = hv
  · subst same
    simp
  · simp [Function.update_of_ne same]

theorem setRoute_view {s : RouteStore} (separate : Separate s) {prt hv : Nat}
    (member : prt ∈ s.rttable hv) (value : Route) :
    (s.setRoute prt value).view =
      { s.view with
        rttable := Function.update s.view.rttable hv
          ((s.rttable hv).map (Function.update s.route prt value)) } := by
  unfold RouteStore.view RouteStore.setRoute
  congr 1
  · funext index
    by_cases same : index = hv
    · subst same
      simp
    · have absent : prt ∉ s.rttable index := fun other =>
        same (separate.apart index hv prt other member)
      simp only [Function.update_of_ne same]
      exact map_update_of_not_mem absent
  · cases isDefault : s.riDefault with
    | none => rfl
    | some old =>
        have away : old ≠ prt := by
          rintro rfl
          exact separate.default hv old member isDefault
        simp [Function.update_of_ne away]

theorem rtfreeMacro_view (s : RouteStore) (prt : Nat) : (s.rtfreeMacro prt).view = s.view := rfl

theorem chainAt_view {s : RouteStore} (separate : Separate s) (prt hv : Nat) :
    (chainAt s prt hv).view =
      { s.view with
        rttable := Function.update s.view.rttable hv
          (chainIn (s.route prt) (s.view.rttable hv)) } := by
  have split := scanBucket_split s.route (s.route prt) (s.rttable hv)
  have chained : chainIn (s.route prt) (s.view.rttable hv) = _ :=
    chainIn_map s.route (s.route prt) (s.rttable hv)
  rw [chained]
  unfold chainAt
  rcases found : scanBucket s.route (s.route prt) (s.rttable hv) with ⟨before, behind, isdup⟩
  rw [found] at split
  dsimp only at split
  cases behind with
  | nil =>
      simp only
      rw [setBucket_view]
      simp
  | cons srt rest =>
      cases isdup with
      | false =>
          simp only
          rw [setBucket_view]
          simp
      | true =>
          simp only
          have member : srt ∈ s.rttable hv := by
            rw [split]
            simp
          have nodup := separate.nodup hv
          rw [split] at nodup
          have absent : srt ∉ before ++ rest := (List.nodup_middle.mp nodup).notMem
          rw [List.mem_append, not_or] at absent
          split_ifs with gateway worse
          · rw [rtfreeMacro_view, setRoute_view separate member, split]
            simp [map_update_of_not_mem absent.1, map_update_of_not_mem absent.2]
          · have same : before.map s.route ++ s.route srt :: rest.map s.route =
                s.view.rttable hv := by
              change _ = (s.rttable hv).map s.route
              rw [split]
              simp
            rw [rtfreeMacro_view, same, Function.update_eq_self]
          · rw [rtfreeMacro_view, setBucket_view]
            simp

theorem dropDefault_view (s : RouteStore) :
    (dropDefault s).view = { s.view with riDefault := none } := by
  unfold dropDefault
  cases isDefault : s.riDefault with
  | none => simp [RouteStore.view, isDefault]
  | some old => rfl

theorem setRoute_fresh_view {s : RouteStore} {prt : Nat} (fresh : ¬ Linked s prt)
    (value : Route) : (s.setRoute prt value).view = s.view := by
  unfold Linked at fresh
  rw [not_or, not_exists] at fresh
  unfold RouteStore.view RouteStore.setRoute
  congr 1
  · funext index
    exact map_update_of_not_mem (fresh.1 index)
  · cases isDefault : s.riDefault with
    | none => rfl
    | some old =>
        have away : old ≠ prt := by
          rintro rfl
          exact fresh.2 isDefault
        simp [Function.update_of_ne away]

theorem newDefault_view (s : RouteStore) (prt : Nat) :
    RouteStore.view { dropDefault s with riDefault := some prt } =
      { s.view with riDefault := some (s.route prt) } := by
  unfold dropDefault
  cases s.riDefault with
  | none => rfl
  | some old => rfl

theorem made_route (s : RouteStore) (prt : Nat) (rest : List Nat) (route : Route) :
    (s.made prt rest route).route prt = route := by
  simp [RouteStore.made, RouteStore.setRoute]

theorem addRoute_view {s : RouteStore} (shaped : Shaped s.view) {prt : Nat} {rest : List Nat}
    (shape : s.counts.pool = prt :: rest) (fresh : ¬ Linked s prt) (net mask gw : IPaddr)
    (metric intf ttl : Nat) :
    (addRoute s net mask gw metric intf ttl).view = rtadd s.view net mask gw metric intf ttl := by
  unfold addRoute rtadd
  rw [shape]
  dsimp only
  generalize isNew : ({ rtnew net mask gw metric intf ttl with rtKey := maskBits mask } : Route) =
    new
  have same : (s.made prt rest new).view = s.view := setRoute_fresh_view fresh new
  have separate : Separate (s.made prt rest new) := by
    apply Shaped.separate
    rw [same]
    exact shaped
  split_ifs with isDefault
  · rw [newDefault_view, same, made_route]
  · rw [chainAt_view separate, same, made_route]

theorem deleteRoute_view (s : RouteStore) (net mask : IPaddr) :
    (deleteRoute s net mask).view = (rtdel s.view net mask).2 := by
  have default : s.view.riDefault.map Route.rtNet =
      s.riDefault.map fun prt => (s.route prt).rtNet := by
    simp [RouteStore.view, Option.map_map, Function.comp_def]
  unfold deleteRoute rtdel
  rw [default]
  dsimp only
  split_ifs with isDefault named
  · exact dropDefault_view s
  · cases found : (s.rttable (rthash net)).find? fun prt =>
        decide (net = (s.route prt).rtNet ∧ mask = (s.route prt).rtMask) with
    | none =>
        obtain ⟨route, member, isNamed⟩ := List.any_eq_true.mp named
        obtain ⟨prt, inBucket, rfl⟩ := List.mem_map.mp member
        exact absurd isNamed (List.find?_eq_none.mp found prt inBucket)
    | some prt =>
        rw [rtfreeMacro_view, setBucket_view]
        simp only [RouteStore.view, List.eraseP_map, Function.comp_def]
  · cases found : (s.rttable (rthash net)).find? fun prt =>
        decide (net = (s.route prt).rtNet ∧ mask = (s.route prt).rtMask) with
    | none => rfl
    | some prt =>
        have member := List.mem_map_of_mem (f := s.route) (List.mem_of_find?_eq_some found)
        have isNamed := List.find?_some found
        exact absurd (List.any_eq_true.mpr ⟨_, member, isNamed⟩) named

theorem ageRoute_eq (delta : Nat) (prt : Route) :
    ageRoute delta prt =
      if (countDown delta prt).rtTtl ≤ 0 then none else some (countDown delta prt) := rfl

/-- What the walk along one bucket leaves as it is, and what becomes of the bucket. -/
structure Walked (s later : RouteStore) (delta index : Nat) (before bucket : List Nat) : Prop where
  held : later.held = s.held
  riDefault : later.riDefault = s.riDefault
  others : ∀ other, other ≠ index → later.rttable other = s.rttable other
  routes : ∀ prt, prt ∉ bucket → later.route prt = s.route prt
  fewer : (later.rttable index).Sublist (before ++ bucket)
  aged : (later.rttable index).map later.route =
    before.map s.route ++ (bucket.map s.route).filterMap (ageRoute delta)

theorem ageWalk_walked (delta index : Nat) (bucket : List Nat) :
    ∀ (before : List Nat) (s : RouteStore), s.rttable index = before ++ bucket →
      (before ++ bucket).Nodup → Walked s (ageWalk delta index before bucket s) delta index
        before bucket := by
  induction bucket with
  | nil =>
      intro before s shape nodup
      refine ⟨rfl, rfl, fun _ _ => rfl, fun _ _ => rfl, ?_, ?_⟩
      · rw [← shape]
        exact List.Sublist.refl _
      · rw [ageWalk, shape]
        simp
  | cons prt rest ih =>
      intro before s shape nodup
      have absent := (List.nodup_middle.mp nodup).notMem
      have joined := (List.nodup_middle.mp nodup).of_cons
      rw [List.mem_append, not_or] at absent
      have sameRoute : ∀ other, other ≠ prt →
          (s.setRoute prt (countDown delta (s.route prt))).route other = s.route other := by
        intro other away
        simp [RouteStore.setRoute, Function.update_of_ne away]
      have ownRoute : (s.setRoute prt (countDown delta (s.route prt))).route prt =
          countDown delta (s.route prt) := by
        simp [RouteStore.setRoute]
      have mapBefore : before.map (Function.update s.route prt (countDown delta (s.route prt))) =
          before.map s.route := map_update_of_not_mem absent.1
      have mapRest : rest.map (Function.update s.route prt (countDown delta (s.route prt))) =
          rest.map s.route := map_update_of_not_mem absent.2
      unfold ageWalk
      dsimp only
      rw [ownRoute]
      split_ifs with expired
      · have walked := ih before (((s.setRoute prt (countDown delta (s.route prt))).setBucket index
          (before ++ rest)).rtfreeMacro prt)
          (by simp [RouteStore.setBucket, RouteStore.rtfreeMacro]) joined
        refine ⟨walked.held, walked.riDefault, ?_, ?_, ?_, ?_⟩
        · intro other away
          rw [walked.others other away]
          simp [RouteStore.setBucket, RouteStore.rtfreeMacro, RouteStore.setRoute,
            Function.update_of_ne away]
        · intro other notIn
          rw [List.mem_cons, not_or] at notIn
          rw [walked.routes other notIn.2]
          exact sameRoute other notIn.1
        · exact walked.fewer.trans
            (List.Sublist.append_left (List.sublist_cons_self prt rest) before)
        · rw [walked.aged, List.map_cons, List.filterMap_cons, ageRoute_eq, if_pos expired]
          exact congrArg₂ (fun front back => front ++ List.filterMap (ageRoute delta) back)
            mapBefore mapRest
      · have walked := ih (before ++ [prt]) (s.setRoute prt (countDown delta (s.route prt)))
          (by simpa [RouteStore.setRoute] using shape) (by simpa using nodup)
        refine ⟨walked.held, walked.riDefault, walked.others, ?_, ?_, ?_⟩
        · intro other notIn
          rw [List.mem_cons, not_or] at notIn
          rw [walked.routes other notIn.2]
          exact sameRoute other notIn.1
        · simpa using walked.fewer
        · rw [walked.aged, List.map_cons, List.filterMap_cons, ageRoute_eq, if_neg expired]
          simp only [List.map_append, List.map_cons, List.map_nil, ownRoute, List.append_assoc,
            List.cons_append, List.nil_append]
          exact congrArg₂ (fun front back => front ++ countDown delta (s.route prt) ::
            List.filterMap (ageRoute delta) back) mapBefore mapRest

end MvsXinu.Routing
