import MvsXinu.Route.Buffers

/-!
# References to routes

The table has one reference to each of its routes and each holder has one. The calls take and
release them one by one, so the counts are those of the library, and the table behind the
buffers goes through the steps of `Table.lean`.
-/

namespace MvsXinu.Routing

open MvsXinu.References MvsXinu.Runs

set_option autoImplicit false

/-! ## References -/

open Classical in
/-- The references to a buffer: that of the table, and those that are held. -/
noncomputable def tally (s : RouteStore) (prt : Nat) : Nat :=
  (if Linked s prt then 1 else 0) + s.held.count prt

def IsBuffer (prt : Nat) : Prop := prt < rtBpsize

def RouteStore.Accounted (s : RouteStore) : Prop := Tallied s.counts IsBuffer (tally s)

theorem tally_linked {s : RouteStore} {prt : Nat} (linked : Linked s prt) :
    tally s prt = 1 + s.held.count prt := by
  unfold tally
  rw [if_pos linked]

theorem tally_unlinked {s : RouteStore} {prt : Nat} (unlinked : ¬ Linked s prt) :
    tally s prt = s.held.count prt := by
  unfold tally
  rw [if_neg unlinked, Nat.zero_add]

/-- Where the table still refers to the same buffers, the tallies differ by the holders. -/
theorem tally_holders {s later : RouteStore} {prt : Nat}
    (links : Linked later prt ↔ Linked s prt) :
    tally later prt + s.held.count prt = tally s prt + later.held.count prt := by
  by_cases linked : Linked s prt
  · rw [tally_linked linked, tally_linked (links.mpr linked)]
    omega
  · rw [tally_unlinked linked, tally_unlinked (fun still => linked (links.mp still))]
    omega

theorem tally_congr {s later : RouteStore} {prt : Nat} (links : Linked later prt ↔ Linked s prt)
    (held : later.held = s.held) : tally later prt = tally s prt := by
  have holders := tally_holders links
  rw [held] at holders
  omega

section Accounts

variable {s later : RouteStore} {prt : Nat}

/-- A route leaves the table, and the table's reference to it is released. -/
theorem RouteStore.Accounted.unlink (accounted : s.Accounted) (linked : Linked s prt)
    (counts : later.counts = s.counts.release prt) (held : later.held = s.held)
    (links : ∀ other, Linked later other ↔ Linked s other ∧ other ≠ prt) : later.Accounted := by
  have used : 0 < tally s prt := by
    rw [tally_linked linked]
    omega
  unfold RouteStore.Accounted
  rw [counts]
  apply (Tallied.release accounted used).of_eq
  intro other
  by_cases same : other = prt
  · rw [same, Function.update_self, tally_linked linked,
      tally_unlinked (fun still => ((links prt).mp still).2 rfl), held]
    omega
  · rw [Function.update_of_ne same]
    apply tally_congr _ held
    rw [links other]
    exact ⟨And.left, fun still => ⟨still, same⟩⟩

theorem RouteStore.Accounted.fresh (accounted : s.Accounted) {rest : List Nat}
    (shape : s.counts.pool = prt :: rest) : tally s prt = 0 := by
  by_contra used
  have none := Tallied.inUse accounted prt (Nat.pos_of_ne_zero used)
  rw [shape, List.count_cons_self] at none
  omega

theorem not_linked_of_tally (none : tally s prt = 0) : ¬ Linked s prt := by
  intro linked
  rw [tally_linked linked] at none
  omega

/-- A new route enters the table. -/
theorem RouteStore.Accounted.link (accounted : s.Accounted) {rest : List Nat}
    (shape : s.counts.pool = prt :: rest) (counts : later.counts = s.counts.take prt rest)
    (held : later.held = s.held)
    (links : ∀ other, Linked later other ↔ Linked s other ∨ other = prt) : later.Accounted := by
  have none := accounted.fresh shape
  have unlinked := not_linked_of_tally none
  rw [tally_unlinked unlinked] at none
  unfold RouteStore.Accounted
  rw [counts]
  apply (Tallied.take accounted shape).of_eq
  intro other
  by_cases same : other = prt
  · rw [same, Function.update_self, tally_linked ((links prt).mpr (Or.inr rfl)), held, none]
  · rw [Function.update_of_ne same]
    apply tally_congr _ held
    rw [links other]
    exact ⟨fun either => either.resolve_right same, Or.inl⟩

/-- A new route is not used after all. -/
theorem RouteStore.Accounted.discard (accounted : s.Accounted) {rest : List Nat}
    (shape : s.counts.pool = prt :: rest)
    (counts : later.counts = (s.counts.take prt rest).release prt) (held : later.held = s.held)
    (links : ∀ other, Linked later other ↔ Linked s other) : later.Accounted := by
  have none := accounted.fresh shape
  unfold RouteStore.Accounted
  rw [counts]
  have taken := Tallied.take accounted shape
  apply (taken.release (by rw [Function.update_self]; omega)).of_eq
  intro other
  rw [tally_congr (links other) held]
  by_cases same : other = prt
  · rw [same, Function.update_self, Function.update_self, none]
  · rw [Function.update_of_ne same, Function.update_of_ne same]

/-- A new route takes the place of another one. -/
theorem RouteStore.Accounted.replace (accounted : s.Accounted) {rest : List Nat} {old : Nat}
    (shape : s.counts.pool = prt :: rest) (linked : Linked s old)
    (counts : later.counts = (s.counts.take prt rest).release old) (held : later.held = s.held)
    (links : ∀ other, Linked later other ↔ (Linked s other ∧ other ≠ old) ∨ other = prt) :
    later.Accounted := by
  have none := accounted.fresh shape
  have unlinked := not_linked_of_tally none
  have away : old ≠ prt := by
    rintro rfl
    exact unlinked linked
  rw [tally_unlinked unlinked] at none
  have taken := Tallied.take accounted shape
  have used : 0 < Function.update (tally s) prt 1 old := by
    rw [Function.update_of_ne away, tally_linked linked]
    omega
  unfold RouteStore.Accounted
  rw [counts]
  apply (taken.release used).of_eq
  intro other
  by_cases isOld : other = old
  · rw [isOld, Function.update_self, Function.update_of_ne away, tally_linked linked,
      tally_unlinked, held]
    · omega
    · intro still
      rcases (links old).mp still with ⟨-, differs⟩ | isNew
      · exact differs rfl
      · exact away isNew
  · rw [Function.update_of_ne isOld]
    by_cases isNew : other = prt
    · rw [isNew, Function.update_self, tally_linked ((links prt).mpr (Or.inr rfl)), held, none]
    · rw [Function.update_of_ne isNew]
      apply tally_congr _ held
      rw [links other]
      exact ⟨fun either => (either.resolve_right isNew).1, fun still => Or.inl ⟨still, isOld⟩⟩

end Accounts

theorem linked_setBucket (s : RouteStore) (hv : Nat) (bucket : List Nat) (prt : Nat) :
    Linked (s.setBucket hv bucket) prt ↔
      prt ∈ bucket ∨ (∃ index, index ≠ hv ∧ prt ∈ s.rttable index) ∨ s.riDefault = some prt := by
  unfold Linked RouteStore.setBucket
  constructor
  · rintro (⟨index, member⟩ | isDefault)
    · by_cases same : index = hv
      · rw [same] at member
        exact Or.inl (by simpa using member)
      · exact Or.inr (Or.inl ⟨index, same, by simpa [Function.update_of_ne same] using member⟩)
    · exact Or.inr (Or.inr isDefault)
  · rintro (member | ⟨index, away, member⟩ | isDefault)
    · exact Or.inl ⟨hv, by simpa using member⟩
    · exact Or.inl ⟨index, by simpa [Function.update_of_ne away] using member⟩
    · exact Or.inr isDefault

theorem linked_iff (s : RouteStore) (hv : Nat) (prt : Nat) :
    Linked s prt ↔
      prt ∈ s.rttable hv ∨ (∃ index, index ≠ hv ∧ prt ∈ s.rttable index) ∨
        s.riDefault = some prt := by
  rw [← linked_setBucket s hv (s.rttable hv)]
  unfold Linked RouteStore.setBucket
  rw [Function.update_eq_self]

/-- A buffer that is cut out of its bucket is nowhere else in the table. -/
theorem linked_cut {s : RouteStore} (separate : Separate s) {hv old : Nat}
    {before rest : List Nat} (split : s.rttable hv = before ++ old :: rest) (prt : Nat) :
    Linked (s.setBucket hv (before ++ rest)) prt ↔ Linked s prt ∧ prt ≠ old := by
  have member : old ∈ s.rttable hv := by
    rw [split]
    simp
  have nodup := separate.nodup hv
  rw [split] at nodup
  have absent := (List.nodup_middle.mp nodup).notMem
  rw [linked_setBucket, linked_iff s hv, split]
  constructor
  · rintro (inBucket | ⟨index, away, inOther⟩ | isDefault)
    · refine ⟨Or.inl ?_, ?_⟩
      · simp only [List.mem_append, List.mem_cons] at inBucket ⊢
        tauto
      · rintro rfl
        exact absent inBucket
    · refine ⟨Or.inr (Or.inl ⟨index, away, inOther⟩), ?_⟩
      rintro rfl
      exact away (separate.apart index hv prt inOther member)
    · refine ⟨Or.inr (Or.inr isDefault), ?_⟩
      rintro rfl
      exact separate.default hv prt member isDefault
  · rintro ⟨inBucket | elsewhere, differs⟩
    · left
      simp only [List.mem_append, List.mem_cons] at inBucket ⊢
      tauto
    · exact Or.inr elsewhere

theorem linked_put {s : RouteStore} {hv new : Nat} {before rest : List Nat}
    (prt : Nat) :
    Linked (s.setBucket hv (before ++ new :: rest)) prt ↔
      Linked (s.setBucket hv (before ++ rest)) prt ∨ prt = new := by
  rw [linked_setBucket, linked_setBucket]
  have either : prt ∈ before ++ new :: rest ↔ prt ∈ before ++ rest ∨ prt = new := by
    simp only [List.mem_append, List.mem_cons]
    tauto
  rw [either, or_right_comm]

theorem chainAt_accounted {s : RouteStore} (accounted : s.Accounted) (separate : Separate s)
    {prt : Nat} {rest : List Nat} (shape : s.counts.pool = prt :: rest) (route : Route)
    (hv : Nat) : (chainAt (s.made prt rest route) prt hv).Accounted := by
  have split : s.rttable hv = _ := scanBucket_split (s.made prt rest route).route
    ((s.made prt rest route).route prt) (s.rttable hv)
  unfold chainAt
  rcases found : scanBucket (s.made prt rest route).route ((s.made prt rest route).route prt)
    ((s.made prt rest route).rttable hv) with ⟨before, behind, isdup⟩
  have sameTable : (s.made prt rest route).rttable = s.rttable := rfl
  rw [sameTable] at found
  rw [found] at split
  dsimp only at split
  have added : ((s.made prt rest route).setBucket hv (before ++ prt :: behind)).Accounted := by
    refine accounted.link shape rfl rfl ?_
    intro other
    rw [linked_put]
    have same : Linked ((s.made prt rest route).setBucket hv (before ++ behind)) other ↔
        Linked s other := by
      rw [← split, linked_setBucket]
      exact (linked_iff s hv other).symm
    rw [same]
  cases behind with
  | nil => exact added
  | cons srt others =>
      cases isdup with
      | false => exact added
      | true =>
          have linked : Linked s srt := Or.inl ⟨hv, by rw [split]; simp⟩
          dsimp only
          split_ifs
          · exact accounted.discard shape rfl rfl (fun _ => Iff.rfl)
          · exact accounted.discard shape rfl rfl (fun _ => Iff.rfl)
          · refine accounted.replace shape linked rfl rfl ?_
            intro other
            have cut := linked_cut separate split other
            rw [← cut]
            exact linked_put other

theorem dropDefault_accounted {s : RouteStore} (accounted : s.Accounted) (separate : Separate s) :
    (dropDefault s).Accounted := by
  unfold dropDefault
  cases isDefault : s.riDefault with
  | none => exact accounted
  | some old =>
      dsimp only
      refine accounted.unlink (Or.inr isDefault) rfl rfl ?_
      intro other
      unfold Linked
      constructor
      · rintro (⟨index, member⟩ | gone)
        · refine ⟨Or.inl ⟨index, member⟩, ?_⟩
          rintro rfl
          exact separate.default index other member isDefault
        · cases gone
      · rintro ⟨⟨index, member⟩ | still, differs⟩
        · exact Or.inl ⟨index, member⟩
        · rw [isDefault] at still
          exact absurd (Option.some.inj still).symm differs

theorem newDefault_accounted {s : RouteStore} (accounted : s.Accounted) (separate : Separate s)
    {prt : Nat} {rest : List Nat} (shape : s.counts.pool = prt :: rest) (route : Route) :
    RouteStore.Accounted
      { dropDefault (s.made prt rest route) with riDefault := some prt } := by
  unfold dropDefault
  have same : (s.made prt rest route).riDefault = s.riDefault := rfl
  rw [same]
  cases isDefault : s.riDefault with
  | none =>
      refine accounted.link shape rfl rfl ?_
      intro other
      unfold Linked
      rw [isDefault]
      constructor
      · rintro (member | isNew)
        · exact Or.inl (Or.inl member)
        · exact Or.inr (Option.some.inj isNew).symm
      · rintro ((member | impossible) | rfl)
        · exact Or.inl member
        · cases impossible
        · exact Or.inr rfl
  | some old =>
      refine accounted.replace shape (Or.inr isDefault) rfl rfl ?_
      intro other
      unfold Linked
      rw [isDefault]
      constructor
      · rintro (⟨index, member⟩ | isNew)
        · refine Or.inl ⟨Or.inl ⟨index, member⟩, ?_⟩
          rintro rfl
          exact separate.default index other member isDefault
        · exact Or.inr (Option.some.inj isNew).symm
      · rintro (⟨member | still, differs⟩ | rfl)
        · exact Or.inl member
        · exact absurd (Option.some.inj still).symm differs
        · exact Or.inr rfl

theorem addRoute_accounted {s : RouteStore} (accounted : s.Accounted) (separate : Separate s)
    (net mask gw : IPaddr) (metric intf ttl : Nat) :
    (addRoute s net mask gw metric intf ttl).Accounted := by
  unfold addRoute
  cases shape : s.counts.pool with
  | nil => exact accounted
  | cons prt rest =>
      dsimp only
      split_ifs
      · exact newDefault_accounted accounted separate shape _
      · exact chainAt_accounted accounted separate shape _ _

theorem deleteRoute_accounted {s : RouteStore} (accounted : s.Accounted) (separate : Separate s)
    (net mask : IPaddr) : (deleteRoute s net mask).Accounted := by
  unfold deleteRoute
  split_ifs
  · exact dropDefault_accounted accounted separate
  · dsimp only
    cases found : (s.rttable (rthash net)).find? fun prt =>
        decide (net = (s.route prt).rtNet ∧ mask = (s.route prt).rtMask) with
    | none => exact accounted
    | some prt =>
        dsimp only
        obtain ⟨isNamed, before, rest, split, passed⟩ := List.find?_eq_some_iff_append.mp found
        have erased : (s.rttable (rthash net)).eraseP (fun prt =>
            decide (net = (s.route prt).rtNet ∧ mask = (s.route prt).rtMask)) = before ++ rest := by
          have notNamed : ∀ other ∈ before,
              ¬ decide (net = (s.route other).rtNet ∧ mask = (s.route other).rtMask) = true := by
            intro other member
            rw [Bool.not_eq_true, ← Bool.not_eq_true']
            exact passed other member
          rw [split, List.eraseP_append_right _ notNamed, List.eraseP_cons, isNamed]
          rfl
        rw [erased]
        refine accounted.unlink (Or.inl ⟨rthash net, by rw [split]; simp⟩) rfl rfl ?_
        intro other
        exact linked_cut separate split other

theorem Separate.of_fewer {s later : RouteStore} (separate : Separate s)
    (fewer : ∀ index, (later.rttable index).Sublist (s.rttable index))
    (default : later.riDefault = s.riDefault) : Separate later := by
  constructor
  · intro index
    exact (separate.nodup index).sublist (fewer index)
  · intro index other prt member memberOther
    exact separate.apart index other prt ((fewer index).subset member)
      ((fewer other).subset memberOther)
  · intro index prt member
    rw [default]
    exact separate.default index prt ((fewer index).subset member)

theorem cut_fewer {s : RouteStore} {index prt : Nat} {before rest : List Nat}
    (shape : s.rttable index = before ++ prt :: rest) (other : Nat) :
    ((s.setBucket index (before ++ rest)).rttable other).Sublist (s.rttable other) := by
  unfold RouteStore.setBucket
  by_cases same : other = index
  · rw [same, shape]
    simp
  · simp [Function.update_of_ne same]

theorem ageWalk_accounted (delta index : Nat) (bucket : List Nat) :
    ∀ (before : List Nat) (s : RouteStore), s.rttable index = before ++ bucket → Separate s →
      s.Accounted → (ageWalk delta index before bucket s).Accounted := by
  induction bucket with
  | nil =>
      intro before s shape separate accounted
      exact accounted
  | cons prt rest ih =>
      intro before s shape separate accounted
      unfold ageWalk
      dsimp only
      split_ifs
      · have cut := linked_cut separate shape
        apply ih before
        · simp [RouteStore.setBucket, RouteStore.rtfreeMacro]
        · exact separate.of_fewer (cut_fewer shape) rfl
        · exact accounted.unlink (Or.inl ⟨index, by rw [shape]; simp⟩) rfl rfl cut
      · apply ih (before ++ [prt]) (s.setRoute prt _)
        · simpa [RouteStore.setRoute] using shape
        · exact ⟨separate.nodup, separate.apart, separate.default⟩
        · exact accounted

/-- The buckets that the loop of `rttimer` has been through are aged. -/
structure Aged (s later : RouteStore) (delta : Nat) (indices : List Nat) : Prop where
  accounted : later.Accounted
  separate : Separate later
  held : later.held = s.held
  riDefault : later.riDefault = s.riDefault
  defaultRoute : later.riDefault.map later.route = s.riDefault.map s.route
  aged : ∀ index ∈ indices, (later.rttable index).map later.route =
    ((s.rttable index).map s.route).filterMap (ageRoute delta)
  others : ∀ index, index ∉ indices →
    (later.rttable index).map later.route = (s.rttable index).map s.route

theorem ageWalk_aged {s : RouteStore} (accounted : s.Accounted) (separate : Separate s)
    (delta index : Nat) :
    Aged s (ageWalk delta index [] (s.rttable index) s) delta [index] := by
  have walked := ageWalk_walked delta index (s.rttable index) [] s rfl
    (by simpa using separate.nodup index)
  have fewer : ∀ other, ((ageWalk delta index [] (s.rttable index) s).rttable other).Sublist
      (s.rttable other) := by
    intro other
    by_cases same : other = index
    · rw [same]
      simpa using walked.fewer
    · rw [walked.others other same]
  refine ⟨?_, separate.of_fewer fewer walked.riDefault, walked.held, walked.riDefault, ?_, ?_, ?_⟩
  · exact ageWalk_accounted delta index (s.rttable index) [] s rfl separate accounted
  · rw [walked.riDefault]
    cases isDefault : s.riDefault with
    | none => rfl
    | some old =>
        have notIn : old ∉ s.rttable index := fun member =>
          separate.default index old member isDefault
        simp only [Option.map_some, walked.routes old notIn]
  · intro other member
    rw [List.mem_singleton.mp member]
    simpa using walked.aged
  · intro other notIndex
    rw [List.mem_singleton] at notIndex
    rw [walked.others other notIndex]
    apply List.map_congr_left
    intro prt member
    apply walked.routes
    intro inIndex
    exact notIndex (separate.apart other index prt member inIndex)

theorem ageBuckets_aged (delta : Nat) (indices : List Nat) :
    ∀ s : RouteStore, s.Accounted → Separate s → indices.Nodup →
      Aged s (ageBuckets delta s indices) delta indices := by
  induction indices with
  | nil =>
      intro s accounted separate _
      refine ⟨accounted, separate, rfl, rfl, rfl, ?_, fun _ _ => rfl⟩
      intro index member
      cases member
  | cons index rest ih =>
      intro s accounted separate nodup
      obtain ⟨notIn, nodupRest⟩ := List.nodup_cons.mp nodup
      have first := ageWalk_aged accounted separate delta index
      have later := ih _ first.accounted first.separate nodupRest
      refine ⟨later.accounted, later.separate, later.held.trans first.held,
        later.riDefault.trans first.riDefault, later.defaultRoute.trans first.defaultRoute, ?_, ?_⟩
      · intro other member
        rcases List.mem_cons.mp member with rfl | inRest
        · exact (later.others other notIn).trans (first.aged other List.mem_cons_self)
        · have away : other ∉ [index] := by
            rw [List.mem_singleton]
            rintro rfl
            exact notIn inRest
          rw [← first.others other away]
          exact later.aged other inRest
      · intro other outside
        rw [List.mem_cons, not_or] at outside
        exact (later.others other outside.2).trans
          (first.others other (by simpa using outside.1))

theorem rthash_lt (net : IPaddr) : rthash net < rtTsize := by
  unfold rthash
  split <;> exact Nat.mod_lt _ (by decide)

theorem ageBuckets_view {s : RouteStore} (shaped : Shaped s.view) {delta : Nat}
    {later : RouteStore} (aged : Aged s later delta (List.range rtTsize)) :
    later.view = { rttable := fun index => (s.view.rttable index).filterMap (ageRoute delta)
                   riDefault := s.view.riDefault } := by
  unfold RouteStore.view
  congr 1
  · funext index
    by_cases inTable : index ∈ List.range rtTsize
    · exact aged.aged index inTable
    · have empty : s.view.rttable index = [] := by
        apply List.eq_nil_iff_forall_not_mem.mpr
        intro prt member
        apply inTable
        rw [← shaped.hashed index prt member]
        exact List.mem_range.mpr (rthash_lt _)
      have same := aged.others index inTable
      change (later.rttable index).map later.route =
        (s.view.rttable index).filterMap (ageRoute delta)
      change _ = s.view.rttable index at same
      rw [same, empty]
      rfl
  · exact aged.defaultRoute

theorem setRoute_default_view {s : RouteStore} (separate : Separate s) {prt : Nat}
    (isDefault : s.riDefault = some prt) (value : Route) :
    (s.setRoute prt value).view = { s.view with riDefault := some value } := by
  unfold RouteStore.view RouteStore.setRoute
  congr 1
  · funext index
    apply map_update_of_not_mem
    intro member
    exact separate.default index prt member isDefault
  · simp [isDefault]

theorem ageStoredDefault_view (delta : Nat) {s : RouteStore} (separate : Separate s) :
    (ageStoredDefault delta s).view =
      { s.view with riDefault := s.view.riDefault.bind (ageDefault delta) } := by
  unfold ageStoredDefault
  cases isDefault : s.riDefault with
  | none => simp [RouteStore.view, isDefault]
  | some prt =>
      have default : s.view.riDefault = some (s.route prt) := by
        simp [RouteStore.view, isDefault]
      rw [default, Option.bind_some]
      unfold ageDefault
      dsimp only
      have ownRoute : (s.setRoute prt { s.route prt with
          rtTtl := toShort ((s.route prt).rtTtl - delta) }).route prt =
          { s.route prt with rtTtl := toShort ((s.route prt).rtTtl - delta) } := by
        simp [RouteStore.setRoute]
      rw [ownRoute]
      split_ifs
      · rw [dropDefault_view, setRoute_default_view separate isDefault]
      · rw [setRoute_default_view separate isDefault]
      · rw [← default]

theorem ageStoredDefault_accounted (delta : Nat) {s : RouteStore} (accounted : s.Accounted)
    (separate : Separate s) : (ageStoredDefault delta s).Accounted := by
  unfold ageStoredDefault
  cases s.riDefault with
  | none => exact accounted
  | some prt =>
      dsimp only
      split_ifs
      · apply dropDefault_accounted
        · exact accounted
        · exact ⟨separate.nodup, separate.apart, separate.default⟩
      · exact accounted
      · exact accounted

/-! ## Holders -/

theorem findRoute_linked {nif : List Netif} {s : RouteStore} {dest : IPaddr} {islocal : Bool}
    {prt : Nat} (found : findRoute nif s dest islocal = some prt) : Linked s prt := by
  unfold findRoute at found
  dsimp only at found
  rw [Option.filter_eq_some_iff] at found
  rcases Option.or_eq_some_iff.mp found.1 with inBucket | ⟨-, isDefault⟩
  · exact Or.inl ⟨rthash dest, List.mem_of_find?_eq_some inBucket⟩
  · exact Or.inr isDefault

/-- `rtget` returns the buffer of the route that the table gives. -/
theorem findRoute_view (nif : List Netif) (s : RouteStore) (dest : IPaddr) (islocal : Bool) :
    (findRoute nif s dest islocal).map s.route = rtget nif s.view dest islocal := by
  unfold findRoute rtget RouteStore.view
  dsimp only
  rw [List.find?_map, ← Option.map_or, Option.filter_map]
  rfl

/-- One more holder would take the count of the route out of its range. -/
def Countable (s : RouteStore) : StoreEvent → Prop
  | .rtget nif dest islocal =>
      ∀ prt ∈ findRoute nif s dest islocal, s.held.count prt < 2147483646
  | .change _ | .rtfree _ => True

theorem getRoute_accounted {s : RouteStore} (accounted : s.Accounted) (nif : List Netif)
    (dest : IPaddr) (islocal : Bool) (countable : Countable s (.rtget nif dest islocal)) :
    (getRoute nif s dest islocal).Accounted := by
  unfold getRoute
  cases found : findRoute nif s dest islocal with
  | none => exact accounted
  | some prt =>
      have linked := findRoute_linked found
      have room := countable prt found
      have value := tally_linked linked
      dsimp only
      unfold RouteStore.Accounted
      apply (Tallied.share accounted (by omega) (by omega)).of_eq
      intro other
      have links : Linked { s with counts := s.counts.share prt, held := prt :: s.held } other ↔
        Linked s other := Iff.rfl
      have holders := tally_holders links
      by_cases same : other = prt
      · rw [same, List.count_cons_self] at holders
        rw [same, Function.update_self]
        omega
      · rw [List.count_cons_of_ne (Ne.symm same)] at holders
        rw [Function.update_of_ne same]
        omega

theorem freeRoute_accounted {s : RouteStore} (accounted : s.Accounted) {prt : Nat}
    (paired : prt ∈ s.held) : (freeRoute s prt).Accounted := by
  have positive : 0 < s.held.count prt := List.count_pos_iff.mpr paired
  have used : 0 < tally s prt := by
    unfold tally
    omega
  unfold RouteStore.Accounted
  apply (Tallied.release accounted used).of_eq
  intro other
  have links : Linked (freeRoute s prt) other ↔ Linked s other := Iff.rfl
  have holders := tally_holders links
  have left : (freeRoute s prt).held = s.held.erase prt := rfl
  rw [left] at holders
  by_cases same : other = prt
  · rw [same, List.count_erase_self] at holders
    rw [same, Function.update_self]
    omega
  · rw [List.count_erase_of_ne same] at holders
    rw [Function.update_of_ne same]
    omega

/-! ## Runs -/

def RouteStore.Sound (s : RouteStore) : Prop := Shaped s.view ∧ s.Accounted

theorem ageRoutes_kept {s : RouteStore} (sound : s.Sound) (delta : Nat) :
    (ageRoutes s delta).view = rttimer s.view delta ∧ (ageRoutes s delta).Accounted := by
  obtain ⟨shaped, accounted⟩ := sound
  have aged := ageBuckets_aged delta (List.range rtTsize) s accounted shaped.separate
    List.nodup_range
  unfold ageRoutes
  constructor
  · rw [ageStoredDefault_view delta aged.separate, ageBuckets_view shaped aged]
    rfl
  · exact ageStoredDefault_accounted delta aged.accounted aged.separate

theorem getRoute_view (nif : List Netif) (s : RouteStore) (dest : IPaddr) (islocal : Bool) :
    (getRoute nif s dest islocal).view = s.view := by
  unfold getRoute
  cases findRoute nif s dest islocal with
  | none => rfl
  | some prt => rfl

/-- Each call does to the table what the call of `Table.lean` does, unless `rtadd` waits for
a buffer; `rtget` and `rtfree` leave the table. -/
theorem storeStep_view {s : RouteStore} (sound : s.Sound) (event : StoreEvent) :
    (storeStep s event).view = s.view ∨
      ∃ call, event = .change call ∧ (storeStep s event).view = routeStep s.view call := by
  obtain ⟨shaped, accounted⟩ := sound
  cases event with
  | change call =>
      cases call with
      | rtadd net mask gw metric intf ttl =>
          cases shape : s.counts.pool with
          | nil =>
              left
              simp [storeStep, addRoute, shape]
          | cons prt rest =>
              have fresh := not_linked_of_tally (accounted.fresh shape)
              exact Or.inr ⟨_, rfl, addRoute_view shaped shape fresh net mask gw metric intf ttl⟩
      | rtdel net mask => exact Or.inr ⟨_, rfl, deleteRoute_view s net mask⟩
      | rttimer delta =>
          exact Or.inr ⟨_, rfl, (ageRoutes_kept ⟨shaped, accounted⟩ delta).1⟩
  | rtget nif dest islocal => exact Or.inl (getRoute_view nif s dest islocal)
  | rtfree prt => exact Or.inl rfl

theorem storeStep_sound {s : RouteStore} (sound : s.Sound) (event : StoreEvent)
    (paired : Paired s event) (countable : Countable s event) : (storeStep s event).Sound := by
  constructor
  · rcases storeStep_view sound event with same | ⟨call, -, stepped⟩
    · rw [same]
      exact sound.1
    · rw [stepped]
      exact routeStep_shaped sound.1 call
  · obtain ⟨shaped, accounted⟩ := sound
    cases event with
    | change call =>
        cases call with
        | rtadd net mask gw metric intf ttl =>
            exact addRoute_accounted accounted shaped.separate net mask gw metric intf ttl
        | rtdel net mask => exact deleteRoute_accounted accounted shaped.separate net mask
        | rttimer delta => exact (ageRoutes_kept ⟨shaped, accounted⟩ delta).2
    | rtget nif dest islocal => exact getRoute_accounted accounted nif dest islocal countable
    | rtfree prt => exact freeRoute_accounted accounted paired

theorem storeInit_sound : storeInit.Sound := by
  constructor
  · refine ⟨?_, ?_, ?_, ?_, ?_, ?_⟩ <;> simp [storeInit, RouteStore.view]
  · have none : ∀ prt, tally storeInit prt = 0 := by
      intro prt
      rw [tally_unlinked]
      · rfl
      · simp [Linked, storeInit]
    constructor
    · intro prt used
      rw [none prt] at used
      omega
    · intro prt used
      rw [none prt] at used
      omega
    · intro prt isBuffer _
      exact List.count_eq_one_of_mem List.nodup_range (List.mem_range.mpr isBuffer)
    · intro prt used
      rw [none prt] at used
      omega
    · intro prt member
      exact List.mem_range.mp member

theorem RouteStore.Sound.represented {s : RouteStore} (sound : s.Sound) : Represented s := by
  obtain ⟨shaped, accounted⟩ := sound
  have usedOf : ∀ prt, Linked s prt ∨ prt ∈ s.held → 0 < tally s prt := by
    rintro prt (linked | holds)
    · rw [tally_linked linked]
      omega
    · have positive := List.count_pos_iff.mpr holds
      unfold tally
      omega
  refine ⟨?_, ?_, ?_, ?_, ?_, ?_, ?_⟩
  · intro index
    exact List.pairwise_map.mp (shaped.sorted index)
  · intro index
    exact List.pairwise_map.mp (shaped.distinct index)
  · intro index prt member
    exact shaped.hashed index (s.route prt) (List.mem_map_of_mem member)
  · intro prt linked
    rw [Tallied.counted accounted prt (usedOf prt (Or.inl linked)), tally_linked linked]
    push_cast
    rfl
  · intro prt holds unlinked
    rw [Tallied.counted accounted prt (usedOf prt (Or.inr holds)), tally_unlinked unlinked]
  · intro prt inUse
    exact Tallied.inUse accounted prt (usedOf prt inUse)
  · intro prt isBuffer unlinked notHeld
    apply Tallied.pooled accounted prt isBuffer
    rw [tally_unlinked unlinked]
    exact List.count_eq_zero.mpr notHeld

/-- The table is as it is to be in every run in which no route has too many holders for its
count. -/
theorem represented_along_run (s : RouteStore)
    (reached : Reach storeStep (fun before event => Paired before event ∧ Countable before event)
      storeInit s) : Represented s := by
  have sound : s.Sound := by
    apply reached.invariant
    · exact storeInit_sound
    · intro before event kept permitted
      exact storeStep_sound kept event permitted.1 permitted.2
  exact sound.represented

/-- A route to the network 10.0.0.0. -/
def oneRoute : RouteStore :=
  storeStep storeInit (.change (.rtadd 0x0a000000 0xff000000 0x0a000001 1 1 999))

def oneLookup : StoreEvent := .rtget [] 0x0a000002 false

/-- Any number of processes may look the route up before one of them frees it. -/
theorem many_holders (count : Nat) : ∃ s, Reach storeStep Paired storeInit s ∧
    s.route = oneRoute.route ∧ s.rttable = oneRoute.rttable ∧
    s.riDefault = oneRoute.riDefault ∧ s.held.count 0 = count := by
  induction count with
  | zero =>
      refine ⟨oneRoute, Reach.step _ Reach.start trivial, rfl, rfl, rfl, ?_⟩
      decide
  | succ count ih =>
      obtain ⟨s, reached, route, table, default, holders⟩ := ih
      have found : findRoute [] s 0x0a000002 false = some 0 := by
        unfold findRoute
        rw [route, table, default]
        decide
      refine ⟨storeStep s oneLookup, Reach.step _ reached trivial, ?_⟩
      have stepped : storeStep s oneLookup =
          { s with counts := s.counts.share 0, held := 0 :: s.held } := by
        unfold oneLookup storeStep getRoute
        simp only [found]
      rw [stepped]
      refine ⟨route, table, default, ?_⟩
      rw [List.count_cons_self, holders]

/-- With 2 ^ 31 - 1 holders the references to a route of the table are more than an `int`
counts. -/
theorem count_out_of_range : ¬ ∀ s, Reach storeStep Paired storeInit s → Represented s := by
  intro always
  obtain ⟨s, reached, -, table, -, holders⟩ := many_holders 2147483647
  have linked : Linked s 0 := by
    left
    refine ⟨rthash 0x0a000000, ?_⟩
    rw [table]
    decide
  have counted := (always s reached).linkedCount 0 linked
  have bound := (s.counts.count 0).toInt_lt
  rw [holders] at counted
  omega

instance (s : RouteStore) (event : StoreEvent) : Decidable (Paired s event) :=
  match event with
  | .rtfree _ => inferInstanceAs (Decidable (_ ∈ _))
  | .change _ | .rtget _ _ _ => inferInstanceAs (Decidable True)

instance (s : RouteStore) (event : StoreEvent) : Decidable (Countable s event) :=
  match event with
  | .rtget nif dest islocal =>
      inferInstanceAs (Decidable (∀ prt ∈ findRoute nif s dest islocal,
        s.held.count prt < 2147483646))
  | .change _ | .rtfree _ => inferInstanceAs (Decidable True)

/-- A route is deleted while a process holds it. -/
def deletedWhileHeld : List StoreEvent :=
  [.change (.rtadd 0x0a000000 0xff000000 0x0a000001 1 1 999), oneLookup,
    .change (.rtdel 0x0a000000 0xff000000)]

/-- The buffer is out of the pool until the process frees the route. -/
theorem held_route_represented :
    let s := deletedWhileHeld.foldl storeStep storeInit
    s.counts.pool.count 0 = 0 ∧ (storeStep s (.rtfree 0)).counts.pool.count 0 = 1 ∧
      Represented (storeStep s (.rtfree 0)) := by
  have permitted : Permitted storeStep
      (fun before event => Paired before event ∧ Countable before event) storeInit
      (deletedWhileHeld ++ [.rtfree 0]) := by
    decide +kernel
  have reached := reach_of_permitted (deletedWhileHeld ++ [.rtfree 0]) Reach.start permitted
  rw [List.foldl_append, List.foldl_cons, List.foldl_nil] at reached
  exact ⟨by decide +kernel, by decide +kernel, represented_along_run _ reached⟩

end MvsXinu.Routing
