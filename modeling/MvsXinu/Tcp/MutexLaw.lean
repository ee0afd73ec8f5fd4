import MvsXinu.Tcp.BlockMutex

/-!
# The mutexes along a run

Every process that goes on has the mutex of the block it works on, and leaves it behind the
handler or gives the block back, so the invariant of `BlockMutex.lean` is kept by every step.
-/

namespace MvsXinu.Tcp

open MvsXinu.Runs MvsXinu.SeqSpace MvsXinu.Locks

set_option autoImplicit false

section Steps

variable {t : Table} {party : Party} {post : Post} {k : Nat}

/-! ## Calls of the mutex -/

/-- Whose mutex the process has behind its `wait`. -/
theorem Table.Ordered.owner (ordered : t.Ordered) (taken : t.state k ≠ .free)
    (atLock : (t.post party).AtLock k) (unblocked : ¬ t.Blocked k party) :
    (t.slot k).lock.mutex.owner = some party :=
  Lawful.owner (ordered.tallies k taken) atLock unblocked

/-- Who holds the mutex has it. -/
theorem Table.Ordered.holder (ordered : t.Ordered) (taken : t.state k ≠ .free)
    (holds : (t.post party).Holds k) : (t.slot k).lock.mutex.owner = some party :=
  (ordered.tallies k taken).holder party holds

/-- The process stands where it stood, as far as this block is concerned. -/
theorem Table.Ordered.tallies_away (ordered : t.Ordered) {j : Nat} (taken : t.state j ≠ .free)
    (before : ¬ (t.post party).AtLock j) (later : ¬ post.AtLock j) :
    Tallies (t.slot j).lock (Function.update t.post party post) j :=
  (ordered.tallies j taken).stay (iff_of_false later before)
    fun holds => absurd holds.atLock later

/-- A process goes to a place that has nothing to do with a mutex. -/
theorem Table.Ordered.placed (ordered : t.Ordered)
    (before : ∀ j, (t.post party).AtLock j → t.state j = .free) (later : ∀ j, ¬ post.AtLock j)
    (role : post.Inbound → party = .inp)
    (carries : ∀ j segment, party = .inp → post.Carries j segment → t.state j ≠ .free →
      t.Suits j segment)
    (opens : ∀ j, post.Opens j → (t.slot j).kind ≠ .other) (apart : post.Apart) :
    (t.place party post).Ordered := by
  refine ordered.moved rfl ordered.tame ?_
    (ordered.still_sought (Or.inr (Table.Suited.refl t)) carries) role opens apart ?_
    (fun other j _ => ordered.opening other j)
  · intro j taken
    exact ordered.tallies_away taken (fun atLock => taken (before j atLock)) (later j)
  · intro j same
    apply absurd _ (later j)
    rw [same]
    rfl

/-- A process has no mutex of a block that is not free. -/
theorem Table.Ordered.quits (ordered : t.Ordered)
    (before : ∀ j, (t.post party).AtLock j → t.state j = .free) :
    (t.place party .idle).Ordered :=
  ordered.placed before (fun _ => id) (fun inbound => absurd inbound id)
    (fun _ _ _ carries => by cases carries) (fun _ opens => absurd opens id) trivial

/-- `wait(ptcb->tcb_mutex)`. -/
theorem Table.Ordered.waits (ordered : t.Ordered) (errand : Errand)
    (before : ∀ j, ¬ (t.post party).AtLock j)
    (role : (Post.waiting k errand).Inbound → party = .inp)
    (carries : ∀ j segment, party = .inp → (Post.waiting k errand).Carries j segment →
      t.state j ≠ .free → t.Suits j segment) :
    ((t.wait k party).place party (.waiting k errand)).Ordered := by
  by_cases isFree : t.state k = .free
  · rw [wait_free t isFree]
    refine ordered.moved rfl ordered.tame ?_
      (ordered.still_sought (Or.inr (Table.Suited.refl t)) carries) role
      (fun _ opens => absurd opens id) trivial (fun _ same => by cases same)
      (fun other j _ => ordered.opening other j)
    intro j taken
    apply ordered.tallies_away taken (before j)
    rintro rfl
    exact taken isFree
  · rw [wait_taken t isFree]
    refine ordered.moved rfl (ordered.tame.locked k _) ?_
      (ordered.still_sought (Or.inr ((Table.Suited.refl t).locked k _)) ?_) role
      (fun _ opens => absurd opens id) trivial (fun _ same => by cases same)
      (fun other j _ stands => (setLock_fresh _).mpr (ordered.opening other j stands))
    · intro j taken
      rw [setLock_state] at taken
      by_cases self : j = k
      · rw [self, setLock_lock]
        exact (ordered.tallies k isFree).join (before k) rfl id
      · rw [setLock_other self]
        exact ordered.tallies_away taken (before j) fun same => self same.symm
    · intro j segment self carried taken
      rw [setLock_state] at taken
      rw [setLock_suits]
      exact carries j segment self carried taken

/-- The last `signal` of a mutex the process has. It stays at those of other blocks. -/
theorem Table.Ordered.signals (ordered : t.Ordered)
    (owner : t.state k ≠ .free → (t.slot k).lock.mutex.owner = some party)
    (gone : ¬ post.AtLock k) (stays : ∀ j, j ≠ k → (post.AtLock j ↔ (t.post party).AtLock j))
    (holder : ∀ j, j ≠ k → post.Holds j → (t.post party).Holds j)
    (quiet : ∀ j segment, ¬ post.Carries j segment) (role : post.Inbound → party = .inp)
    (opens : ∀ j, post.Opens j → (t.slot j).kind ≠ .other) (apart : post.Apart)
    (unopening : ∀ j, post ≠ .opening j) :
    ((t.signal k).place party post).Ordered := by
  have away : ∀ j, j ≠ k → t.state j ≠ .free →
      Tallies (t.slot j).lock (Function.update t.post party post) j := by
    intro j elsewhere taken
    apply (ordered.tallies j taken).stay (stays j elsewhere)
    exact fun later => ordered.holder taken (holder j elsewhere later)
  by_cases isFree : t.state k = .free
  · rw [signal_free t isFree]
    refine ordered.moved rfl ordered.tame ?_
      (ordered.still_sought (Or.inr (Table.Suited.refl t)) ?_) role opens apart
      (fun j same => absurd same (unopening j)) (fun other j _ => ordered.opening other j)
    · intro j taken
      apply away j _ taken
      rintro rfl
      exact taken isFree
    · exact fun j segment _ carries => absurd carries (quiet j segment)
  · rw [signal_taken t isFree]
    refine ordered.moved rfl (ordered.tame.locked k _) ?_
      (ordered.still_sought (Or.inr ((Table.Suited.refl t).locked k _)) ?_) role ?_ apart
      (fun j same => absurd same (unopening j))
      (fun other j _ stands => (setLock_fresh _).mpr (ordered.opening other j stands))
    · intro j taken
      rw [setLock_state] at taken
      by_cases self : j = k
      · rw [self, setLock_lock]
        exact (ordered.tallies k isFree).leave (owner isFree) gone
      · rw [setLock_other self]
        exact away j self taken
    · exact fun j segment _ carries => absurd carries (quiet j segment)
    · intro j opening
      rw [(setLock_kept t k j _).1]
      exact opens j opening

/-- `signal(ptcb->tcb_mutex)` at the end of a call. -/
theorem Table.Ordered.releases (ordered : t.Ordered) {sleeps : Option Bool}
    (stands : t.post party = .leaving k sleeps) :
    ((t.signal k).place party (sleeps.elim .idle fun opener => .sleeping k opener)).Ordered := by
  have before : ∀ j, j ≠ k → ¬ (t.post party).AtLock j := by
    intro j away
    rw [stands]
    exact fun same => away same.symm
  have later : ∀ j, ¬ (sleeps.elim Post.idle fun opener => .sleeping k opener).AtLock j := by
    intro j
    cases sleeps <;> exact id
  apply ordered.signals
  · intro taken
    apply ordered.holder taken
    rw [stands]
    rfl
  · exact later k
  · exact fun j away => iff_of_false (later j) (before j away)
  · exact fun j _ holds => absurd holds.atLock (later j)
  · intro j segment carries
    cases sleeps <;> cases carries
  · cases sleeps <;> exact fun inbound => absurd inbound id
  · intro j opens
    apply ordered.openers party j
    rw [stands]
    cases sleeps with
    | none => exact absurd opens id
    | some opener => cases opener <;> exact opens
  · cases sleeps <;> trivial
  · intro j same
    cases sleeps <;> cases same

/-- Of the two mutexes a process has, it releases the one and goes on with the other. -/
theorem Table.Ordered.yields (ordered : t.Ordered) {other : Nat} (apart : k ≠ other)
    (owner : t.state other ≠ .free → (t.slot other).lock.mutex.owner = some party)
    (both : ∀ j, (t.post party).AtLock j ↔ k = j ∨ other = j) (holds : (t.post party).Holds k) :
    ((t.signal other).place party (.leaving k none)).Ordered := by
  apply ordered.signals owner
  · exact apart
  · intro j away
    rw [both]
    exact ⟨Or.inl, fun either => either.resolve_right fun same => away same.symm⟩
  · intro j _ later
    have here : k = j := later
    rw [← here]
    exact holds
  · intro j segment carries
    cases carries
  · exact fun inbound => absurd inbound id
  · exact fun _ opens => absurd opens id
  · trivial
  · intro j same
    cases same

/-- `tcplisten` releases the new block. -/
theorem Table.Ordered.parts (ordered : t.Ordered) {child : Nat}
    (stands : t.post party = .spawned k child) :
    ((t.signal child).place party (.leaving k none)).Ordered := by
  have apart := ordered.apart party
  rw [stands] at apart
  apply ordered.yields apart
  · intro taken
    apply ordered.holder taken
    rw [stands]
    exact Or.inr rfl
  · rw [stands]
    exact fun _ => Iff.rfl
  · rw [stands]
    exact Or.inl rfl

/-! ## Changes of a block -/

/-- A block is changed or given back by who has its mutex, or by who sleeps on it. -/
theorem Table.Ordered.changes (ordered : t.Ordered) {conn : Conn}
    (alive : conn.tcb.state ≠ .free → t.state k ≠ .free)
    (typed : conn.tcb.state ≠ .free → conn.tcb.state ≠ .closed → (t.slot k).kind ≠ .other)
    (suited : t.Suited (t.setConn k conn))
    (fresh : ∀ other, t.post other = .opening k →
      conn.tcb.state = .closed ∧ conn.tcb.error = none) :
    (t.setConn k conn).Ordered := by
  have tame := ordered.setConn_tame typed
  refine ⟨?_, ?_, tame.typed, ?_, tame.parent, ordered.roles, ordered.apart, ?_⟩
  · intro j taken
    rw [setConn_alive taken]
    apply ordered.tallies j
    by_cases self : j = k
    · rw [self] at taken ⊢
      rw [setConn_own_state] at taken
      exact alive taken
    · rw [setConn_other_state self] at taken
      exact taken
  · intro j segment carries taken
    obtain ⟨before, suits⟩ := suited j segment carries taken
    exact suits (ordered.sought j segment carries before)
  · exact fun other j opens => tame.kind j (ordered.openers other j opens)
  · intro other j stands
    by_cases self : j = k
    · rw [self] at stands ⊢
      unfold Table.Fresh
      rw [setConn_own_state, setConn_sets.own]
      exact fresh other stands
    · rw [setConn_other_fresh self]
      exact ordered.opening other j stands

/-- Nobody opens a block that a process is about to release. -/
theorem Table.Ordered.left_unopened (ordered : t.Ordered) {sleeps : Option Bool}
    (stands : t.post party = .leaving k sleeps) (other : Party) : t.post other ≠ .opening k := by
  intro opens
  by_cases self : other = party
  · rw [self, stands] at opens
    cases opens
  · apply ordered.alone _ other self opens
    apply ordered.holder (ordered.unfree opens)
    rw [stands]
    rfl

theorem place_place (t : Table) (party : Party) (first second : Post) :
    (t.place party first).place party second = t.place party second := by
  unfold Table.place
  rw [Function.update_idem]

/-- A block is given back. -/
theorem Table.Ordered.frees (ordered : t.Ordered) {conn : Conn} (isFree : conn.tcb.state = .free)
    (unopened : ∀ other, t.post other ≠ .opening k) : (t.setConn k conn).Ordered :=
  ordered.changes (fun alive => absurd isFree alive) (fun alive => absurd isFree alive)
    (setConn_suited (Or.inl isFree)) fun other stands => absurd stands (unopened other)

/-- A process has the mutex of the block and is about to release it. -/
theorem Table.Ordered.enters (ordered : t.Ordered) {sleeps : Option Bool}
    (here : ∀ j, (t.post party).AtLock j ↔ k = j)
    (owner : (t.slot k).lock.mutex.owner = some party)
    (opens : sleeps = some true → (t.slot k).kind ≠ .other) :
    (t.place party (.leaving k sleeps)).Ordered := by
  refine ordered.moved rfl ordered.tame ?_
    (ordered.still_sought (Or.inr (Table.Suited.refl t)) ?_) (fun inbound => absurd inbound id)
    ?_ trivial ?_ (fun other j _ => ordered.opening other j)
  · intro j taken
    apply (ordered.tallies j taken).stay
    · exact (here j).symm
    · intro same
      have here : k = j := same
      rw [← here]
      exact owner
  · intro j segment _ carries
    cases carries
  · intro j opening
    cases sleeps with
    | none => exact absurd opening id
    | some opener =>
        cases opener with
        | false => exact absurd opening id
        | true =>
            have here : k = j := opening
            rw [← here]
            exact opens rfl
  · intro j same
    cases same

theorem waiting_at {errand : Errand} (stands : t.post party = .waiting k errand) (j : Nat) :
    (t.post party).AtLock j ↔ k = j := by
  rw [stands]
  exact Iff.rfl

/-- Nobody else opens a block that a process has waited for. -/
theorem Table.Ordered.unshared (ordered : t.Ordered) {errand : Errand}
    (stands : t.post party = .waiting k errand)
    (owner : (t.slot k).lock.mutex.owner = some party) (other : Party) :
    t.post other ≠ .opening k := by
  by_cases self : other = party
  · rw [self, stands]
    intro same
    cases same
  · exact ordered.alone owner other self

/-- A handler changes the block and comes to the last `signal`. -/
theorem Table.Ordered.leaves (ordered : t.Ordered) {errand cause : Errand} {added : Int}
    {conn : Conn} {sleeps : Option Bool} (stands : t.post party = .waiting k errand)
    (owner : (t.slot k).lock.mutex.owner = some party) (taken : t.state k ≠ .free)
    (caused : Cause (t.slot k).conn cause conn added) (unopened : sleeps ≠ some true) :
    ((t.setConn k conn).place party (.leaving k sleeps)).Ordered := by
  have entered := ordered.enters (waiting_at stands) owner (fun opens => absurd opens unopened)
  show ((t.place party (.leaving k sleeps)).setConn k conn).Ordered
  apply entered.changes
  · exact fun _ => taken
  · intro alive isOpen
    apply ordered.kinds k taken
    intro isClosed
    exact isOpen ((caused.of_closed isClosed).state.trans isClosed)
  · exact setConn_suited caused.kin
  · intro other stands
    by_cases self : other = party
    · have own : (t.place party (.leaving k sleeps)).post party = .leaving k sleeps :=
        Function.update_self _ _ _
      rw [self, own] at stands
      cases stands
    · have away : (t.place party (.leaving k sleeps)).post other = t.post other :=
        Function.update_of_ne self _ _
      rw [away] at stands
      exact absurd stands (ordered.alone owner other self)

/-- `tcbdealloc` behind the `wait`, by a call that does not come back to the block. -/
theorem Table.Ordered.ends (ordered : t.Ordered) {errand : Errand}
    (stands : t.post party = .waiting k errand)
    (owner : (t.slot k).lock.mutex.owner = some party) (taken : t.state k ≠ .free)
    (typed : (t.slot k).kind ≠ .other) : ((t.tcbdealloc k).place party .idle).Ordered := by
  rw [tcbdealloc_typed taken typed]
  have isFree := tcbdealloc_state (t.slot k).conn
  apply (ordered.frees isFree (ordered.unshared stands owner)).quits
  intro j atLock
  have here : k = j := by
    have sameLock : (t.post party).AtLock j := atLock
    rw [stands] at sameLock
    exact sameLock
  rw [← here, setConn_own_state]
  exact isFree

/-- The server's mutex is waited for with that of the connection. -/
theorem Table.Ordered.joins (ordered : t.Ordered) {errand : Errand} {server : Nat}
    {inbound : Inbound} (stands : t.post party = .waiting k errand)
    (owner : (t.slot k).lock.mutex.owner = some party) (isInp : party = .inp)
    (typed : (t.slot k).kind ≠ .other) (apart : k ≠ server) (taken : t.state server ≠ .free) :
    ((t.wait server party).place party (.parent k server inbound)).Ordered := by
  rw [wait_taken t taken]
  refine ordered.moved rfl (ordered.tame.locked server _) ?_
    (ordered.still_sought (Or.inl isInp) fun _ _ _ carries => by cases carries) (fun _ => isInp)
    ?_ apart (fun _ same => by cases same)
    (fun other j _ stands => (setLock_fresh _).mpr (ordered.opening other j stands))
  · intro j alive
    rw [setLock_state] at alive
    by_cases self : j = server
    · rw [self, setLock_lock]
      apply (ordered.tallies server taken).join
      · rw [stands]
        exact apart
      · exact Or.inr rfl
      · exact apart
    · rw [setLock_other self]
      apply (ordered.tallies j alive).stay
      · rw [stands]
        exact ⟨fun either => either.resolve_right fun same => self same.symm, Or.inl⟩
      · intro same
        have here : k = j := same
        rw [← here]
        exact owner
  · intro j same
    have here : k = j := same
    rw [(setLock_kept t server j _).1, ← here]
    exact typed

/-- What `tcballoc` does to a block, for `tcpmopen` and for `tcplisten`. -/
structure Created (slot : Slot) (party : Party) (before : Slot) : Prop where
  lock : slot.lock = Lock.created party
  taken : slot.conn.tcb.state ≠ .free
  typed : slot.conn.tcb.state ≠ .closed → slot.kind ≠ .other
  kind : before.kind ≠ .other → slot.kind ≠ .other

theorem Table.Ordered.creates (ordered : t.Ordered) {slot : Slot}
    (created : Created slot party (t.slot k)) (parent : slot.parent ≠ some k)
    (isFree : t.state k = .free) (vacant : ∀ other, other ≠ party → ¬ (t.post other).Refers k)
    (atLock : post.AtLock k) (stays : ∀ j, j ≠ k → (post.AtLock j ↔ (t.post party).AtLock j))
    (owner : ∀ j, j ≠ k → t.state j ≠ .free → post.Holds j →
      (t.slot j).lock.mutex.owner = some party)
    (quiet : ∀ j segment, ¬ post.Carries j segment) (role : post.Inbound → party = .inp)
    (unopening : ∀ j, ¬ post.Opens j) (apart : post.Apart)
    (opening : ∀ j, post = .opening j → j = k ∧ slot.conn.tcb.state = .closed ∧
      slot.conn.tcb.error = none) :
    ((t.setSlot k slot).place party post).Ordered := by
  have others : ∀ j, j ≠ k → (t.setSlot k slot).slot j = t.slot j :=
    fun j away => setSlot_other t slot away
  have others_state : ∀ j, j ≠ k → (t.setSlot k slot).state j = t.state j := by
    intro j away
    unfold Table.state
    rw [others j away]
  refine ordered.moved rfl ⟨?_, ?_, ?_⟩ ?_ (ordered.still_sought ?_ ?_) role
    (fun j opens => absurd opens (unopening j)) apart ?_ ?_
  · intro j
    by_cases self : j = k
    · rw [self]
      unfold Table.state
      rw [setSlot_self]
      exact fun _ => created.typed
    · rw [others_state j self, others j self]
      exact ordered.kinds j
  · intro j
    by_cases self : j = k
    · rw [self, setSlot_self]
      exact created.kind
    · rw [others j self]
      exact id
  · intro j
    by_cases self : j = k
    · rw [self, setSlot_self]
      exact parent
    · rw [others j self]
      exact ordered.parents j
  · intro j alive
    by_cases self : j = k
    · rw [self, setSlot_self, created.lock]
      exact tallies_created (fun other away present => vacant other away present.refers) atLock
    · rw [others_state j self] at alive
      rw [others j self]
      exact (ordered.tallies j alive).stay (stays j self) (owner j self alive)
  · by_cases isInp : party = .inp
    · exact Or.inl isInp
    · right
      intro j segment carries alive
      have away : j ≠ k := by
        rintro rfl
        exact vacant .inp (fun same => isInp same.symm) carries.refers
      rw [others_state j away] at alive
      unfold Table.Suits
      rw [others j away]
      exact ⟨alive, id⟩
  · exact fun j segment _ carries => absurd carries (quiet j segment)
  · intro j same
    obtain ⟨rfl, isClosed, noError⟩ := opening j same
    unfold Table.Fresh Table.state
    rw [setSlot_self]
    exact ⟨isClosed, noError⟩
  · intro other j _ stands
    have away : j ≠ k := by
      rintro rfl
      exact ordered.unfree stands isFree
    unfold Table.Fresh
    rw [others_state j away, others j away]
    exact ordered.opening other j stands

/-- `tcpserver` and `tcpcon` give the block its type. -/
theorem Table.Ordered.opens (ordered : t.Ordered) {slot : Slot} {sleeps : Option Bool}
    (stands : t.post party = .opening k) (lock : slot.lock = (t.slot k).lock)
    (parent : slot.parent = (t.slot k).parent) (typed : slot.kind ≠ .other)
    (suits : ∀ segment, (t.post .inp).Carries k segment → t.Suits k segment →
      slot.Pairs segment ∨ slot.Listens segment) :
    ((t.setSlot k slot).place party (.leaving k sleeps)).Ordered := by
  have others : ∀ j, j ≠ k → (t.setSlot k slot).slot j = t.slot j :=
    fun j away => setSlot_other t slot away
  have others_state : ∀ j, j ≠ k → (t.setSlot k slot).state j = t.state j := by
    intro j away
    unfold Table.state
    rw [others j away]
  have taken := ordered.unfree stands
  have owner : (t.slot k).lock.mutex.owner = some party := by
    apply ordered.holder taken
    rw [stands]
    rfl
  refine ordered.moved rfl ⟨?_, ?_, ?_⟩ ?_ (ordered.still_sought (Or.inr ?_) ?_)
    (fun inbound => absurd inbound id) ?_ trivial (fun _ same => by cases same) ?_
  · intro j
    by_cases self : j = k
    · rw [self, setSlot_self]
      exact fun _ _ => typed
    · rw [others_state j self, others j self]
      exact ordered.kinds j
  · intro j
    by_cases self : j = k
    · rw [self, setSlot_self]
      exact fun _ => typed
    · rw [others j self]
      exact id
  · intro j
    by_cases self : j = k
    · rw [self, setSlot_self, parent]
      exact ordered.parents k
    · rw [others j self]
      exact ordered.parents j
  · intro j alive
    by_cases self : j = k
    · rw [self, setSlot_self, lock]
      apply (ordered.tallies k taken).stay
      · rw [stands]
        exact Iff.rfl
      · exact fun _ => owner
    · rw [others_state j self] at alive
      rw [others j self]
      apply ordered.tallies_away alive
      · rw [stands]
        exact fun same => self same.symm
      · exact fun same => self same.symm
  · intro j segment carries alive
    by_cases self : j = k
    · rw [self] at carries ⊢
      unfold Table.Suits
      rw [setSlot_self]
      exact ⟨taken, suits segment carries⟩
    · rw [others_state j self] at alive
      unfold Table.Suits
      rw [others j self]
      exact ⟨alive, id⟩
  · intro j segment _ carries
    cases carries
  · intro j opening
    cases sleeps with
    | none => exact absurd opening id
    | some opener =>
        cases opener with
        | false => exact absurd opening id
        | true =>
            have here : k = j := opening
            rw [← here, setSlot_self]
            exact typed
  · intro other j away itsPost
    have elsewhere : j ≠ k := by
      rintro rfl
      exact ordered.alone owner other away itsPost
    unfold Table.Fresh
    rw [others_state j elsewhere, others j elsewhere]
    exact ordered.opening other j itsPost

/-! ## Segments -/

/-- `tcpinp` is the only one to wait with a segment. -/
theorem Table.Ordered.isInp (ordered : t.Ordered) {inbound : Inbound} {iss : Tcpseq} {mss : Word}
    (stands : t.post party = .waiting k (.segment inbound iss mss)) : party = .inp := by
  apply ordered.roles party
  rw [stands]
  trivial

theorem spawn_state {slot : Slot} {inbound : Inbound} {iss : Tcpseq} {mss smss : Word} :
    (slot.spawn party k (Tcp.tcplisten iss mss smss inbound.segment) inbound).conn.tcb.state =
      .synrcvd :=
  (tcpdeliver_steady { slot.conn with tcb := Tcp.tcplisten iss mss smss inbound.segment }
    inbound).state

theorem tcplisten_ordered (ordered : t.Ordered) {inbound bare : Inbound} {read : Conn}
    {iss : Tcpseq} {mss : Word} (stands : t.post party = .waiting k (.segment inbound iss mss))
    (owner : (t.slot k).lock.mutex.owner = some party)
    (isHanded : handed (t.slot k).conn inbound = some (some (read, bare)))
    (listens : t.state k = .listen)
    (vacant : bare.segment.spawns = true → ∀ child, t.tcballoc = some child → t.Vacant child) :
    (t.tcplisten party k read bare iss mss).Ordered := by
  rcases handed_spec isHanded with ⟨accepted, ⟨smss, isRead⟩, code⟩
  have steady : Steady (t.slot k).conn read := by
    rw [isRead]
    exact options_steady
  have taken : t.state k ≠ .free := by
    rw [listens]
    decide
  have answers : ∀ conn, Steady (t.slot k).conn conn →
      ((t.setConn k conn).place party (.leaving k none)).Ordered := by
    intro conn kept
    have cause : Cause (t.slot k).conn (.segment inbound iss mss) conn 0 := Cause.steady kept
    exact ordered.leaves stands owner taken cause (by simp)
  simp only [Table.tcplisten]
  split
  · rename_i spawns
    split
    · exact answers read steady
    · rename_i child found
      have isFree := (tcballoc_spec found).2
      have away : child ≠ k := by
        rintro rfl
        exact taken isFree
      have changed : (t.setConn k read).Ordered := by
        apply ordered.changes (fun _ => taken)
        · intro _ _
          apply ordered.kinds k taken
          rw [listens]
          decide
        · exact setConn_suited steady.kin
        · exact fun other itsPost => absurd itsPost (ordered.unshared stands owner other)
      have free : (t.setConn k read).state child = .free := by
        rw [setConn_other_state away]
        exact isFree
      have sameLock : ∀ j, ((t.setConn k read).post party).AtLock j ↔ k = j := by
        intro j
        show (t.post party).AtLock j ↔ k = j
        rw [stands]
        exact Iff.rfl
      apply changed.creates
      · refine ⟨rfl, ?_, fun _ => ?_, fun _ => ?_⟩
        · rw [spawn_state]
          decide
        · simp [Slot.spawn]
        · simp [Slot.spawn]
      · exact fun same => away (Option.some.inj same).symm
      · exact free
      · exact fun other _ => vacant spawns child found other
      · exact Or.inr rfl
      · intro j elsewhere
        rw [sameLock]
        exact ⟨fun either => either.resolve_right fun same => elsewhere same.symm, Or.inl⟩
      · intro j elsewhere alive holds
        have here : k = j := holds.resolve_right fun same => elsewhere same.symm
        rw [← here] at alive ⊢
        rw [setConn_alive alive]
        exact owner
      · intro j segment carries
        cases carries
      · exact fun _ => ordered.isInp stands
      · exact fun _ => id
      · exact away.symm
      · intro j same
        cases same
  · apply answers
    split
    · exact steady
    · exact steady.trans (tcpreset_steady read bare.segment)

theorem tcpsynrcvd_ordered (ordered : t.Ordered) {inbound bare : Inbound} {read : Conn}
    {iss : Tcpseq} {mss : Word} (stands : t.post party = .waiting k (.segment inbound iss mss))
    (owner : (t.slot k).lock.mutex.owner = some party)
    (isHanded : handed (t.slot k).conn inbound = some (some (read, bare)))
    (found : t.state k = .synrcvd) : (t.tcpsynrcvd party k read bare).Ordered := by
  rcases handed_spec isHanded with ⟨accepted, ⟨smss, isRead⟩, code⟩
  have steady : Steady (t.slot k).conn read := by
    rw [isRead]
    exact options_steady
  have taken : t.state k ≠ .free := by
    rw [found]
    decide
  have typed : (t.slot k).kind ≠ .other := by
    apply ordered.kinds k taken
    rw [found]
    decide
  simp only [Table.tcpsynrcvd]
  split
  · rename_i server acked hasParent waits
    have acknowledged : Steady (t.slot k).conn acked := by
      rw [synrcvdwaits_acked waits]
      exact steady.trans (tcpacked_steady read bare.segment)
    have apart : k ≠ server := by
      rintro rfl
      exact ordered.parents k hasParent
    split
    · have cause : Cause (t.slot k).conn (.segment inbound iss mss)
        (Tcp.tcbdealloc (tcpreset acked bare.segment)) 0 := Cause.orphaned found acknowledged
      exact ordered.leaves stands owner taken cause (by simp)
    · rename_i serves
      have changed : (t.setConn k acked).Ordered := by
        apply ordered.changes (fun _ => taken) (fun _ _ => typed)
        · exact setConn_suited acknowledged.kin
        · exact fun other itsPost => absurd itsPost (ordered.unshared stands owner other)
      apply changed.joins stands _ (ordered.isInp stands) _ apart
      · rw [setConn_other_state apart.symm]
        exact serves
      · have alive : (t.setConn k acked).state k ≠ .free := by
          rw [setConn_own_state, acknowledged.state]
          exact taken
        rw [setConn_alive alive]
        exact owner
      · exact (ordered.setConn_tame fun _ _ => typed).kind k typed
  · have handler : Tcp.tcpsynrcvd read bare = tcpswitch read bare := by
      simp only [tcpswitch, show read.tcb.state = .synrcvd from steady.state.trans found]
    have cause : Cause (t.slot k).conn (.segment inbound iss mss) (tcpswitch read bare)
      (switchCounts read bare) := Cause.switched isHanded
    rw [handler]
    exact ordered.leaves stands owner taken cause (by simp)

/-- `tcpinp` with the block that `tcpdemux` has returned. -/
theorem segment_ordered (ordered : t.Ordered) {inbound : Inbound} {iss : Tcpseq} {mss : Word}
    (stands : t.post party = .waiting k (.segment inbound iss mss))
    (owner : (t.slot k).lock.mutex.owner = some party) (taken : t.state k ≠ .free)
    (sober : ErrandSober t k (.segment inbound iss mss)) :
    (t.segment party k inbound iss mss).Ordered := by
  cases isHanded : handed (t.slot k).conn inbound with
  | none =>
      simp only [Table.segment, isHanded]
      exact ordered
  | some answer =>
      cases answer with
      | none =>
          have cause : Cause (t.slot k).conn (.segment inbound iss mss)
            (tcpackit (t.slot k).conn (tcpok (t.slot k).conn.tcb inbound.segment).2) 0 :=
              Cause.steady (tcpackit_steady _ _)
          simp only [Table.segment, isHanded]
          exact ordered.leaves stands owner taken cause (by simp)
      | some read =>
          rcases read with ⟨read, bare⟩
          simp only [Table.segment, isHanded]
          split
          · rename_i listens
            apply tcplisten_ordered ordered stands owner isHanded listens
            exact fun spawns => sober ⟨listens, read, bare, isHanded, spawns⟩
          · split
            · rename_i found
              exact tcpsynrcvd_ordered ordered stands owner isHanded found
            · have cause : Cause (t.slot k).conn (.segment inbound iss mss) (tcpswitch read bare)
                (switchCounts read bare) := Cause.switched isHanded
              exact ordered.leaves stands owner taken cause (by simp)

/-! ## Messages and users' calls -/

theorem output_ordered (ordered : t.Ordered) {event : OutEvent} {fuel : Nat}
    (stands : t.post party = .waiting k (.output event fuel))
    (owner : (t.slot k).lock.mutex.owner = some party) (taken : t.state k ≠ .free)
    (isOpen : t.state k ≠ .closed) : (t.output party k event fuel).Ordered := by
  simp only [Table.output, if_neg isOpen]
  split
  · rw [tcbdealloc_typed taken (ordered.kinds k taken isOpen)]
    have cause : Cause (t.slot k).conn (.output .delete fuel) (Tcp.tcbdealloc (t.slot k).conn) 0 :=
      Cause.deleted isOpen
    exact ordered.leaves stands owner taken cause (by simp)
  · split
    · exact ordered
    · rename_i conn ended
      exact ordered.leaves stands owner taken (Cause.sent isOpen ended) (by simp)

theorem read_ordered (ordered : t.Ordered) {len : Word} {umode : Bool}
    (stands : t.post party = .waiting k (.read len umode))
    (owner : (t.slot k).lock.mutex.owner = some party) (taken : t.state k ≠ .free) :
    (t.read party k len umode).Ordered := by
  simp only [Table.read]
  generalize Bool.and _ _ = copies
  have steady : Steady (t.slot k).conn
      (if copies = true then tcpread (t.slot k).conn len else (t.slot k).conn) := by
    cases copies with
    | true => exact tcpread_steady _ len
    | false => exact Steady.refl _
  have cause : Cause (t.slot k).conn (.read len umode) _ 0 := Cause.steady steady
  exact ordered.leaves stands owner taken cause (by simp)

theorem write_ordered (ordered : t.Ordered) {octets : List Octet} {isurg : Bool}
    (stands : t.post party = .waiting k (.write octets isurg))
    (owner : (t.slot k).lock.mutex.owner = some party) (taken : t.state k ≠ .free)
    (sober : (t.slot k).conn.tcb.error = none → octets ≠ []) :
    (t.write party k octets isurg).Ordered := by
  have unwritten : (t.place party (.leaving k none)).Ordered :=
    ordered.enters (waiting_at stands) owner (by simp)
  simp only [Table.write]
  split
  · exact unwritten
  · rename_i noError
    have something := sober (Option.not_isSome_iff_eq_none.mp noError)
    split
    · have cause : Cause (t.slot k).conn (.write octets isurg) { (t.slot k).conn with
          tcb := tcpstored (t.slot k).conn.tcb octets isurg } 0 :=
        Cause.steady ⟨rfl, rfl, rfl, id⟩
      exact ordered.leaves stands owner taken cause (by simp)
    · exact unwritten

theorem control_ordered (ordered : t.Ordered) {options : Option (Bool × Bool × Bool)}
    (stands : t.post party = .waiting k (.control options))
    (owner : (t.slot k).lock.mutex.owner = some party) (taken : t.state k ≠ .free) :
    (t.control party k options).Ordered := by
  have steady : Steady (t.slot k).conn (options.elim (t.slot k).conn fun bits =>
      tcpuopt (t.slot k).conn bits.1 bits.2.1 bits.2.2) := by
    cases options with
    | none => exact Steady.refl _
    | some bits => exact ⟨rfl, rfl, rfl, id⟩
  have cause : Cause (t.slot k).conn (.control options) _ 0 := Cause.steady steady
  exact ordered.leaves stands owner taken cause (by simp)

theorem close_ordered (ordered : t.Ordered) (stands : t.post party = .waiting k .close)
    (owner : (t.slot k).lock.mutex.owner = some party) (taken : t.state k ≠ .free) :
    (t.close party k).Ordered := by
  simp only [Table.close]
  split
  · rename_i shut
    apply ordered.ends stands owner taken
    apply ordered.kinds k taken
    rcases shut with listens | ⟨isOpen, _⟩
    · rw [listens]
      decide
    · rcases isOpen with isOpen | isOpen <;> rw [isOpen] <;> decide
  · rename_i goesOn
    split
    · rename_i isOpen
      have noError : (t.slot k).conn.tcb.error = none := by
        cases isError : (t.slot k).conn.tcb.error with
        | none => rfl
        | some error =>
            apply absurd _ goesOn
            rw [isError]
            exact Or.inr ⟨isOpen, rfl⟩
      exact ordered.leaves stands owner taken (Cause.closed isOpen noError) (by simp)
    · exact ordered.enters (waiting_at stands) owner (by simp)

/-- Behind the `wait` for the mutex. -/
theorem perform_ordered (ordered : t.Ordered) {errand : Errand}
    (stands : t.post party = .waiting k errand) (unblocked : ¬ t.Blocked k party)
    (sober : t.state k ≠ .free → ErrandSober t k errand) :
    (t.perform party k errand).Ordered := by
  have here : ∀ j, (t.post party).AtLock j → k = j := by
    intro j atLock
    rw [stands] at atLock
    exact atLock
  simp only [Table.perform]
  split
  · rename_i isFree
    apply ordered.quits
    intro j atLock
    rw [← here j atLock]
    exact isFree
  · rename_i taken
    have owner : (t.slot k).lock.mutex.owner = some party := by
      apply ordered.owner taken _ unblocked
      rw [stands]
      rfl
    have sober := sober taken
    cases errand with
    | segment inbound iss mss => exact segment_ordered ordered stands owner taken sober
    | output event fuel => exact output_ordered ordered stands owner taken sober
    | read len umode => exact read_ordered ordered stands owner taken
    | write octets isurg => exact write_ordered ordered stands owner taken sober
    | close => exact close_ordered ordered stands owner taken
    | control options => exact control_ordered ordered stands owner taken

/-- `tcpsynrcvd` behind the `wait` for the server's mutex. -/
theorem tcpsynrcvdend_ordered (ordered : t.Ordered) {server : Nat} {inbound : Inbound}
    (stands : t.post party = .parent k server inbound) (unblocked : ¬ t.Blocked server party)
    (sober : t.state k = .free → t.state server ≠ .listen ∨ inbound.parent = .full) :
    (t.tcpsynrcvdend party k server inbound).Ordered := by
  have isInp : party = .inp := by
    apply ordered.roles party
    rw [stands]
    trivial
  have apart : k ≠ server := by
    have apart := ordered.apart party
    rw [stands] at apart
    exact apart
  have released : ((t.signal server).place party (.leaving k none)).Ordered := by
    apply ordered.yields apart
    · intro taken
      apply ordered.owner taken _ unblocked
      rw [stands]
      exact Or.inr rfl
    · rw [stands]
      exact fun _ => Iff.rfl
    · rw [stands]
      rfl
  have conn : ((t.signal server).slot k).conn = (t.slot k).conn := signal_still.conns k
  have state : (t.signal server).state k = t.state k := congrArg (fun conn => conn.tcb.state) conn
  have own : ((t.signal server).place party (.leaving k none)).post party = .leaving k none :=
    Function.update_self _ _ _
  have unopened := released.left_unopened own
  simp only [Table.tcpsynrcvdend]
  split
  · exact released.frees (tcbdealloc_state _) unopened
  · rename_i accepts
    have taken : t.state k ≠ .free := fun isFree => accepts (sober isFree)
    apply released.changes
    · intro _
      show (t.signal server).state k ≠ _
      rw [state]
      exact taken
    · intro _ _
      have typed := ordered.openers party k (by rw [stands]; rfl)
      show ((t.signal server).slot k).kind ≠ _
      unfold Table.signal
      split
      · exact typed
      · rw [(setLock_kept t server k _).1]
        exact typed
    · intro j segment carries
      rw [← isInp, show ((t.signal server).place party (.leaving k none)).post party =
        .leaving k none from own] at carries
      cases carries
    · exact fun other opens => absurd opens (unopened other)

/-- The end of `tcpcon` and `tcpclose`, with no mutex. -/
theorem wake_ordered (ordered : t.Ordered) {opener : Bool}
    (stands : t.post party = .sleeping k opener) : (t.wake party k opener).Ordered := by
  have away : ∀ j, ¬ (t.post party).AtLock j := by
    rw [stands]
    exact fun _ => id
  have stays : (t.place party .idle).Ordered :=
    ordered.quits fun j atLock => absurd atLock (away j)
  have ends : ¬ t.Fresh k → (t.state k ≠ .free → (t.slot k).kind ≠ .other) →
      ((t.tcbdealloc k).place party .idle).Ordered := by
    intro stale typed
    by_cases isFree : t.state k = .free
    · have same : t.tcbdealloc k = t := if_pos isFree
      rw [same]
      exact stays
    · rw [tcbdealloc_typed isFree (typed isFree)]
      apply (ordered.frees (tcbdealloc_state _) (ordered.unopened stale)).quits
      exact fun j atLock => absurd atLock (away j)
  simp only [Table.wake]
  cases opener with
  | true =>
      simp only [if_true]
      split
      · rename_i isError
        apply ends
        · intro fresh
          rw [fresh.2] at isError
          cases isError
        · intro _
          apply ordered.openers party k
          rw [stands]
          rfl
      · exact stays
  | false =>
      simp only [Bool.false_eq_true, if_false]
      split
      · rename_i found
        have isLastack : t.state k = .lastack := eq_of_beq found
        apply ends
        · intro fresh
          rw [fresh.1] at isLastack
          cases isLastack
        · intro taken
          apply ordered.kinds k taken
          rw [isLastack]
          decide
      · exact stays

/-! ## Steps -/

/-- An idle process is at no mutex. -/
theorem idle_away (idle : (t.post party).isIdle = true) (j : Nat) :
    ¬ (t.post party).AtLock j := by
  intro atLock
  cases stands : t.post party with
  | idle =>
      rw [stands] at atLock
      exact atLock
  | _ =>
      rw [stands] at idle
      cases idle

theorem go_ordered (ordered : t.Ordered) (sober : Sober t (.table (.go party))) :
    (t.go party).Ordered := by
  cases stands : t.post party with
  | matched j inbound iss mss =>
      simp only [Table.go, stands]
      have role := ordered.roles party
      have sought := ordered.sought j inbound.segment
      rw [stands] at role
      have isInp := role trivial
      apply ordered.waits
      · rw [stands]
        exact fun _ => id
      · exact fun _ => isInp
      · intro i segment _ carries taken
        cases carries
        apply sought _ taken
        rw [← isInp, stands]
        rfl
  | waiting j errand =>
      simp only [Sober, stands] at sober
      simp only [Table.go, stands]
      split
      · exact ordered
      · rename_i unblocked
        exact perform_ordered ordered stands unblocked (sober unblocked)
  | parent j server inbound =>
      simp only [Sober, stands] at sober
      simp only [Table.go, stands]
      split
      · exact ordered
      · rename_i unblocked
        exact tcpsynrcvdend_ordered ordered stands unblocked (sober unblocked)
  | spawned j child =>
      simp only [Table.go, stands]
      exact ordered.parts stands
  | leaving j sleeps =>
      simp only [Table.go, stands]
      exact ordered.releases stands
  | sleeping j opener =>
      simp only [Table.go, stands]
      exact wake_ordered ordered stands
  | idle =>
      simp only [Table.go, stands]
      exact ordered
  | opening j =>
      simp only [Table.go, stands]
      exact ordered

theorem demux_ordered (ordered : t.Ordered) {inbound : Inbound} {iss : Tcpseq} {mss : Word} :
    (tableStep t (.demux inbound iss mss)).Ordered := by
  simp only [tableStep]
  split
  · rename_i idle
    cases found : tcpdemux t inbound.segment with
    | none => exact ordered
    | some j =>
        apply ordered.placed
        · exact fun i atLock => absurd atLock (idle_away idle i)
        · exact fun _ => id
        · exact fun _ => rfl
        · intro i segment _ carries _
          cases carries
          rcases (tcpdemux_some found).2 with ⟨_, pairs⟩ | ⟨⟨listens, _⟩, _⟩
          · exact Or.inl pairs
          · exact Or.inr listens
        · exact fun _ opens => absurd opens id
        · trivial
  · exact ordered

/-- A message or a user's call waits for the mutex. -/
theorem errand_ordered (ordered : t.Ordered) {errand : Errand}
    (idle : (t.post party).isIdle = true) (away : party ≠ .inp)
    (outward : ¬ (Post.waiting k errand).Inbound) :
    ((t.wait k party).place party (.waiting k errand)).Ordered :=
  ordered.waits errand (idle_away idle) (fun inbound => absurd inbound outward)
    fun _ _ isInp => absurd isInp away

theorem allocate_ordered (ordered : t.Ordered) {pid : Nat}
    (sober : Sober t (.table (.allocate pid))) : (tableStep t (.allocate pid)).Ordered := by
  simp only [tableStep]
  split
  · rename_i idle
    cases found : t.tcballoc with
    | none => exact ordered
    | some j =>
        have away := idle_away idle
        apply ordered.creates
        · exact ⟨rfl, by simp, fun isOpen => absurd rfl isOpen, id⟩
        · exact ordered.parents j
        · exact (tcballoc_spec found).2
        · exact fun other _ => sober j found other
        · rfl
        · exact fun i elsewhere => iff_of_false (fun same => elsewhere same.symm) (away i)
        · exact fun i elsewhere _ same => absurd same.symm elsewhere
        · intro i segment carries
          cases carries
        · exact fun inbound => absurd inbound id
        · exact fun _ => id
        · trivial
        · intro i same
          cases same
          exact ⟨rfl, rfl, rfl⟩
  · exact ordered

theorem bind_ordered (ordered : t.Ordered) {pid : Nat} {lip rip : Word} {lport rport : BitVec 16}
    (sober : Sober t (.table (.bind pid lip rip lport rport))) :
    (tableStep t (.bind pid lip rip lport rport)).Ordered := by
  simp only [tableStep]
  split
  · rename_i j opens
    have fresh := ordered.opening (.user pid) j opens
    apply ordered.changes
    · exact fun _ => ordered.unfree opens
    · exact fun _ isOpen => absurd fresh.1 isOpen
    · intro i segment carries alive
      by_cases self : i = j
      · rw [self] at carries ⊢
        refine ⟨ordered.unfree opens, fun _ => Or.inl ?_⟩
        rw [pairs_iff, setConn_sets.own]
        exact (sober j segment opens carries).symm
      · unfold Table.Suits
        rw [setConn_other self]
        rw [setConn_other_state self] at alive
        exact ⟨alive, id⟩
    · exact fun _ _ => fresh
  · exact ordered

theorem serve_ordered (ordered : t.Ordered) {pid : Nat} {lport : BitVec 16}
    (sober : Sober t (.table (.serve pid lport))) : (tableStep t (.serve pid lport)).Ordered := by
  simp only [tableStep]
  split
  · rename_i j opens
    refine ordered.opens opens ?_ ?_ ?_ ?_
    · rfl
    · rfl
    · simp
    · exact fun segment carries _ => Or.inr ⟨rfl, sober j segment opens carries⟩
  · exact ordered

theorem connect_ordered (ordered : t.Ordered) {pid : Nat} {iss : Tcpseq} {mss : Word} :
    (tableStep t (.connect pid iss mss)).Ordered := by
  simp only [tableStep]
  split
  · rename_i j opens
    refine ordered.opens opens ?_ ?_ ?_ ?_
    · rfl
    · rfl
    · simp
    · intro segment _ suits
      have kin := connect_kin (.user pid) iss mss (ordered.opening (.user pid) j opens).1
      rw [show (t.tcpcon (.user pid) j iss mss).slot j = _ from setSlot_self t _] at kin
      apply kin.suits _ suits
      rw [(tcpkick_steady _).state]
      simp [Tcp.tcpcon]
  · exact ordered

theorem giveup_ordered (ordered : t.Ordered) {pid : Nat} :
    (tableStep t (.giveup pid)).Ordered := by
  simp only [tableStep]
  split
  · rename_i j opens
    have left : (t.place (.user pid) (.leaving j none)).Ordered := by
      apply ordered.enters
      · rw [opens]
        exact fun _ => Iff.rfl
      · apply ordered.holder (ordered.unfree opens)
        rw [opens]
        rfl
      · simp
    have own : (t.place (.user pid) (.leaving j none)).post (.user pid) = .leaving j none :=
      Function.update_self _ _ _
    have freed : ((t.place (.user pid) (.leaving j none)).setConn j { (t.slot j).conn with
        tcb := { (t.slot j).conn.tcb with state := .free } }).Ordered :=
      left.frees rfl (left.left_unopened own)
    have gone : (((t.place (.user pid) (.leaving j none)).setConn j { (t.slot j).conn with
        tcb := { (t.slot j).conn.tcb with state := .free } }).place (.user pid) .idle).Ordered := by
      apply freed.quits
      intro i atLock
      have here : j = i := by
        have sameLock : ((t.place (.user pid) (.leaving j none)).post (.user pid)).AtLock i :=
          atLock
        rw [own] at sameLock
        exact sameLock
      rw [← here, setConn_own_state]
    rw [show (t.giveup (.user pid) j) = _ from (place_place _ _ _ _).symm]
    exact gone
  · exact ordered

theorem Table.Ordered.step (ordered : t.Ordered) {event : MutexEvent} (sober : Sober t event) :
    (mutexStep t event).Ordered := by
  cases event with
  | behind pid j errand =>
      simp only [mutexStep]
      split
      · rename_i calls
        apply errand_ordered ordered calls.1 (by simp)
        intro inbound
        cases errand with
        | segment seg iss mss => cases calls.2
        | _ => exact inbound
      · exact ordered
  | table event =>
      cases event with
      | demux inbound iss mss => exact demux_ordered ordered
      | output j event fuel =>
          simp only [mutexStep, tableStep]
          split
          · rename_i calls
            exact errand_ordered ordered calls.1 (by simp) id
          · exact ordered
      | visit pid j errand =>
          simp only [mutexStep, tableStep]
          split
          · rename_i calls
            apply errand_ordered ordered calls.1 (by simp)
            intro inbound
            cases errand with
            | segment seg iss mss => cases calls.2
            | _ => exact inbound
          · exact ordered
      | allocate pid => exact allocate_ordered ordered sober
      | bind pid lip rip lport rport => exact bind_ordered ordered sober
      | serve pid lport => exact serve_ordered ordered sober
      | connect pid iss mss => exact connect_ordered ordered
      | giveup pid => exact giveup_ordered ordered
      | go other => exact go_ordered ordered sober

/-! ## Along a run -/

theorem start_ordered (conn : Nat → Conn) : (Table.start conn).Ordered where
  tallies := fun _ taken => absurd rfl taken
  sought := fun _ _ carries => by cases carries
  kinds := fun _ taken => absurd rfl taken
  openers := fun _ _ opens => absurd opens id
  parents := fun _ same => by cases same
  roles := fun _ inbound => absurd inbound id
  apart := fun _ => trivial
  opening := fun _ _ same => by cases same

/-- Who has the mutex is busy with a call. -/
theorem Table.Ordered.owner_busy (ordered : t.Ordered) (taken : t.state k ≠ .free)
    (owner : (t.slot k).lock.mutex.owner = some party) : (t.post party).isIdle = false := by
  have present := ((ordered.tallies k taken).involved party).mp (Or.inl owner)
  cases idle : (t.post party).isIdle with
  | false => rfl
  | true => exact absurd present (idle_away idle k)

theorem Table.Ordered.disciplined (ordered : t.Ordered) : t.Disciplined where
  counted := fun k taken => (ordered.tallies k taken).count
  released := by
    intro k taken other idle owner
    rw [ordered.owner_busy taken owner] at idle
    cases idle
  between := by
    intro inp out k taken
    have count := (ordered.tallies k taken).count
    cases owner : (t.slot k).lock.mutex.owner with
    | none =>
        rw [owner] at count
        exact Or.inl count
    | some other =>
        have busy := ordered.owner_busy taken owner
        cases other with
        | inp =>
            rw [inp] at busy
            cases busy
        | out =>
            rw [out] at busy
            cases busy
        | user pid => exact Or.inr ⟨pid, rfl, busy⟩
  returned := by
    intro k inbound iss mss stands taken
    apply ordered.sought k inbound.segment _ taken
    rw [stands]
    rfl

end Steps

theorem mutexes_disciplined {conn : Nat → Conn} {t : Table}
    (reached : Reach mutexStep Sober (Table.start conn) t) : t.Disciplined := by
  have ordered : t.Ordered := by
    apply reached.invariant (start_ordered conn)
    intro before event ordered sober
    exact ordered.step sober
  exact ordered.disciplined

/-- An active open of a user, its SYN, and the answer of the peer to it, up to the `wait`. -/
def opensAnswered (code : Code) : List MutexEvent :=
  let segment : Segment :=
    { src := 20, dst := 10, sport := 80, dport := 1024, seq := 500, ack := 1001, code := code,
      window := 512 }
  [.table (.allocate 1), .table (.bind 1 10 20 1024 80), .table (.connect 1 1000 536),
    .table (.go (.user 1)), .table (.output 0 .send 4), .table (.go .out), .table (.go .out),
    .table (.demux { segment := segment } 0 0), .table (.go .inp)]

def answerHandled : List MutexEvent := [.table (.go .inp), .table (.go .inp)]

theorem answered_open_disciplined :
    ((opensAnswered { syn := true, ack := true } ++ answerHandled).foldl mutexStep
      (Table.start blankConn)).Disciplined := by
  have permitted : Permitted mutexStep Sober (Table.start blankConn)
      (opensAnswered { syn := true, ack := true } ++ answerHandled) := by
    simp only [opensAnswered, answerHandled, List.cons_append, List.nil_append, Permitted]
    refine ⟨fun _ _ _ => id, ?_, trivial, trivial, trivial, ?_, trivial, trivial, trivial, ?_,
      trivial, trivial⟩
    · intro k segment _ carries
      cases carries
    · intro _ _
      show Table.state _ 0 ≠ .closed
      decide +kernel
    · intro _ _ spawns
      exact absurd spawns.1 (by decide +kernel)
  exact mutexes_disciplined (reach_of_permitted _ Reach.start permitted)

/-- Another user writes nothing to the connection. -/
def nothingWritten : List MutexEvent :=
  opensAnswered { syn := true, ack := true } ++ answerHandled ++
    [.table (.visit 2 0 (.write [] false)), .table (.go (.user 2))]

/-- The call has returned with the mutex. -/
theorem empty_write_keeps_mutex :
    ¬ ∀ (conn : Nat → Conn) (t : Table),
      Reach mutexStep (fun _ _ => True) (Table.start conn) t → t.Disciplined := by
  intro law
  have disciplined := law blankConn _ (reach_of_permitted nothingWritten Reach.start
    (unguarded_permitted nothingWritten _))
  apply disciplined.released 0 _ (.user 2) <;> decide +kernel

end MvsXinu.Tcp
