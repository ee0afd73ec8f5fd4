import MvsXinu.Tcp.BindingLaw

/-!
# The discipline of the blocks' mutexes

Between two events the mutex of every block is free or some user's call has it, and the block
that `tcpdemux` returns is the one it has found, along every run in which no block is allocated
that somebody still works on, no block gets other ends while `tcpinp` waits for it, `tcpout`
finds no block CLOSED behind its `wait`, nobody writes nothing, and `tcpsynrcvd` does not go on
with a block that has been given back.
-/

namespace MvsXinu.Tcp

open MvsXinu.SeqSpace MvsXinu.Locks

set_option autoImplicit false

/-! ## Calls behind a semaphore -/

/-- `tcpread` and `tcpwr` look at the state, then wait for data or room, and only then for the
mutex. -/
def Errand.sleeps : Errand → Bool
  | .read _ _ => true
  | .write _ _ => true
  | _ => false

inductive MutexEvent where
  | table (event : TableEvent)
  /-- A call goes on behind `tcb_rsema` or `tcb_ssema`, whatever the block is by now. -/
  | behind (pid k : Nat) (errand : Errand)

def mutexStep (t : Table) : MutexEvent → Table
  | .table event => tableStep t event
  | .behind pid k errand =>
      if (t.post (.user pid)).isIdle ∧ errand.sleeps then
        (t.wait k (.user pid)).place (.user pid) (.waiting k errand)
      else t

/-! ## Where a process is -/

/-- The process has called `wait` for the mutex of the block and not given it back. -/
def Post.AtLock (k : Nat) : Post → Prop
  | .waiting j _ => j = k
  | .parent j server _ => j = k ∨ server = k
  | .spawned j child => j = k ∨ child = k
  | .opening j => j = k
  | .leaving j _ => j = k
  | _ => False

/-- The process has the mutex of the block. -/
def Post.Holds (k : Nat) : Post → Prop
  | .parent j _ _ => j = k
  | .spawned j child => j = k ∨ child = k
  | .opening j => j = k
  | .leaving j _ => j = k
  | _ => False

/-- The process has found the block, or is at its mutex. -/
def Post.Refers (k : Nat) : Post → Prop
  | .matched j _ _ _ => j = k
  | post => post.AtLock k

/-- The process waits with a segment for the block it has found. -/
def Post.Carries (k : Nat) (segment : Segment) (post : Post) : Prop :=
  post.carried = some (k, segment)

theorem Post.Holds.atLock {post : Post} {k : Nat} (holds : post.Holds k) : post.AtLock k := by
  cases post with
  | parent j server inbound => exact Or.inl holds
  | spawned j child => exact holds
  | opening j => exact holds
  | leaving j sleeps => exact holds
  | _ => exact absurd holds id

theorem Post.AtLock.refers {post : Post} {k : Nat} (atLock : post.AtLock k) : post.Refers k := by
  cases post with
  | matched j inbound iss mss => exact absurd atLock id
  | _ => exact atLock

theorem Post.Carries.refers {post : Post} {k : Nat} {segment : Segment}
    (carries : post.Carries k segment) : post.Refers k := by
  cases post with
  | matched j inbound iss mss =>
      cases carries
      rfl
  | waiting j errand =>
      cases errand with
      | segment inbound iss mss =>
          cases carries
          rfl
      | _ => cases carries
  | _ => cases carries

namespace Table

/-- No process works on the block. -/
def Vacant (t : Table) (k : Nat) : Prop := ∀ party, ¬ (t.post party).Refers k

/-- The block is the segment's. -/
def Suits (t : Table) (k : Nat) (segment : Segment) : Prop :=
  (t.slot k).Pairs segment ∨ (t.slot k).Listens segment

structure Disciplined (t : Table) : Prop where
  counted : ∀ k, t.state k ≠ .free → (t.slot k).lock.count =
    if (t.slot k).lock.mutex.owner.isSome then -((t.slot k).lock.mutex.waiting.length : Int) else 1
  released : ∀ k, t.state k ≠ .free → ∀ party, (t.post party).isIdle = true →
    (t.slot k).lock.mutex.owner ≠ some party
  between : (t.post .inp).isIdle = true → (t.post .out).isIdle = true → ∀ k, t.state k ≠ .free →
    (t.slot k).lock.count = 1 ∨
      ∃ pid, (t.slot k).lock.mutex.owner = some (.user pid) ∧
        (t.post (.user pid)).isIdle = false
  returned : ∀ k inbound iss mss, t.post .inp = .waiting k (.segment inbound iss mss) →
    t.state k ≠ .free → t.Suits k inbound.segment

end Table

/-! ## What keeps a run in order -/

/-- The segment makes `tcplisten` allocate a block. -/
def Table.Spawns (t : Table) (k : Nat) (inbound : Inbound) : Prop :=
  t.state k = .listen ∧
    ∃ conn inner, handed (t.slot k).conn inbound = some (some (conn, inner)) ∧
      inner.segment.spawns = true

/-- `tcpinp` waits for no segment of other ends. -/
def Table.Awaits (t : Table) (pid : Nat) (suits : Segment → Prop) : Prop :=
  ∀ k segment, t.post (.user pid) = .opening k → (t.post .inp).Carries k segment → suits segment

/-- A process has the mutex of a block that is not free. -/
def ErrandSober (t : Table) (k : Nat) : Errand → Prop
  | .segment inbound _ _ =>
      t.Spawns k inbound → ∀ child, t.tcballoc = some child → t.Vacant child
  | .output _ _ => t.state k ≠ .closed
  | .write octets _ => (t.slot k).conn.tcb.error = none → octets ≠ []
  | _ => True

def Sober (t : Table) : MutexEvent → Prop
  | .table (.allocate _) => ∀ k, t.tcballoc = some k → t.Vacant k
  | .table (.bind pid lip rip lport rport) =>
      t.Awaits pid fun segment => segment.ends = (rip, rport, lip, lport)
  | .table (.serve pid lport) => t.Awaits pid fun segment => segment.dport = lport
  | .table (.go party) =>
      match t.post party with
      | .waiting k errand =>
          ¬ t.Blocked k party → t.state k ≠ .free → ErrandSober t k errand
      | .parent k server inbound =>
          ¬ t.Blocked server party → t.state k = .free →
            t.state server ≠ .listen ∨ inbound.parent = .full
      | _ => True
  | _ => True

/-! ## Slots -/

section Slots

variable (t : Table) {k j : Nat}

theorem setSlot_self (slot : Slot) : (t.setSlot k slot).slot k = slot :=
  Function.update_self _ _ _

theorem setSlot_other (slot : Slot) (away : j ≠ k) : (t.setSlot k slot).slot j = t.slot j :=
  Function.update_of_ne away _ _

theorem setConn_lock {conn : Conn} (alive : conn.tcb.state ≠ .free) :
    ((t.setConn k conn).slot k).lock = (t.slot k).lock := by
  unfold Table.setConn
  rw [setSlot_self]
  exact if_neg alive

theorem wait_free {party : Party} (isFree : t.state k = .free) : t.wait k party = t :=
  if_pos isFree

theorem wait_taken {party : Party} (taken : t.state k ≠ .free) :
    t.wait k party = t.setLock k ((t.slot k).lock.wait party) := if_neg taken

theorem signal_free (isFree : t.state k = .free) : t.signal k = t := if_pos isFree

theorem signal_taken (taken : t.state k ≠ .free) :
    t.signal k = t.setLock k (t.slot k).lock.signal := if_neg taken

end Slots

/-! ## Locks and posts -/

/-- The lock of a block suits the posts. -/
def Tallies (lock : Lock Party) (post : Party → Post) (k : Nat) : Prop :=
  Lawful lock (fun party => (post party).AtLock k) (fun party => (post party).Holds k)

section Tallies

variable {lock : Lock Party} {posts : Party → Post} {party : Party} {post : Post} {k : Nat}

theorem update_at (posts : Party → Post) (party other : Party) (post : Post) :
    Function.update posts party post other = if other = party then post else posts other := by
  by_cases same : other = party
  · rw [same, Function.update_self, if_pos rfl]
  · rw [Function.update_of_ne same, if_neg same]

/-- The process stays at the lock, or away from it. -/
theorem Tallies.stay (tallies : Tallies lock posts k) (same : post.AtLock k ↔ (posts party).AtLock k)
    (holder : post.Holds k → lock.mutex.owner = some party) :
    Tallies lock (Function.update posts party post) k := by
  apply Lawful.congr tallies
  · intro other
    rw [update_at]
    split
    · next self =>
        rw [self]
        exact same
    · exact Iff.rfl
  · intro other
    rw [update_at]
    split
    · next self =>
        rw [self]
        exact holder
    · exact tallies.holder other

theorem Tallies.join (tallies : Tallies lock posts k) (before : ¬ (posts party).AtLock k)
    (after : post.AtLock k) (early : ¬ post.Holds k) :
    Tallies (lock.wait party) (Function.update posts party post) k := by
  apply Lawful.wait tallies before
  · intro other
    rw [update_at]
    split
    · next self => exact ⟨fun _ => Or.inr self, fun _ => after⟩
    · next away => exact ⟨Or.inl, fun either => either.resolve_right away⟩
  · intro other
    rw [update_at]
    split
    · exact fun impossible => absurd impossible early
    · exact id

theorem Tallies.leave (tallies : Tallies lock posts k) (owner : lock.mutex.owner = some party)
    (after : ¬ post.AtLock k) : Tallies lock.signal (Function.update posts party post) k := by
  apply Lawful.signal tallies owner
  · intro other
    rw [update_at]
    split
    · next self =>
        exact ⟨fun impossible => absurd impossible after, fun both => absurd self both.2⟩
    · next away => exact (and_iff_left away).symm
  · intro other
    rw [update_at]
    split
    · exact fun impossible => absurd impossible.atLock after
    · next away => exact fun holds => ⟨holds, away⟩

/-- A new lock, and nobody else at it. -/
theorem tallies_created (vacant : ∀ other, other ≠ party → ¬ (posts other).AtLock k)
    (after : post.AtLock k) : Tallies (Lock.created party) (Function.update posts party post) k := by
  apply created_lawful
  · intro other
    rw [update_at]
    split
    · next self => exact ⟨fun _ => self, fun _ => after⟩
    · next away =>
        exact ⟨fun impossible => absurd impossible (vacant other away), fun self => absurd self away⟩
  · intro other
    rw [update_at]
    split
    · next self => exact fun _ => self
    · next away => exact fun holds => absurd holds.atLock (vacant other away)

end Tallies

/-! ## The invariant -/

/-- The process is `tcpinp`'s. -/
def Post.Inbound : Post → Prop
  | .matched _ _ _ _ => True
  | .waiting _ (.segment _ _ _) => True
  | .parent _ _ _ => True
  | .spawned _ _ => True
  | _ => False

/-- The process takes the block for a connection without a look at its state. -/
def Post.Opens (k : Nat) : Post → Prop
  | .parent j _ _ => j = k
  | .leaving j (some true) => j = k
  | .sleeping j true => j = k
  | _ => False

/-- The two mutexes of the process are not one. -/
def Post.Apart : Post → Prop
  | .parent j server _ => j ≠ server
  | .spawned j child => j ≠ child
  | _ => True

theorem Post.Carries.inbound {post : Post} {k : Nat} {segment : Segment}
    (carries : post.Carries k segment) : post.Inbound := by
  cases post with
  | matched j inbound iss mss => trivial
  | waiting j errand =>
      cases errand with
      | segment inbound iss mss => trivial
      | _ => cases carries
  | _ => cases carries

/-- As `tcballoc` leaves a block. -/
def Table.Fresh (t : Table) (k : Nat) : Prop :=
  t.state k = .closed ∧ (t.slot k).conn.tcb.error = none

structure Table.Ordered (t : Table) : Prop where
  tallies : ∀ k, t.state k ≠ .free → Tallies (t.slot k).lock t.post k
  sought : ∀ k segment, (t.post .inp).Carries k segment → t.state k ≠ .free → t.Suits k segment
  kinds : ∀ k, t.state k ≠ .free → t.state k ≠ .closed → (t.slot k).kind ≠ .other
  openers : ∀ party k, (t.post party).Opens k → (t.slot k).kind ≠ .other
  parents : ∀ k, (t.slot k).parent ≠ some k
  roles : ∀ party, (t.post party).Inbound → party = .inp
  apart : ∀ party, (t.post party).Apart
  opening : ∀ party k, t.post party = .opening k → t.Fresh k

/-- No block without a type is left open, and no type is lost. -/
structure Table.Tame (t after : Table) : Prop where
  typed : ∀ k, after.state k ≠ .free → after.state k ≠ .closed → (after.slot k).kind ≠ .other
  kind : ∀ k, (t.slot k).kind ≠ .other → (after.slot k).kind ≠ .other
  parent : ∀ k, (after.slot k).parent ≠ some k

/-- What a segment waits for is still there. -/
def Table.Suited (t after : Table) : Prop :=
  ∀ k segment, (t.post .inp).Carries k segment → after.state k ≠ .free →
    t.state k ≠ .free ∧ (t.Suits k segment → after.Suits k segment)

section Ordered

variable {t after : Table} {party : Party} {post : Post} {k : Nat}

theorem Table.Ordered.tame (ordered : t.Ordered) : t.Tame t :=
  ⟨ordered.kinds, fun _ => id, ordered.parents⟩

/-- One process goes on. -/
theorem Table.Ordered.moved (ordered : t.Ordered)
    (posts : after.post = t.post) (tame : t.Tame after)
    (tallies : ∀ k, after.state k ≠ .free →
      Tallies (after.slot k).lock (Function.update t.post party post) k)
    (sought : ∀ k segment, (Function.update t.post party post .inp).Carries k segment →
      after.state k ≠ .free → after.Suits k segment)
    (role : post.Inbound → party = .inp)
    (opens : ∀ k, post.Opens k → (after.slot k).kind ≠ .other)
    (apart : post.Apart)
    (opening : ∀ k, post = .opening k → after.Fresh k)
    (spared : ∀ other k, other ≠ party → t.post other = .opening k → after.Fresh k) :
    (after.place party post).Ordered := by
  have posts : (after.place party post).post = Function.update t.post party post := by
    unfold Table.place
    rw [posts]
  refine ⟨?_, ?_, tame.typed, ?_, tame.parent, ?_, ?_, ?_⟩
  · rw [posts]
    exact tallies
  · rw [posts]
    exact sought
  · intro other k
    change _ → (after.slot k).kind ≠ _
    rw [posts, update_at]
    split
    · exact opens k
    · exact fun opening => tame.kind k (ordered.openers other k opening)
  · intro other
    rw [posts, update_at]
    split
    · next self =>
        rw [self]
        exact role
    · exact ordered.roles other
  · intro other
    rw [posts, update_at]
    split
    · exact apart
    · exact ordered.apart other
  · intro other k stands
    rw [posts, update_at] at stands
    split at stands
    · exact opening k stands
    · next away => exact spared other k away stands

/-- The process carries no segment, or had it before. -/
theorem Table.Ordered.still_sought (ordered : t.Ordered)
    (suited : party = .inp ∨ t.Suited after)
    (carries : ∀ k segment, party = .inp → post.Carries k segment → after.state k ≠ .free →
      after.Suits k segment) :
    ∀ k segment, (Function.update t.post party post .inp).Carries k segment →
      after.state k ≠ .free → after.Suits k segment := by
  intro k segment carried taken
  rw [update_at] at carried
  split at carried
  · next self => exact carries k segment self.symm carried taken
  · next away =>
      have suited := suited.resolve_left fun self => away self.symm
      obtain ⟨alive, suits⟩ := suited k segment carried taken
      exact suits (ordered.sought k segment carried alive)

/-- A block that is being opened is not free. -/
theorem Table.Ordered.unfree (ordered : t.Ordered) (stands : t.post party = .opening k) :
    t.state k ≠ .free := by
  rw [(ordered.opening party k stands).1]
  decide

/-- Who has the mutex is the only one to open the block. -/
theorem Table.Ordered.alone (ordered : t.Ordered)
    (owner : (t.slot k).lock.mutex.owner = some party) (other : Party) (away : other ≠ party) :
    t.post other ≠ .opening k := by
  intro stands
  have itsOwner := (ordered.tallies k (ordered.unfree stands)).holder other (by rw [stands]; rfl)
  rw [owner] at itsOwner
  exact away (Option.some.inj itsOwner).symm

/-- Nobody opens a block that is free, in error or about to be closed. -/
theorem Table.Ordered.unopened (ordered : t.Ordered) (stale : ¬ t.Fresh k) (other : Party) :
    t.post other ≠ .opening k :=
  fun stands => stale (ordered.opening other k stands)

/-! ## Changes of one block -/

theorem setLock_state (t : Table) (k j : Nat) (lock : Lock Party) :
    (t.setLock k lock).state j = t.state j :=
  congrArg (fun conn => conn.tcb.state) (setLock_conn lock j)

theorem setLock_lock (t : Table) (k : Nat) (lock : Lock Party) :
    ((t.setLock k lock).slot k).lock = lock := by
  unfold Table.setLock
  rw [setSlot_self]

theorem setLock_other {j : Nat} (away : j ≠ k) (lock : Lock Party) :
    (t.setLock k lock).slot j = t.slot j := setSlot_other t _ away

theorem setLock_kept (t : Table) (k j : Nat) (lock : Lock Party) :
    ((t.setLock k lock).slot j).kind = (t.slot j).kind ∧
      ((t.setLock k lock).slot j).parent = (t.slot j).parent := by
  by_cases self : j = k
  · rw [self]
    unfold Table.setLock
    rw [setSlot_self]
    exact ⟨rfl, rfl⟩
  · rw [setLock_other self]
    exact ⟨rfl, rfl⟩

theorem Table.Tame.locked (tame : t.Tame after) (k : Nat) (lock : Lock Party) :
    t.Tame (after.setLock k lock) := by
  refine ⟨?_, ?_, ?_⟩
  · intro j
    rw [setLock_state, (setLock_kept after k j lock).1]
    exact tame.typed j
  · intro j
    rw [(setLock_kept after k j lock).1]
    exact tame.kind j
  · intro j
    rw [(setLock_kept after k j lock).2]
    exact tame.parent j

theorem setLock_fresh (lock : Lock Party) {j : Nat} : (t.setLock k lock).Fresh j ↔ t.Fresh j := by
  unfold Table.Fresh
  rw [setLock_state, setLock_conn]

theorem setLock_suits (lock : Lock Party) {j : Nat} {segment : Segment} :
    (t.setLock k lock).Suits j segment ↔ t.Suits j segment := by
  unfold Table.Suits Slot.Pairs Slot.Listens
  rw [setLock_conn]

theorem Table.Suited.refl (t : Table) : t.Suited t := fun _ _ _ taken => ⟨taken, id⟩

theorem Table.Suited.locked (suited : t.Suited after) (k : Nat) (lock : Lock Party) :
    t.Suited (after.setLock k lock) := by
  intro j segment carries taken
  rw [setLock_state] at taken
  rw [setLock_suits]
  exact suited j segment carries taken

/-- A block keeps its type when its connection changes. -/
theorem Table.Ordered.setConn_tame (ordered : t.Ordered) {conn : Conn}
    (typed : conn.tcb.state ≠ .free → conn.tcb.state ≠ .closed → (t.slot k).kind ≠ .other) :
    t.Tame (t.setConn k conn) := by
  refine ⟨?_, ?_, ?_⟩
  · intro j
    unfold Table.state Table.setConn
    by_cases self : j = k
    · rw [self, setSlot_self]
      exact typed
    · rw [setSlot_other t _ self]
      exact ordered.kinds j
  · intro j
    unfold Table.setConn
    by_cases self : j = k
    · rw [self, setSlot_self]
      exact id
    · rw [setSlot_other t _ self]
      exact id
  · intro j
    unfold Table.setConn
    by_cases self : j = k
    · rw [self, setSlot_self]
      exact ordered.parents k
    · rw [setSlot_other t _ self]
      exact ordered.parents j

theorem setConn_other {conn : Conn} {j : Nat} (away : j ≠ k) :
    (t.setConn k conn).slot j = t.slot j := setSlot_other t _ away

theorem setConn_other_state {conn : Conn} {j : Nat} (away : j ≠ k) :
    (t.setConn k conn).state j = t.state j := by
  unfold Table.state
  rw [setConn_other away]

theorem setConn_own_state {conn : Conn} : (t.setConn k conn).state k = conn.tcb.state :=
  congrArg (fun conn => conn.tcb.state) setConn_sets.own

theorem setConn_other_fresh {conn : Conn} {j : Nat} (away : j ≠ k) :
    (t.setConn k conn).Fresh j ↔ t.Fresh j := by
  unfold Table.Fresh Table.state
  rw [setConn_other away]

/-- The ends stay, and a server goes on listening. -/
theorem setConn_suited {conn : Conn} (kin : Kin (t.slot k).conn conn) :
    t.Suited (t.setConn k conn) := by
  intro j segment _ alive
  by_cases self : j = k
  · rw [self] at alive ⊢
    rw [setConn_own_state] at alive
    refine ⟨(kin.resolve_left alive).1, fun suits => Kin.suits ?_ ?_ suits⟩
    · rw [setConn_sets.own]
      exact kin
    · rw [setConn_sets.own]
      exact alive
  · unfold Table.Suits
    rw [setConn_other self]
    rw [setConn_other_state self] at alive
    exact ⟨alive, id⟩

/-- The lock of a block that is changed and not given back. -/
theorem setConn_alive {conn : Conn} {j : Nat} (taken : (t.setConn k conn).state j ≠ .free) :
    ((t.setConn k conn).slot j).lock = (t.slot j).lock := by
  by_cases self : j = k
  · rw [self] at taken ⊢
    rw [setConn_own_state] at taken
    exact setConn_lock t taken
  · rw [setConn_other self]

/-- `tcbdealloc` of a block that has a type. -/
theorem tcbdealloc_typed (taken : t.state k ≠ .free) (typed : (t.slot k).kind ≠ .other) :
    t.tcbdealloc k = t.setConn k (Tcp.tcbdealloc (t.slot k).conn) := by
  unfold Table.tcbdealloc
  rw [if_neg taken]
  cases kind : (t.slot k).kind with
  | other => exact absurd kind typed
  | server => rfl
  | connection => rfl

end Ordered

end MvsXinu.Tcp
