import MvsXinu.Memory.PortLaw

/-!
# Sending and receiving

A process that a semaphore lets into `psend` or `preceive`, at once or behind `wait`, finds the
room or the message that the semaphore has counted for it.
-/

namespace MvsXinu.Ports

open MvsXinu.Kernel MvsXinu.Chains MvsXinu.Shelves

set_option autoImplicit false

/-- The queue alone may be different. -/
structure SameEntry (pt later : Pt) : Prop where
  ptstate : later.ptstate = pt.ptstate
  ptssem : later.ptssem = pt.ptssem
  ptrsem : later.ptrsem = pt.ptrsem
  ptmaxcnt : later.ptmaxcnt = pt.ptmaxcnt
  ptseq : later.ptseq = pt.ptseq

/-- The calls of the port stand where they stood. -/
structure SameCalls (s later : Ports) (portid : Int) : Prop where
  entry : SameEntry (s.ports portid) (later.ports portid)
  age : later.age portid = s.age portid
  owned : later.owned portid = s.owned portid
  place : later.place = s.place

section Same

variable {s later : Ports} {portid : Int} {room stock : Int}

theorem SameCalls.ticket_eq (same : SameCalls s later portid) (sem : Int) :
    later.ticket portid sem = s.ticket portid sem := by
  unfold Ports.ticket
  rw [same.entry.ptseq, same.age]

theorem SameCalls.sends_iff (same : SameCalls s later portid) (pid : Int) :
    later.Sends portid pid ↔ s.Sends portid pid := by
  unfold Ports.Sends
  rw [same.ticket_eq, same.entry.ptssem, same.place]

theorem SameCalls.receives_iff (same : SameCalls s later portid) (pid : Int) :
    later.Receives portid pid ↔ s.Receives portid pid := by
  unfold Ports.Receives
  rw [same.ticket_eq, same.entry.ptrsem, same.place]

theorem SameCalls.disposing_iff (same : SameCalls s later portid) :
    later.Disposing portid ↔ s.Disposing portid := by
  unfold Ports.Disposing
  rw [same.place]

theorem SameCalls.held_eq (same : SameCalls s later portid) :
    later.held portid = s.held portid := by
  unfold Ports.held
  rw [same.entry.ptstate, same.age]

theorem Staffed.congr (staffed : Staffed s portid) (same : SameCalls s later portid) :
    Staffed later portid := by
  constructor
  · rw [same.entry.ptseq, same.age]
    exact staffed.seq
  · rw [same.place, same.entry.ptstate, same.age]
    exact staffed.limbo
  · rw [same.place]
    exact staffed.alone
  · rw [same.place, same.age, same.entry.ptstate]
    exact staffed.tickets
  · rw [same.place, same.age, same.entry.ptssem]
    exact staffed.sender
  · rw [same.place, same.age, same.entry.ptrsem]
    exact staffed.receiver

theorem Paired.congr (paired : Paired s portid) (same : SameCalls s later portid) :
    Paired later portid := by
  constructor
  · rw [same.entry.ptssem, same.owned]
    exact paired.ssem
  · rw [same.entry.ptrsem, same.owned]
    exact paired.rsem
  · rw [same.entry.ptssem, same.entry.ptrsem]
    exact paired.apart

theorem SendAdmits.congr (send : SendAdmits s portid room) (same : SameCalls s later portid)
    (kept : s.Kept later portid) : SendAdmits later portid room := by
  unfold SendAdmits
  rw [same.entry.ptmaxcnt, same.entry.ptssem, same.owned]
  intro notNegative owned
  obtain ⟨semaph, waiting⟩ := kept _ owned
  exact (send notNegative owned).congr semaph waiting same.sends_iff

theorem ReceiveAdmits.congr (receive : ReceiveAdmits s portid stock)
    (same : SameCalls s later portid) (kept : s.Kept later portid) :
    ReceiveAdmits later portid stock := by
  unfold ReceiveAdmits
  rw [same.entry.ptrsem, same.owned]
  intro owned
  obtain ⟨semaph, waiting⟩ := kept _ owned
  exact (receive owned).congr semaph waiting same.receives_iff

theorem Paired.differ (paired : Paired s portid)
    (usable : ∀ sem ∈ s.owned portid, ¬ refused s.sems sem)
    (owned : (s.ports portid).ptssem ∈ s.owned portid) :
    (s.ports portid).ptssem ≠ (s.ports portid).ptrsem := by
  intro equal
  have none := paired.apart equal
  rw [none] at owned
  exact usable _ owned (Or.inl (by decide))

/-- `signal` at the end of `psend`. -/
theorem Guarded.more_stock (guarded : Guarded s portid room stock)
    (usable : ∀ sem ∈ s.owned portid, ¬ refused s.sems sem) (small : stock < 2147483647)
    (same : SameCalls s later portid)
    (sems : later.sems = (signalled s.sems (s.ports portid).ptrsem).1) :
    Guarded later portid room (stock + 1) := by
  refine ⟨guarded.toPaired.congr same, ?_, ?_⟩
  · unfold SendAdmits
    rw [same.entry.ptmaxcnt, same.entry.ptssem, same.owned, sems]
    intro notNegative owned
    have differ := guarded.toPaired.differ usable owned
    obtain ⟨semaph, waiting⟩ := signalled_onlyAt s.sems (s.ports portid).ptrsem _ differ
    exact (guarded.send notNegative owned).congr semaph waiting same.sends_iff
  · unfold ReceiveAdmits
    rw [same.entry.ptrsem, same.owned, sems]
    intro owned
    exact ((guarded.receive owned).signalled small).congr rfl rfl same.receives_iff

/-- `signal` at the end of `preceive`. -/
theorem Guarded.more_room (guarded : Guarded s portid room stock)
    (usable : ∀ sem ∈ s.owned portid, ¬ refused s.sems sem) (small : room < 2147483647)
    (same : SameCalls s later portid)
    (sems : later.sems = (signalled s.sems (s.ports portid).ptssem).1) :
    Guarded later portid (room + 1) stock := by
  refine ⟨guarded.toPaired.congr same, ?_, ?_⟩
  · unfold SendAdmits
    rw [same.entry.ptmaxcnt, same.entry.ptssem, same.owned, sems]
    intro notNegative owned
    exact ((guarded.send notNegative owned).signalled small).congr rfl rfl same.sends_iff
  · unfold ReceiveAdmits
    rw [same.entry.ptrsem, same.owned, sems]
    intro owned
    by_cases none : (s.ports portid).ptssem = (s.ports portid).ptrsem
    · have isNone := guarded.toPaired.apart none
      rw [← none, isNone] at owned
      exact absurd (Or.inl (by decide)) (usable _ owned)
    · obtain ⟨semaph, waiting⟩ := signalled_onlyAt s.sems (s.ports portid).ptssem _ (Ne.symm none)
      exact (guarded.receive owned).congr semaph waiting same.receives_iff

end Same

/-! ## Waiting and going on -/

/-- The processes and the semaphores are others. -/
def Ports.with (s : Ports) (sems : Sems) (places : Int → Place) (stopped : Bool) : Ports :=
  { s with sems := sems, place := places, stopped := stopped }

section Moves

variable {s : Ports} {sems : Sems} {places : Int → Place} {stopped : Bool} {portid place : Int}
  {nodes free : List Int} {queue : Int → List Int}

/-- Nobody begins or ends `_ptclear`. -/
def SameClearing (s : Ports) (places : Int → Place) (portid : Int) : Prop :=
  ∀ pid newstate dispose phase, places pid = .clearing portid newstate dispose phase ↔
    s.place pid = .clearing portid newstate dispose phase

theorem SameClearing.disposing_iff (same : SameClearing s places portid) :
    (s.with sems places stopped).Disposing portid ↔ s.Disposing portid := by
  constructor
  · rintro ⟨pid, newstate, p, clearing⟩
    exact ⟨pid, newstate, p, (same _ _ _ _).mp clearing⟩
  · rintro ⟨pid, newstate, p, clearing⟩
    exact ⟨pid, newstate, p, (same _ _ _ _).mpr clearing⟩

theorem SameClearing.linked_iff (same : SameClearing s places portid) :
    (s.with sems places stopped).Linked portid ↔ s.Linked portid :=
  or_congr Iff.rfl same.disposing_iff

theorem Queued.with (queued : Queued s portid nodes) (same : SameClearing s places portid) :
    Queued (s.with sems places stopped) portid nodes where
  linked := fun linked => queued.linked (same.linked_iff.mp linked)
  unlinked := fun unlinked => queued.unlinked fun linked => unlinked (same.linked_iff.mpr linked)
  bounded := queued.bounded

theorem Booked.with (booked : Booked s portid nodes) (same : SameClearing s places portid) :
    Booked (s.with sems places stopped) portid nodes where
  fate := booked.fate
  own := booked.own
  fresh := booked.fresh
  ongoing := fun linked => booked.ongoing (same.linked_iff.mp linked)
  lasting := by
    intro age
    rw [same.disposing_iff]
    exact booked.lasting age
  disposed := booked.disposed
  disposing := fun pid newstate p clearing =>
    booked.disposing pid newstate p ((same _ _ _ _).mp clearing)

theorem Paired.with (paired : Paired s portid) : Paired (s.with sems places stopped) portid :=
  ⟨paired.ssem, paired.rsem, paired.apart⟩

/-- The processes of the port have moved, and its semaphores with them. -/
structure Moved (s : Ports) (sems : Sems) (places : Int → Place) (portid : Int) : Prop where
  clearing : SameClearing s places portid
  near : ∀ pid, places pid = s.place pid ∨ ∀ other, other ≠ portid →
    (s.place pid).port ≠ some other ∧ (places pid).port ≠ some other
  others : ∀ sem, sem ∉ s.owned portid →
    sems.semaph sem = s.sems.semaph sem ∧ sems.waiting sem = s.sems.waiting sem
  usable : ∀ sem ∈ s.owned portid, ¬ refused sems sem
  staffed : Staffed (s.with sems places s.stopped) portid

theorem Sound.moved (sound : Sound s place free queue) (moved : Moved s sems places portid)
    (runs : stopped = false → s.stopped = false)
    (guarded : stopped = false → (s.ports portid).ptstate = .alloc →
      Guarded (s.with sems places stopped) portid
        ((s.ports portid).ptmaxcnt.toInt - (queue portid).length) (queue portid).length)
    (clears : stopped = false → ∀ pid newstate dispose phase,
      places pid = .clearing portid newstate dispose phase →
        ClearGuarded (s.with sems places stopped) portid newstate phase) :
    Sound (s.with sems places stopped) place free queue := by
  have inv := sound.ports portid
  have same : SameCalls (s.with sems places s.stopped) (s.with sems places stopped) portid :=
    ⟨⟨rfl, rfl, rfl, rfl, rfl⟩, rfl, rfl, rfl⟩
  rw [← Function.update_eq_self portid queue]
  apply sound.step
  · exact ⟨fun _ _ => rfl, fun _ _ => rfl, fun _ _ => rfl, fun _ _ => rfl, moved.near, runs⟩
  · exact
      { toQueued := inv.toQueued.with moved.clearing
        toBooked := inv.toBooked.with moved.clearing
        toStaffed := moved.staffed.congr same
        guarded := guarded
        clears := clears }
  · exact sound.freed
  · rw [Function.update_eq_self]
    exact sound.stocked
  · exact sound.outside portid
  · exact sound.nextp
  · exact fun sem notOwned _ => moved.others sem notOwned
  · exact fun _ _ _ _ => ⟨rfl, rfl⟩
  · exact fun _ => moved.usable
  · exact fun sem member other away inOther => away (sound.apart portid other sem member inOther)
  · exact sound.single portid

end Moves

/-! ## Messages -/

section Messages

variable {s : Ports} {sems : Sems} {places : Int → Place} {portid place : Int}
  {nodes free : List Int} {queue : Int → List Int} {msg : Word}

theorem nodes_length (place : Int) : (Ports.nodes place).length = maxmsgs := by
  unfold Ports.nodes
  rw [Pool.places_eq, List.length_map, List.length_range]

theorem Sound.short (sound : Sound s place free queue) (portid : Int) :
    (queue portid).length ≤ maxmsgs := by
  by_cases bad : isbadport portid
  · rw [(sound.ports portid).free_queue (sound.outside portid bad)]
    exact Nat.zero_le _
  · have := sound.stocked.length_le (mem_portids.mpr bad)
    rw [nodes_length] at this
    omega

theorem Staffed.no_clearing (staffed : Staffed s portid) (alloc : (s.ports portid).ptstate = .alloc)
    {pid : Int} {newstate : Ptstate} {dispose : Bool} {phase : Clearing} :
    s.place pid ≠ .clearing portid newstate dispose phase := by
  intro clearing
  have limbo := (staffed.limbo pid newstate dispose phase clearing).1
  rw [alloc] at limbo
  cases limbo

/-- The book of a port that has a queue. -/
theorem Booked.current (booked : Booked s portid nodes) (staffed : Staffed s portid)
    (alloc : (s.ports portid).ptstate = .alloc) :
    (s.book portid (s.age portid)).accepted.map Passage.msg =
        (s.book portid (s.age portid)).received.map Passage.msg ++ nodes.map s.ptmsg ∧
      (s.book portid (s.age portid)).ended = none ∧
      (s.book portid (s.age portid)).discarded = [] ∧
      (s.book portid (s.age portid)).disposed = [] := by
  have held : s.held portid = s.age portid := if_pos alloc
  have ongoing := booked.ongoing (Or.inl alloc)
  rw [held] at ongoing
  obtain ⟨none, undisposed⟩ := booked.lasting _ ongoing
  have fate := booked.fate (s.age portid)
  rw [none, List.nil_append, if_pos held.symm] at fate
  refine ⟨fate, ongoing, none, undisposed.resolve_right ?_⟩
  rintro ⟨_, pid, newstate, p, clearing⟩
  exact staffed.no_clearing alloc clearing

/-- A message is accepted or received, and nothing else of the books changes. -/
theorem Booked.record {later : Ports} {now : List Int} {accepted received : List Passage}
    (booked : Booked s portid nodes) (staffed : Staffed s portid)
    (alloc : (s.ports portid).ptstate = .alloc) (same : SameCalls s later portid)
    (book : later.book portid = Function.update (s.book portid) (s.age portid)
      { s.book portid (s.age portid) with accepted := accepted, received := received })
    (fate : accepted.map Passage.msg = received.map Passage.msg ++ now.map later.ptmsg)
    (own : ∀ passage ∈ accepted ++ received, passage.age = s.age portid) :
    Booked later portid now := by
  have held : s.held portid = s.age portid := if_pos alloc
  have heldLater : later.held portid = s.age portid := by rw [same.held_eq, held]
  have allocLater : (later.ports portid).ptstate = .alloc := by rw [same.entry.ptstate, alloc]
  obtain ⟨_, ongoing, discarded, disposed⟩ := booked.current staffed alloc
  constructor
  · intro age
    rw [heldLater, book]
    by_cases current : age = s.age portid
    · subst current
      rw [Function.update_self, if_pos rfl]
      dsimp only
      rw [discarded, List.nil_append]
      exact fate
    · rw [Function.update_of_ne current]
      have old := booked.fate age
      rw [held] at old
      rwa [if_neg current] at old ⊢
  · intro age passage member
    rw [book] at member
    by_cases current : age = s.age portid
    · subst current
      rw [Function.update_self] at member
      exact own passage member
    · rw [Function.update_of_ne current] at member
      exact booked.own age passage member
  · intro age beyond
    rw [heldLater] at beyond
    rw [book, Function.update_of_ne (by omega)]
    exact booked.fresh age (held ▸ beyond)
  · intro _
    rw [heldLater, book, Function.update_self]
    exact ongoing
  · intro age
    rw [book]
    by_cases current : age = s.age portid
    · subst current
      rw [Function.update_self]
      exact fun _ => ⟨discarded, Or.inl disposed⟩
    · rw [Function.update_of_ne current, heldLater, same.disposing_iff, ← held]
      exact booked.lasting age
  · intro age dispose
    rw [book]
    by_cases current : age = s.age portid
    · subst current
      rw [Function.update_self]
      exact booked.disposed _ dispose
    · rw [Function.update_of_ne current]
      exact booked.disposed age dispose
  · intro pid newstate p clearing
    exact absurd clearing ((staffed.congr same).no_clearing allocLater)

/-- A call of `psend` or `preceive` has come to its end, the signal. -/
theorem Sound.exchanged {later : Ports} {freeNow now : List Int} {sem : Int}
    (sound : Sound s place free queue) (good : ¬ isbadport portid)
    (alloc : (s.ports portid).ptstate = .alloc) (moved : Moved s sems places portid)
    (here : Local (s.with sems places s.stopped) later portid)
    (same : SameCalls (s.with sems places s.stopped) later portid)
    (nextp : later.ptnextp = s.ptnextp) (signals : later.sems = (signalled sems sem).1)
    (paired : sem = syserr ∨ sem ∈ s.owned portid)
    (queued : Queued later portid now) (booked : Booked later portid now)
    (guarded : Guarded later portid ((s.ports portid).ptmaxcnt.toInt - now.length) now.length)
    (freed : Chain 0 later.ptnext later.ptfree freeNow)
    (stocked : Stocked (Ports.nodes place) freeNow portids (Function.update queue portid now))
    (words : ∀ other, other ≠ portid → ∀ node ∈ queue other,
      later.ptnext node = s.ptnext node ∧ later.ptmsg node = s.ptmsg node) :
    Sound later place freeNow (Function.update queue portid now) := by
  have staffed := moved.staffed.congr same
  have allocLater : (later.ports portid).ptstate = .alloc := same.entry.ptstate.trans alloc
  have maxcnt : (later.ports portid).ptmaxcnt = (s.ports portid).ptmaxcnt := same.entry.ptmaxcnt
  have owned : later.owned portid = s.owned portid := same.owned
  have first : Local s (s.with sems places s.stopped) portid :=
    ⟨fun _ _ => rfl, fun _ _ => rfl, fun _ _ => rfl, fun _ _ => rfl, moved.near, id⟩
  apply sound.step (first.trans here)
  · exact
      { toQueued := queued
        toBooked := booked
        toStaffed := staffed
        guarded := fun _ _ => maxcnt ▸ guarded
        clears := fun _ _ _ _ _ clearing => absurd clearing (staffed.no_clearing allocLater) }
  · exact freed
  · exact stocked
  · exact fun bad => absurd bad good
  · rw [nextp]
    exact sound.nextp
  · intro other notOwned _
    rw [signals]
    have before := moved.others other notOwned
    rcases paired with none | isOwned
    · have refuses : refused sems sem := by
        rw [none]
        exact Or.inl (by decide)
      unfold signalled
      rw [if_pos refuses]
      exact before
    · have away : other ≠ sem := fun equal => notOwned (equal ▸ isOwned)
      obtain ⟨semaph, waiting⟩ := signalled_onlyAt sems sem other away
      exact ⟨semaph.trans before.1, waiting.trans before.2⟩
  · exact words
  · intro _ other isOwned
    rw [signals, signalled_refused]
    exact moved.usable other (owned ▸ isOwned)
  · intro other isOwned third away inThird
    exact away (sound.apart portid third other (owned ▸ isOwned) inThird)
  · rw [owned]
    exact sound.single portid

/-- The room that the semaphore has counted is there. -/
theorem Sound.room_left {room stock : Int} {later : Ports} {node : Int} {rest : List Int}
    (sound : Sound s place (node :: rest) queue) (good : ¬ isbadport portid)
    (maxcnt : (later.ports portid).ptmaxcnt = (s.ports portid).ptmaxcnt)
    (owned : (later.ports portid).ptssem ∈ later.owned portid)
    (guarded : Guarded later portid room stock)
    (counts : room = (s.ports portid).ptmaxcnt.toInt - (queue portid).length - 1) :
    (queue portid).length + 1 ≤ (s.ports portid).ptmaxcnt.toNat := by
  have few := sound.stocked.length_le (mem_portids.mpr good)
  rw [nodes_length] at few
  simp only [List.length_cons, maxmsgs] at few
  have value := (s.ports portid).ptmaxcnt.toInt_eq_toNat_cond
  by_cases notNegative : 0 ≤ (s.ports portid).ptmaxcnt.toInt
  · have nonneg := (guarded.send (maxcnt ▸ notNegative) owned).nonneg
    split at value <;> omega
  · split at value <;> omega

end Messages

/-! ## `enqueue` -/

section Enqueue

variable {s : Ports} {portid : Int} {age : Nat} {msg : Word}

theorem enqueue_entry (some : s.ptfree ≠ 0) :
    (s.enqueue portid age msg).ports portid =
      { s.ports portid with
        pthead := if (s.ports portid).pttail = 0 then s.ptfree else (s.ports portid).pthead
        pttail := s.ptfree } := by
  unfold Ports.enqueue
  rw [if_neg some]
  dsimp only
  rw [Function.update_self]
  split <;> rfl

theorem enqueue_calls (some : s.ptfree ≠ 0) :
    SameCalls s (s.enqueue portid age msg) portid := by
  have entry := @enqueue_entry s portid age msg some
  have rest : (s.enqueue portid age msg).age = s.age ∧ (s.enqueue portid age msg).owned = s.owned ∧
      (s.enqueue portid age msg).place = s.place := by
    unfold Ports.enqueue
    rw [if_neg some]
    exact ⟨rfl, rfl, rfl⟩
  refine ⟨?_, ?_, ?_, rest.2.2⟩
  · rw [entry]
    exact ⟨rfl, rfl, rfl, rfl, rfl⟩
  · rw [rest.1]
  · rw [rest.2.1]

theorem enqueue_local (some : s.ptfree ≠ 0) : Local s (s.enqueue portid age msg) portid := by
  unfold Ports.enqueue
  rw [if_neg some]
  exact ⟨fun _ away => Function.update_of_ne away _ _, fun _ _ => rfl, fun _ _ => rfl,
    fun _ away => Function.update_of_ne away _ _, fun _ => Or.inl rfl, id⟩

/-- The fields that are not those of a port. -/
theorem enqueue_rest (some : s.ptfree ≠ 0) :
    (s.enqueue portid age msg).ptfree = s.ptnext s.ptfree ∧
      (s.enqueue portid age msg).ptmsg = Function.update s.ptmsg s.ptfree msg ∧
      (s.enqueue portid age msg).ptnext =
        (if (s.ports portid).pttail = 0 then Function.update s.ptnext s.ptfree 0
          else Function.update (Function.update s.ptnext s.ptfree 0) (s.ports portid).pttail
            s.ptfree) ∧
      (s.enqueue portid age msg).ptnextp = s.ptnextp ∧
      (s.enqueue portid age msg).sems = (signalled s.sems (s.ports portid).ptrsem).1 := by
  unfold Ports.enqueue
  rw [if_neg some]
  exact ⟨rfl, rfl, rfl, rfl, rfl⟩

theorem enqueue_book (some : s.ptfree ≠ 0) :
    (s.enqueue portid age msg).book portid = Function.update (s.book portid) (s.age portid)
      { s.book portid (s.age portid) with
        accepted := (s.book portid (s.age portid)).accepted ++ [⟨age, msg⟩] } := by
  unfold Ports.enqueue
  rw [if_neg some]
  exact Function.update_self _ _ _

theorem enqueue_words (some : s.ptfree ≠ 0) {node : Int} (notFree : node ≠ s.ptfree)
    (notLast : (s.ports portid).pttail ≠ 0 → node ≠ (s.ports portid).pttail) :
    (s.enqueue portid age msg).ptnext node = s.ptnext node ∧
      (s.enqueue portid age msg).ptmsg node = s.ptmsg node := by
  obtain ⟨_, ptmsg, ptnext, _⟩ := @enqueue_rest s portid age msg some
  rw [ptmsg, ptnext, Function.update_of_ne notFree]
  refine ⟨?_, rfl⟩
  split
  · exact Function.update_of_ne notFree _ _
  · rename_i some
    rw [Function.update_of_ne (notLast some), Function.update_of_ne notFree]

end Enqueue

/-! ## `dequeue` -/

section Dequeue

variable {s : Ports} {portid : Int} {age : Nat}

theorem dequeue_entry :
    (s.dequeue portid age).ports portid =
      { s.ports portid with
        pthead := if (s.ports portid).pthead = (s.ports portid).pttail then 0
          else s.ptnext (s.ports portid).pthead
        pttail := if (s.ports portid).pthead = (s.ports portid).pttail then 0
          else (s.ports portid).pttail } := by
  unfold Ports.dequeue
  dsimp only
  rw [Function.update_self]
  split <;> rfl

theorem dequeue_calls : SameCalls s (s.dequeue portid age) portid := by
  refine ⟨?_, rfl, rfl, rfl⟩
  rw [dequeue_entry]
  exact ⟨rfl, rfl, rfl, rfl, rfl⟩

theorem dequeue_local : Local s (s.dequeue portid age) portid :=
  ⟨fun _ away => Function.update_of_ne away _ _, fun _ _ => rfl, fun _ _ => rfl,
    fun _ away => Function.update_of_ne away _ _, fun _ => Or.inl rfl, id⟩

theorem dequeue_book :
    (s.dequeue portid age).book portid = Function.update (s.book portid) (s.age portid)
      { s.book portid (s.age portid) with
        received := (s.book portid (s.age portid)).received ++
          [⟨age, s.ptmsg (s.ports portid).pthead⟩] } :=
  Function.update_self _ _ _

theorem dequeue_words {node : Int} (notHead : node ≠ (s.ports portid).pthead) :
    (s.dequeue portid age).ptnext node = s.ptnext node ∧
      (s.dequeue portid age).ptmsg node = s.ptmsg node :=
  ⟨Function.update_of_ne notHead _ _, rfl⟩

end Dequeue

section Entries

variable {s : Ports} {sems : Sems} {places : Int → Place} {portid place : Int}
  {free : List Int} {queue : Int → List Int} {msg : Word}

theorem Sound.mem_portids (sound : Sound s place free queue) {other node : Int}
    (isOn : node ∈ queue other) : other ∈ portids := by
  by_contra bad
  have isBad := not_not.mp fun good => bad (Ports.mem_portids.mpr good)
  rw [(sound.ports other).free_queue (sound.outside other isBad)] at isOn
  cases isOn

/-- No other port has a node that is free or on the queue of this one. -/
theorem Sound.elsewhere (sound : Sound s place free queue) {other node : Int}
    (away : other ≠ portid) (isOn : node ∈ queue other) : node ∉ free ∧ node ∉ queue portid := by
  have member := sound.mem_portids isOn
  refine ⟨sound.stocked.not_free (nodes_nodup place) member isOn, ?_⟩
  intro onThis
  exact away (sound.stocked.apart (nodes_nodup place) (sound.mem_portids onThis) member onThis isOn)

theorem Sound.enqueued (sound : Sound s place free queue) (good : ¬ isbadport portid)
    (alloc : (s.ports portid).ptstate = .alloc) (moved : Moved s sems places portid)
    (owned : (s.ports portid).ptssem ∈ s.owned portid)
    (guarded : Guarded (s.with sems places s.stopped) portid
      ((s.ports portid).ptmaxcnt.toInt - (queue portid).length - 1) (queue portid).length)
    (msg : Word) : ∃ freeNow now,
      Sound ((s.with sems places s.stopped).enqueue portid (s.age portid) msg) place freeNow now := by
  have inv := sound.ports portid
  have member : portid ∈ portids := Ports.mem_portids.mpr good
  have distinct := nodes_nodup place
  cases free with
  | nil =>
      have none : s.ptfree = 0 := sound.freed
      have spec : (s.with sems places s.stopped).enqueue portid (s.age portid) msg =
          s.with sems places true := if_pos none
      rw [spec]
      exact ⟨_, _, sound.moved moved (fun running => by cases running)
        (fun running => by cases running) (fun running => by cases running)⟩
  | cons node rest =>
      obtain ⟨isFirst, notNull, chain⟩ := sound.freed
      subst isFirst
      have some : (s.with sems places s.stopped).ptfree ≠ 0 := notNull
      have fresh : s.ptfree ∉ queue portid := fun isOn =>
        sound.stocked.not_free distinct member isOn List.mem_cons_self
      have nodup := sound.stocked.nodup_on distinct member
      have queued := inv.linked (Or.inl alloc)
      have room : (queue portid).length + 1 ≤ (s.ports portid).ptmaxcnt.toNat :=
        @Sound.room_left s portid place queue _ _ (s.with sems places s.stopped) _ _ sound good rfl owned
          guarded rfl
      have few := sound.short portid
      have same := @enqueue_calls (s.with sems places s.stopped) portid (s.age portid) msg some
      obtain ⟨ptfree, ptmsg, ptnext, nextp, signals⟩ :=
        @enqueue_rest (s.with sems places s.stopped) portid (s.age portid) msg some
      have last : (s.ports portid).pttail ≠ 0 → (s.ports portid).pttail ∈ queue portid :=
        fun notNull => queued.tail_mem fun none => notNull (queued.tail_null_iff.mpr none)
      have booked : Booked (s.with sems places s.stopped) portid (queue portid) :=
        inv.toBooked.with moved.clearing
      refine ⟨rest, Function.update queue portid (queue portid ++ [s.ptfree]), ?_⟩
      apply sound.exchanged good alloc moved (enqueue_local some) same nextp signals
        guarded.toPaired.rsem
      · constructor
        · intro _
          rw [enqueue_entry some, ptnext]
          exact queued.put nodup notNull fresh
        · intro unlinked
          exact absurd (Or.inl (same.entry.ptstate.trans alloc)) unlinked
        · rw [same.entry.ptmaxcnt, List.length_append]
          exact room
      · have current := (booked.current moved.staffed alloc).1
        apply booked.record moved.staffed alloc same (enqueue_book some)
        · rw [List.map_append, List.map_append, current, ptmsg, List.append_assoc]
          congr 2
          · apply List.map_congr_left
            intro node isOn
            have away : node ≠ s.ptfree := fun equal => fresh (equal ▸ isOn)
            exact (Function.update_of_ne away _ _).symm
          · simp [Ports.with]
        · intro passage member
          simp only [List.mem_append, List.mem_singleton] at member
          rcases member with (old | new) | old
          · exact booked.own _ passage (List.mem_append_left _ old)
          · rw [new]
            rfl
          · exact booked.own _ passage (List.mem_append_right _ old)
      · have more := guarded.more_stock moved.usable (by unfold maxmsgs at few; omega) same signals
        rw [List.length_append, List.length_singleton]
        push_cast
        rwa [← Int.sub_sub]
      · rw [ptfree]
        apply chain.congr
        intro node isFree
        have free : node ∈ s.ptfree :: rest := List.mem_cons_of_mem _ isFree
        refine (enqueue_words some ?_ ?_).1
        · intro equal
          have nodupFree := (List.nodup_append.mp (sound.stocked.nodup_iff.mpr distinct)).1
          exact (List.nodup_cons.mp nodupFree).1 (equal ▸ isFree)
        · intro notNull equal
          exact sound.stocked.not_free distinct member (last notNull) (equal ▸ free)
      · exact sound.stocked.put portids_nodup member
      · intro other away node isOn
        obtain ⟨notFree, notHere⟩ := sound.elsewhere away isOn
        apply enqueue_words some
        · intro equal
          exact notFree (equal ▸ List.mem_cons_self)
        · intro notNull equal
          exact notHere (equal ▸ last notNull)

theorem Sound.dequeued (sound : Sound s place free queue) (good : ¬ isbadport portid)
    (alloc : (s.ports portid).ptstate = .alloc) (moved : Moved s sems places portid)
    (owned : (s.ports portid).ptrsem ∈ s.owned portid)
    (guarded : Guarded (s.with sems places s.stopped) portid
      ((s.ports portid).ptmaxcnt.toInt - (queue portid).length) ((queue portid).length - 1)) :
    ∃ freeNow now,
      Sound ((s.with sems places s.stopped).dequeue portid (s.age portid)) place freeNow now := by
  have inv := sound.ports portid
  have member : portid ∈ portids := Ports.mem_portids.mpr good
  have distinct := nodes_nodup place
  have queued := inv.linked (Or.inl alloc)
  have nodup := sound.stocked.nodup_on distinct member
  have few := sound.short portid
  have nonneg := (guarded.receive owned).nonneg
  have booked : Booked (s.with sems places s.stopped) portid (queue portid) :=
    inv.toBooked.with moved.clearing
  cases shape : queue portid with
  | nil =>
      -- the semaphore has counted a message
      rw [shape, List.length_nil] at nonneg
      omega
  | cons node rest =>
      rw [shape] at queued nodup booked guarded few
      obtain ⟨isFirst, notNull, chain⟩ := queued.chain
      have isOn : node ∈ queue portid := by
        rw [shape]
        exact List.mem_cons_self
      have same : SameCalls (s.with sems places s.stopped)
        ((s.with sems places s.stopped).dequeue portid (s.age portid)) portid := dequeue_calls
      refine ⟨node :: free, Function.update queue portid rest, ?_⟩
      apply sound.exchanged good alloc moved dequeue_local same rfl rfl guarded.toPaired.ssem
      · constructor
        · intro _
          rw [dequeue_entry]
          apply (queued.take nodup).congr
          intro other behind
          refine (dequeue_words ?_).1
          intro equal
          have onHead : node ∈ rest := isFirst ▸ equal ▸ behind
          exact (List.nodup_cons.mp nodup).1 onHead
        · intro unlinked
          exact absurd (Or.inl (same.entry.ptstate.trans alloc)) unlinked
        · have bounded := inv.bounded
          rw [shape, List.length_cons] at bounded
          rw [same.entry.ptmaxcnt]
          exact Nat.le_of_succ_le bounded
      · have current := (booked.current moved.staffed alloc).1
        apply booked.record moved.staffed alloc same dequeue_book
        · rw [current, List.map_append, List.append_assoc]
          change _ = _ ++ ([s.ptmsg (s.ports portid).pthead] ++ _)
          rw [isFirst]
          rfl
        · intro passage member
          simp only [List.mem_append, List.mem_singleton] at member
          rcases member with old | old | new
          · exact booked.own _ passage (List.mem_append_left _ old)
          · exact booked.own _ passage (List.mem_append_right _ old)
          · rw [new]
            rfl
      · have below := (s.ports portid).ptmaxcnt.toInt_lt
        rw [List.length_cons] at guarded
        have more := guarded.more_room moved.usable (by push_cast; omega) same rfl
        have room : (s.ports portid).ptmaxcnt.toInt - ((rest.length + 1 : Nat) : Int) + 1 =
            (s.ports portid).ptmaxcnt.toInt - rest.length := by
          push_cast
          omega
        have stock : ((rest.length + 1 : Nat) : Int) - 1 = rest.length := by
          push_cast
          omega
        rwa [room, stock] at more
      · refine ⟨isFirst, isFirst ▸ notNull, ?_⟩
        change Chain 0 _ (Function.update s.ptnext (s.ports portid).pthead s.ptfree node) free
        rw [isFirst, Function.update_self]
        apply sound.freed.congr
        intro other isFree
        refine (dequeue_words ?_).1
        intro equal
        have onHead : node ∈ free := isFirst ▸ equal ▸ isFree
        exact sound.stocked.not_free distinct member isOn onHead
      · exact sound.stocked.give portids_nodup member shape
      · intro other away third isOther
        apply dequeue_words
        intro equal
        have onHead : node ∈ queue other := isFirst ▸ equal ▸ isOther
        exact (sound.elsewhere away onHead).2 isOn

end Entries

end MvsXinu.Ports
