import MvsXinu.Memory.PortCalls

/-!
# Waiting at a port

A process that has to wait keeps what it has read of the port. When it is dispatched again it
serves the incarnation that it waited for or none.
-/

namespace MvsXinu.Ports

open MvsXinu.Kernel MvsXinu.Chains MvsXinu.Shelves

set_option autoImplicit false

/-! ## Places -/

/-- The process is not in `_ptclear`. -/
def Place.Calls (stands : Place) : Prop :=
  ∀ portid newstate dispose phase, stands ≠ .clearing portid newstate dispose phase

section Places

variable {s : Ports} {sems : Sems} {stands : Place} {portid pid : Int} {room stock : Int}

theorem idle_calls : Place.idle.Calls := by
  intro _ _ _ _ equal
  cases equal

theorem sending_calls (ticket : Ticket) (msg : Word) : (Place.sending ticket msg).Calls := by
  intro _ _ _ _ equal
  cases equal

theorem receiving_calls (ticket : Ticket) : (Place.receiving ticket).Calls := by
  intro _ _ _ _ equal
  cases equal

theorem put_clearing (before : (s.place pid).Calls) (behind : stands.Calls) (portid : Int) :
    SameClearing s (Function.update s.place pid stands) portid := by
  intro other newstate dispose phase
  by_cases same : other = pid
  · rw [same, Function.update_self]
    constructor
    · intro clearing
      exact absurd clearing (behind _ _ _ _)
    · intro clearing
      exact absurd clearing (before _ _ _ _)
  · rw [Function.update_of_ne same]

theorem put_near (before : ∀ other, other ≠ portid → (s.place pid).port ≠ some other)
    (behind : ∀ other, other ≠ portid → stands.port ≠ some other) (other : Int) :
    Function.update s.place pid stands other = s.place other ∨ ∀ third, third ≠ portid →
      (s.place other).port ≠ some third ∧
        (Function.update s.place pid stands other).port ≠ some third := by
  by_cases same : other = pid
  · rw [same, Function.update_self]
    exact Or.inr fun third away => ⟨before third away, behind third away⟩
  · exact Or.inl (Function.update_of_ne same _ _)

/-- What a process has read, if it is in a call of the port. -/
structure Reads (s : Ports) (portid : Int) (stands : Place) : Prop where
  calls : stands.Calls
  tickets : ∀ ticket, stands.ticket = some ticket → ticket.portid = portid →
    ticket.seq = BitVec.ofNat 32 ticket.age ∧ ticket.sem ≠ syserr ∧
      ticket.age ≤ s.age portid ∧
        (ticket.age = s.age portid → (s.ports portid).ptstate = .alloc)
  sender : ∀ ticket msg, stands = .sending ticket msg → ticket.portid = portid →
    ticket.age = s.age portid → ticket.sem = (s.ports portid).ptssem
  receiver : ∀ ticket, stands = .receiving ticket → ticket.portid = portid →
    ticket.age = s.age portid → ticket.sem = (s.ports portid).ptrsem

theorem idle_reads (s : Ports) (portid : Int) : Reads s portid .idle where
  calls := idle_calls
  tickets := by
    intro ticket isTicket
    cases isTicket
  sender := by
    intro ticket msg equal
    cases equal
  receiver := by
    intro ticket equal
    cases equal

theorem Staffed.reads (staffed : Staffed s portid) (calls : (s.place pid).Calls) :
    Reads s portid (s.place pid) :=
  ⟨calls, staffed.tickets pid, staffed.sender pid, staffed.receiver pid⟩

theorem Staffed.put (staffed : Staffed s portid) (before : (s.place pid).Calls)
    (reads : Reads s portid stands) (stopped : Bool) :
    Staffed (s.with sems (Function.update s.place pid stands) stopped) portid := by
  have clearing := put_clearing before reads.calls portid
  have each : ∀ other, Function.update s.place pid stands other = s.place other ∨
      Function.update s.place pid stands other = stands := by
    intro other
    by_cases same : other = pid
    · rw [same, Function.update_self]
      exact Or.inr rfl
    · exact Or.inl (Function.update_of_ne same _ _)
  constructor
  · exact staffed.seq
  · intro other newstate dispose phase isClearing
    exact staffed.limbo other newstate dispose phase ((clearing _ _ _ _).mp isClearing)
  · intro first newstate dispose phase second newstate' dispose' phase' isFirst isSecond
    exact staffed.alone first newstate dispose phase second newstate' dispose' phase'
      ((clearing _ _ _ _).mp isFirst) ((clearing _ _ _ _).mp isSecond)
  · intro other ticket isTicket
    rcases each other with same | new
    · exact staffed.tickets other ticket (same ▸ isTicket)
    · exact reads.tickets ticket (new ▸ isTicket)
  · intro other ticket msg isSending
    rcases each other with same | new
    · exact staffed.sender other ticket msg (same ▸ isSending)
    · exact reads.sender ticket msg (new ▸ isSending)
  · intro other ticket isReceiving
    rcases each other with same | new
    · exact staffed.receiver other ticket (same ▸ isReceiving)
    · exact reads.receiver ticket (new ▸ isReceiving)

end Places

/-! ## Entering `wait` -/

section Wait

variable {s : Ports} {stands : Place} {sem portid pid place : Int} {free : List Int}
  {queue : Int → List Int} {room stock : Int} {msg : Word}

theorem moved_wait (owned : sem ∈ s.owned portid)
    (usable : ∀ sem ∈ s.owned portid, ¬ refused s.sems sem) (staffed : Staffed s portid)
    (calls : (s.place pid).Calls) (reads : Reads s portid stands)
    (before : ∀ other, other ≠ portid → (s.place pid).port ≠ some other)
    (behind : ∀ other, other ≠ portid → stands.port ≠ some other) :
    Moved s (s.sems.wait sem pid) (Function.update s.place pid stands) portid where
  clearing := put_clearing calls reads.calls portid
  near := put_near before behind
  others := by
    intro other notOwned
    exact wait_onlyAt s.sems sem pid other fun equal => notOwned (equal ▸ owned)
  usable := by
    intro other isOwned
    rw [wait_refused]
    exact usable other isOwned
  staffed := staffed.put calls reads s.stopped

/-- A process that was in no call of a semaphore of the port may be in one now. -/
theorem sends_put (sems : Sems) (stopped : Bool) (other : Int) :
    (s.with sems (Function.update s.place pid stands) stopped).Sends portid other ↔
      if other = pid then ∃ msg, stands = .sending (s.ticket portid (s.ports portid).ptssem) msg
      else s.Sends portid other := by
  unfold Ports.Sends
  change (∃ msg, Function.update s.place pid stands other =
    .sending (s.ticket portid (s.ports portid).ptssem) msg) ↔ _
  by_cases same : other = pid
  · rw [same, Function.update_self, if_pos rfl]
  · rw [Function.update_of_ne same, if_neg same]

theorem receives_put (sems : Sems) (stopped : Bool) (other : Int) :
    (s.with sems (Function.update s.place pid stands) stopped).Receives portid other ↔
      if other = pid then stands = .receiving (s.ticket portid (s.ports portid).ptrsem)
      else s.Receives portid other := by
  unfold Ports.Receives
  change Function.update s.place pid stands other =
    .receiving (s.ticket portid (s.ports portid).ptrsem) ↔ _
  by_cases same : other = pid
  · rw [same, Function.update_self, if_pos rfl]
  · rw [Function.update_of_ne same, if_neg same]

theorem idle_sends (idle : s.place pid = .idle) : ¬ s.Sends portid pid := by
  rintro ⟨msg, sending⟩
  rw [idle] at sending
  cases sending

theorem idle_receives (idle : s.place pid = .idle) : ¬ s.Receives portid pid := by
  intro receiving
  rw [Ports.Receives, idle] at receiving
  cases receiving

section Guards

variable (guarded : Guarded s portid room stock)
  (usable : ∀ sem ∈ s.owned portid, ¬ refused s.sems sem)
include guarded usable

theorem Guarded.send_passed (owned : (s.ports portid).ptssem ∈ s.owned portid)
    (passes : ¬ wouldBlock s.sems (s.ports portid).ptssem) :
    Guarded (s.with (s.sems.wait (s.ports portid).ptssem pid) s.place s.stopped) portid (room - 1)
      stock := by
  refine ⟨guarded.toPaired.with, ?_, ?_⟩
  · intro notNegative isOwned
    exact ((guarded.send notNegative isOwned).passed pid passes).2
  · intro isOwned
    have differ := guarded.toPaired.differ usable owned
    obtain ⟨semaph, waiting⟩ :=
      wait_onlyAt s.sems (s.ports portid).ptssem pid _ (Ne.symm differ)
    exact (guarded.receive isOwned).congr semaph waiting fun _ => Iff.rfl

theorem Guarded.receive_passed (passes : ¬ wouldBlock s.sems (s.ports portid).ptrsem) :
    Guarded (s.with (s.sems.wait (s.ports portid).ptrsem pid) s.place s.stopped) portid room
      (stock - 1) := by
  refine ⟨guarded.toPaired.with, ?_, ?_⟩
  · intro notNegative isOwned
    have differ := guarded.toPaired.differ usable isOwned
    obtain ⟨semaph, waiting⟩ := wait_onlyAt s.sems (s.ports portid).ptrsem pid _ differ
    exact (guarded.send notNegative isOwned).congr semaph waiting fun _ => Iff.rfl
  · intro isOwned
    exact ((guarded.receive isOwned).passed pid passes).2

theorem Guarded.send_blocked (isProc : IsProc pid) (idle : s.place pid = .idle)
    (owned : (s.ports portid).ptssem ∈ s.owned portid)
    (blocks : wouldBlock s.sems (s.ports portid).ptssem) (msg : Word) :
    Guarded (s.with (s.sems.wait (s.ports portid).ptssem pid) (Function.update s.place pid
      (.sending (s.ticket portid (s.ports portid).ptssem) msg)) s.stopped) portid room stock := by
  refine ⟨guarded.toPaired.with, ?_, ?_⟩
  · intro notNegative isOwned
    apply (guarded.send notNegative isOwned).blocked isProc (idle_sends idle) blocks
    intro other
    rw [sends_put]
    by_cases same : other = pid
    · rw [if_pos same]
      simp [same]
    · rw [if_neg same]
      simp [same]
  · intro isOwned
    have differ := guarded.toPaired.differ usable owned
    obtain ⟨semaph, waiting⟩ :=
      wait_onlyAt s.sems (s.ports portid).ptssem pid _ (Ne.symm differ)
    apply (guarded.receive isOwned).congr semaph waiting
    intro other
    rw [receives_put]
    by_cases same : other = pid
    · rw [if_pos same, same]
      exact iff_of_false (by simp) (idle_receives idle)
    · rw [if_neg same]

theorem Guarded.receive_blocked (isProc : IsProc pid) (idle : s.place pid = .idle)
    (blocks : wouldBlock s.sems (s.ports portid).ptrsem) :
    Guarded (s.with (s.sems.wait (s.ports portid).ptrsem pid) (Function.update s.place pid
      (.receiving (s.ticket portid (s.ports portid).ptrsem))) s.stopped) portid room stock := by
  refine ⟨guarded.toPaired.with, ?_, ?_⟩
  · intro notNegative isOwned
    have differ := guarded.toPaired.differ usable isOwned
    obtain ⟨semaph, waiting⟩ := wait_onlyAt s.sems (s.ports portid).ptrsem pid _ differ
    apply (guarded.send notNegative isOwned).congr semaph waiting
    intro other
    rw [sends_put]
    by_cases same : other = pid
    · rw [if_pos same, same]
      exact iff_of_false (by simp) (idle_sends idle)
    · rw [if_neg same]
  · intro isOwned
    apply (guarded.receive isOwned).blocked isProc (idle_receives idle) blocks
    intro other
    rw [receives_put]
    by_cases same : other = pid
    · rw [if_pos same]
      simp [same]
    · rw [if_neg same]
      simp [same]

end Guards

theorem Guarded.send_resumed (guarded : Guarded s portid room stock) (sends : s.Sends portid pid)
    (released : pid ∉ s.sems.waiting (s.ports portid).ptssem) :
    Guarded (s.with s.sems (Function.update s.place pid .idle) s.stopped) portid (room - 1)
      stock := by
  refine ⟨guarded.toPaired.with, ?_, ?_⟩
  · intro notNegative isOwned
    refine ((guarded.send notNegative isOwned).resumed sends released ?_).2
    intro other
    rw [sends_put]
    by_cases same : other = pid
    · rw [if_pos same]
      simp [same]
    · rw [if_neg same]
      simp [same]
  · intro isOwned
    apply (guarded.receive isOwned).congr rfl rfl
    intro other
    rw [receives_put]
    by_cases same : other = pid
    · rw [if_pos same, same]
      obtain ⟨msg, sending⟩ := sends
      refine iff_of_false (by simp) ?_
      rw [Ports.Receives, sending]
      simp
    · rw [if_neg same]

theorem Guarded.receive_resumed (guarded : Guarded s portid room stock)
    (receives : s.Receives portid pid)
    (released : pid ∉ s.sems.waiting (s.ports portid).ptrsem) :
    Guarded (s.with s.sems (Function.update s.place pid .idle) s.stopped) portid room
      (stock - 1) := by
  refine ⟨guarded.toPaired.with, ?_, ?_⟩
  · intro notNegative isOwned
    apply (guarded.send notNegative isOwned).congr rfl rfl
    intro other
    rw [sends_put]
    by_cases same : other = pid
    · rw [if_pos same, same]
      refine iff_of_false (by simp) ?_
      rintro ⟨msg, sending⟩
      rw [Ports.Receives, sending] at receives
      cases receives
    · rw [if_neg same]
  · intro isOwned
    refine ((guarded.receive isOwned).resumed receives released ?_).2
    intro other
    rw [receives_put]
    by_cases same : other = pid
    · rw [if_pos same]
      simp [same]
    · rw [if_neg same]
      simp [same]

end Wait

/-! ## `psend`, `preceive` and the way behind `wait` -/

section Calls

variable {s : Ports} {portid pid place : Int} {free : List Int} {queue : Int → List Int}

theorem Staffed.own_ticket (staffed : Staffed s portid)
    (alloc : (s.ports portid).ptstate = .alloc) {sem : Int} (some : sem ≠ syserr) :
    (s.ticket portid sem).seq = BitVec.ofNat 32 (s.ticket portid sem).age ∧
      (s.ticket portid sem).sem ≠ syserr ∧ (s.ticket portid sem).age ≤ s.age portid ∧
        ((s.ticket portid sem).age = s.age portid → (s.ports portid).ptstate = .alloc) :=
  ⟨staffed.seq, some, Nat.le_refl _, fun _ => alloc⟩

theorem sending_reads (staffed : Staffed s portid) (alloc : (s.ports portid).ptstate = .alloc)
    (some : (s.ports portid).ptssem ≠ syserr) (msg : Word) :
    Reads s portid (.sending (s.ticket portid (s.ports portid).ptssem) msg) where
  calls := sending_calls _ _
  tickets := by
    intro ticket isTicket _
    have own : s.ticket portid (s.ports portid).ptssem = ticket := by
      simpa [Place.ticket] using isTicket
    rw [← own]
    exact staffed.own_ticket alloc some
  sender := by
    intro ticket sent equal _ _
    have own : s.ticket portid (s.ports portid).ptssem = ticket := by
      injection equal
    rw [← own]
    rfl
  receiver := by
    intro ticket equal
    cases equal

theorem receiving_reads (staffed : Staffed s portid) (alloc : (s.ports portid).ptstate = .alloc)
    (some : (s.ports portid).ptrsem ≠ syserr) :
    Reads s portid (.receiving (s.ticket portid (s.ports portid).ptrsem)) where
  calls := receiving_calls _
  tickets := by
    intro ticket isTicket _
    have own : s.ticket portid (s.ports portid).ptrsem = ticket := by
      simpa [Place.ticket] using isTicket
    rw [← own]
    exact staffed.own_ticket alloc some
  sender := by
    intro ticket msg equal
    cases equal
  receiver := by
    intro ticket equal _ _
    have own : s.ticket portid (s.ports portid).ptrsem = ticket := by
      injection equal
    rw [← own]
    rfl

theorem usable_some {sem : Int} (usable : ¬ refused s.sems sem) : sem ≠ syserr := by
  intro none
  rw [none] at usable
  exact usable (Or.inl (by decide))

theorem put_idle (idle : s.place pid = .idle) : Function.update s.place pid .idle = s.place := by
  rw [← idle]
  exact Function.update_eq_self _ _

theorem idle_far {stands : Place} (portid : Int) (idle : stands = .idle) :
    ∀ other, other ≠ portid → stands.port ≠ some other := by
  intro other _ equal
  rw [idle] at equal
  cases equal

/-- The port that an accepted call finds. -/
theorem open_of_not_closed (notClosed : ¬ s.closed portid) :
    ¬ isbadport portid ∧ (s.ports portid).ptstate = .alloc := by
  unfold Ports.closed at notClosed
  rw [not_or, not_not] at notClosed
  exact notClosed

theorem Sound.psend (sound : Sound s place free queue) (running : s.stopped = false)
    (isProc : IsProc pid) (idle : s.place pid = .idle) (msg : Word) :
    ∃ freeNow now, Sound (s.psend pid portid msg) place freeNow now := by
  unfold Ports.psend
  dsimp only
  split_ifs with fails blocks
  · exact ⟨free, queue, sound⟩
  all_goals
    rw [not_or] at fails
    obtain ⟨good, alloc⟩ := open_of_not_closed fails.1
    have inv := sound.ports portid
    have guarded := inv.guarded running alloc
    have some := usable_some fails.2
    have owned := guarded.toPaired.ssem.resolve_left some
    have usable := sound.usable running portid
    have staffed := inv.toStaffed
    have calls : (s.place pid).Calls := idle ▸ idle_calls
    have before := idle_far portid idle
  · have moved := moved_wait owned usable staffed calls (sending_reads staffed alloc some msg) before
      (fun other away equal => away (Option.some.inj equal).symm)
    refine ⟨free, queue, sound.moved moved id ?_ ?_⟩
    · intro _ _
      exact guarded.send_blocked usable isProc idle owned blocks msg
    · intro _ other newstate dispose phase clearing
      exact absurd ((moved.clearing _ _ _ _).mp clearing) (staffed.no_clearing alloc)
  · have moved := moved_wait owned usable staffed calls (idle_reads s portid) before
      (idle_far portid rfl)
    rw [put_idle idle] at moved
    exact sound.enqueued good alloc moved owned (guarded.send_passed usable owned blocks) msg

theorem Sound.preceive (sound : Sound s place free queue) (running : s.stopped = false)
    (isProc : IsProc pid) (idle : s.place pid = .idle) :
    ∃ freeNow now, Sound (s.preceive pid portid) place freeNow now := by
  unfold Ports.preceive
  dsimp only
  split_ifs with fails blocks
  · exact ⟨free, queue, sound⟩
  all_goals
    rw [not_or] at fails
    obtain ⟨good, alloc⟩ := open_of_not_closed fails.1
    have inv := sound.ports portid
    have guarded := inv.guarded running alloc
    have some := usable_some fails.2
    have owned := guarded.toPaired.rsem.resolve_left some
    have usable := sound.usable running portid
    have staffed := inv.toStaffed
    have calls : (s.place pid).Calls := idle ▸ idle_calls
    have before := idle_far portid idle
  · have moved := moved_wait owned usable staffed calls (receiving_reads staffed alloc some) before
      (fun other away equal => away (Option.some.inj equal).symm)
    refine ⟨free, queue, sound.moved moved id ?_ ?_⟩
    · intro _ _
      exact guarded.receive_blocked usable isProc idle blocks
    · intro _ other newstate dispose phase clearing
      exact absurd ((moved.clearing _ _ _ _).mp clearing) (staffed.no_clearing alloc)
  · have moved := moved_wait owned usable staffed calls (idle_reads s portid) before
      (idle_far portid rfl)
    rw [put_idle idle] at moved
    exact sound.dequeued good alloc moved owned (guarded.receive_passed usable blocks)

theorem Sound.good (sound : Sound s place free queue)
    (alloc : (s.ports portid).ptstate = .alloc) : ¬ isbadport portid := by
  intro bad
  have isFree := sound.outside portid bad
  rw [alloc] at isFree
  cases isFree

/-- A process that finds the sequence number it has read finds the incarnation. -/
theorem Staffed.same_age {ticket : Ticket} (staffed : Staffed s ticket.portid)
    (reads : (s.place pid).ticket = some ticket) (fresh : ¬ s.stale ticket)
    (unwrapped : ¬ s.CameRound ticket) :
    (s.ports ticket.portid).ptstate = .alloc ∧ ticket.age = s.age ticket.portid := by
  unfold Ports.stale at fresh
  rw [not_or, not_not, not_not] at fresh
  refine ⟨fresh.1, ?_⟩
  by_contra older
  apply unwrapped
  refine ⟨older, ?_⟩
  have seq := fresh.2
  rw [staffed.seq, (staffed.tickets pid ticket reads rfl).1] at seq
  have values := congrArg BitVec.toNat seq
  rw [BitVec.toNat_ofNat, BitVec.toNat_ofNat] at values
  exact values.symm

/-- A process that finds another incarnation has not read this one. -/
theorem Staffed.older {ticket : Ticket} (staffed : Staffed s ticket.portid)
    (reads : (s.place pid).ticket = some ticket) (stale : s.stale ticket) :
    ticket.age ≠ s.age ticket.portid := by
  intro same
  obtain ⟨seq, _, _, current⟩ := staffed.tickets pid ticket reads rfl
  rcases stale with notAlloc | otherSeq
  · exact notAlloc (current same)
  · apply otherSeq
    rw [staffed.seq, seq, same]

theorem moved_back (sound : Sound s place free queue) (running : s.stopped = false)
    (calls : (s.place pid).Calls)
    (before : ∀ other, other ≠ portid → (s.place pid).port ≠ some other) :
    Moved s s.sems (Function.update s.place pid .idle) portid where
  clearing := put_clearing calls idle_calls portid
  near := put_near before (idle_far portid rfl)
  others := fun _ _ => ⟨rfl, rfl⟩
  usable := sound.usable running portid
  staffed := (sound.ports portid).toStaffed.put calls (idle_reads s portid) s.stopped

/-- A process of another incarnation gives up. -/
theorem Sound.gives_up {ticket : Ticket} (sound : Sound s place free queue)
    (running : s.stopped = false) (reads : (s.place pid).ticket = some ticket)
    (stale : s.stale ticket) : Sound (s.put pid .idle) place free queue := by
  have inv := sound.ports ticket.portid
  have staffed := inv.toStaffed
  have older := staffed.older reads stale
  have calls : (s.place pid).Calls := by
    intro portid newstate dispose phase clearing
    rw [clearing] at reads
    cases reads
  have before : ∀ other, other ≠ ticket.portid → (s.place pid).port ≠ some other := by
    intro other away isPort
    cases stands : s.place pid with
    | idle =>
        rw [stands] at isPort
        cases isPort
    | sending read msg =>
        rw [stands] at isPort reads
        exact away ((Option.some.inj isPort).symm.trans (congrArg _ (Option.some.inj reads)))
    | receiving read =>
        rw [stands] at isPort reads
        exact away ((Option.some.inj isPort).symm.trans (congrArg _ (Option.some.inj reads)))
    | clearing _ _ _ _ => exact calls _ _ _ _ stands
  have sends : ∀ other, (s.with s.sems (Function.update s.place pid .idle) s.stopped).Sends
      ticket.portid other ↔ s.Sends ticket.portid other := by
    intro other
    rw [sends_put]
    by_cases same : other = pid
    · rw [if_pos same, same]
      refine iff_of_false (by simp) ?_
      rintro ⟨msg, sending⟩
      rw [sending] at reads
      exact older (congrArg Ticket.age (Option.some.inj reads)).symm
    · rw [if_neg same]
  have receives : ∀ other, (s.with s.sems (Function.update s.place pid .idle) s.stopped).Receives
      ticket.portid other ↔ s.Receives ticket.portid other := by
    intro other
    rw [receives_put]
    by_cases same : other = pid
    · rw [if_pos same, same]
      refine iff_of_false (by simp) ?_
      intro receiving
      rw [Ports.Receives] at receiving
      rw [receiving] at reads
      exact older (congrArg Ticket.age (Option.some.inj reads)).symm
    · rw [if_neg same]
  have send : ∀ {room : Int}, SendAdmits s ticket.portid room →
      SendAdmits (s.with s.sems (Function.update s.place pid .idle) s.stopped) ticket.portid room :=
    fun admits notNegative owned => (admits notNegative owned).congr rfl rfl sends
  have receive : ∀ {stock : Int}, ReceiveAdmits s ticket.portid stock →
      ReceiveAdmits (s.with s.sems (Function.update s.place pid .idle) s.stopped) ticket.portid
        stock :=
    fun admits owned => (admits owned).congr rfl rfl receives
  have moved := moved_back sound running calls before
  apply sound.moved moved id
  · intro _ alloc
    have guarded := inv.guarded running alloc
    exact ⟨guarded.toPaired.with, send guarded.send, receive guarded.receive⟩
  · intro _ other newstate dispose phase clearing
    have guarded := inv.clears running other newstate dispose phase
      ((moved.clearing _ _ _ _).mp clearing)
    cases phase with
    | disposing p => exact Paired.with guarded
    | second =>
        unfold ClearGuarded at guarded ⊢
        dsimp only at guarded ⊢
        split
        · rename_i isAlloc
          rw [if_pos isAlloc] at guarded
          exact ⟨guarded.1.with, guarded.2.1, send guarded.2.2⟩
        · rename_i notAlloc
          rw [if_neg notAlloc] at guarded
          exact guarded
    | last =>
        intro isAlloc
        obtain ⟨emptied, paired⟩ := guarded isAlloc
        exact ⟨emptied, paired.toPaired.with, send paired.send, receive paired.receive⟩

theorem Staffed.ticket_eq {ticket : Ticket} (staffed : Staffed s ticket.portid)
    (reads : (s.place pid).ticket = some ticket) (fresh : ¬ s.stale ticket)
    (unwrapped : ¬ s.CameRound ticket) : s.ticket ticket.portid ticket.sem = ticket := by
  have age := (staffed.same_age reads fresh unwrapped).2
  unfold Ports.stale at fresh
  rw [not_or, not_not, not_not] at fresh
  cases ticket with
  | mk portid sem seq number =>
      unfold Ports.ticket
      dsimp only at age fresh ⊢
      rw [fresh.2, ← age]

/-- A process that the semaphore has released goes on in `psend`. -/
theorem Sound.sends {ticket : Ticket} {msg : Word} (sound : Sound s place free queue)
    (running : s.stopped = false) (stands : s.place pid = .sending ticket msg)
    (released : pid ∉ s.sems.waiting ticket.sem) (fresh : ¬ s.stale ticket)
    (unwrapped : ¬ s.CameRound ticket) : ∃ freeNow now,
      Sound ((s.put pid .idle).enqueue ticket.portid ticket.age msg) place freeNow now := by
  have inv := sound.ports ticket.portid
  have reads : (s.place pid).ticket = some ticket := by rw [stands, Place.ticket]
  obtain ⟨alloc, age⟩ := inv.toStaffed.same_age reads fresh unwrapped
  have sem := inv.sender pid ticket msg stands rfl age
  have own := inv.toStaffed.ticket_eq reads fresh unwrapped
  have guarded := inv.guarded running alloc
  have some := (inv.tickets pid ticket reads rfl).2.1
  have owned := guarded.toPaired.ssem.resolve_left (sem ▸ some)
  have isSending : s.Sends ticket.portid pid := ⟨msg, by rw [← sem, own, stands]⟩
  have moved : Moved s s.sems (Function.update s.place pid .idle) ticket.portid := by
    apply moved_back sound running
    · rw [stands]
      exact sending_calls ticket msg
    · intro other away isPort
      rw [stands] at isPort
      exact away (Option.some.inj isPort).symm
  rw [age]
  exact sound.enqueued (sound.good alloc) alloc moved owned
    (guarded.send_resumed isSending (sem ▸ released)) msg

theorem Sound.receives {ticket : Ticket} (sound : Sound s place free queue)
    (running : s.stopped = false) (stands : s.place pid = .receiving ticket)
    (released : pid ∉ s.sems.waiting ticket.sem) (fresh : ¬ s.stale ticket)
    (unwrapped : ¬ s.CameRound ticket) : ∃ freeNow now,
      Sound ((s.put pid .idle).dequeue ticket.portid ticket.age) place freeNow now := by
  have inv := sound.ports ticket.portid
  have reads : (s.place pid).ticket = some ticket := by rw [stands, Place.ticket]
  obtain ⟨alloc, age⟩ := inv.toStaffed.same_age reads fresh unwrapped
  have sem := inv.receiver pid ticket stands rfl age
  have own := inv.toStaffed.ticket_eq reads fresh unwrapped
  have guarded := inv.guarded running alloc
  have some := (inv.tickets pid ticket reads rfl).2.1
  have owned := guarded.toPaired.rsem.resolve_left (sem ▸ some)
  have isReceiving : s.Receives ticket.portid pid := by
    rw [Ports.Receives, ← sem, own, stands]
  have moved : Moved s s.sems (Function.update s.place pid .idle) ticket.portid := by
    apply moved_back sound running
    · rw [stands]
      exact receiving_calls ticket
    · intro other away isPort
      rw [stands] at isPort
      exact away (Option.some.inj isPort).symm
  rw [age]
  exact sound.dequeued (sound.good alloc) alloc moved owned
    (guarded.receive_resumed isReceiving (sem ▸ released))

end Calls

end MvsXinu.Ports
