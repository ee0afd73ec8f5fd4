import MvsXinu.Memory.PortClearing

/-!
# Runs of the ports

Every call keeps the invariant, as long as no process is dispatched to a port whose sequence
number has come round. After 2^32 resets a message of the first incarnation is delivered to the
last one.
-/

namespace MvsXinu.Ports

open MvsXinu.Kernel MvsXinu.Chains MvsXinu.Shelves MvsXinu.Runs

set_option autoImplicit false

/-! ## `pcreate` -/

section Create

variable {s : Ports} {sems : Sems} {sem ssem rsem portid place : Int} {count : Word}
  {free : List Int} {queue : Int → List Int}

theorem created_other {other : Int} (away : sem = syserr ∨ other ≠ sem) :
    (created sems sem count).semaph other = sems.semaph other ∧
      (created sems sem count).waiting other = sems.waiting other := by
  unfold created
  split
  · exact ⟨rfl, rfl⟩
  · rename_i some
    exact create_onlyAt sems sem count other (away.resolve_left some)

theorem Screated.fresh (screated : Screated sems sem) (some : sem ≠ syserr) :
    ¬ isbadsem sem ∧ (sems.semaph sem).sstate = .free ∧ sems.waiting sem = [] :=
  screated.resolve_left fun none => some none.1

theorem created_usable (screated : Screated sems sem) (some : sem ≠ syserr) :
    ¬ refused (created sems sem count) sem := by
  unfold created
  rw [if_neg some]
  rintro (bad | isFree)
  · exact (screated.fresh some).1 bad
  · simp [Sems.create] at isFree

/-- The two semaphores of a new port. -/
structure Pair (sems : Sems) (ssem rsem : Int) (count : Word) : Prop where
  first : Screated sems ssem
  second : Screated (created sems ssem count) rsem

theorem Pair.differ (pair : Pair sems ssem rsem count) (some : ssem ≠ syserr) : rsem ≠ ssem := by
  intro same
  have isSome : rsem ≠ syserr := same ▸ some
  have isFree := (pair.second.fresh isSome).2.1
  apply @created_usable sems ssem count pair.first some
  rw [same] at isFree
  exact Or.inr isFree

/-- A semaphore that was in use is neither of the two. -/
theorem Pair.away (pair : Pair sems ssem rsem count) {other : Int}
    (usable : ¬ refused sems other) : (ssem = syserr ∨ other ≠ ssem) ∧
      (rsem = syserr ∨ other ≠ rsem) := by
  have first : ssem = syserr ∨ other ≠ ssem := by
    by_cases none : ssem = syserr
    · exact Or.inl none
    · refine Or.inr fun same => usable (Or.inr ?_)
      rw [same]
      exact (pair.first.fresh none).2.1
  refine ⟨first, ?_⟩
  by_cases none : rsem = syserr
  · exact Or.inl none
  · refine Or.inr fun same => usable (Or.inr ?_)
    have isFree := (pair.second.fresh none).2.1
    rw [← same, (created_other first).1] at isFree
    exact isFree

theorem mem_pair {other : Int} :
    other ∈ [ssem, rsem].filter (fun sem => decide (sem ≠ syserr)) ↔
      other ≠ syserr ∧ (other = ssem ∨ other = rsem) := by
  rw [List.mem_filter]
  simp [and_comm]

theorem Pair.usable (pair : Pair sems ssem rsem count) {other : Int} (some : other ≠ syserr)
    (isOne : other = ssem ∨ other = rsem) :
    ¬ refused (created (created sems ssem count) rsem 0) other := by
  rcases isOne with same | same
  · subst same
    have differ := pair.differ some
    unfold refused
    rw [(created_other (Or.inr differ.symm)).1]
    exact created_usable pair.first some
  · subst same
    exact created_usable pair.second some

theorem makes_entry (s : Ports) (portid : Int) (count : Word) (ssem rsem : Int) :
    (s.makes portid count ssem rsem).ports portid =
      { ptstate := .alloc, ptssem := ssem, ptrsem := rsem, ptmaxcnt := count
        ptseq := (s.ports portid).ptseq + 1, pthead := 0, pttail := 0 } :=
  Function.update_self _ _ _

theorem makes_age (s : Ports) (portid : Int) (count : Word) (ssem rsem : Int) :
    (s.makes portid count ssem rsem).age portid = s.age portid + 1 :=
  Function.update_self _ _ _

theorem makes_owned (s : Ports) (portid : Int) (count : Word) (ssem rsem : Int) :
    (s.makes portid count ssem rsem).owned portid =
      [ssem, rsem].filter fun sem => decide (sem ≠ syserr) :=
  Function.update_self _ _ _

theorem makes_sems (s : Ports) (portid : Int) (count : Word) (ssem rsem : Int) :
    (s.makes portid count ssem rsem).sems = created (created s.sems ssem count) rsem 0 :=
  rfl

theorem makes_local (s : Ports) (portid : Int) (count : Word) (ssem rsem : Int) :
    Local s (s.makes portid count ssem rsem) portid :=
  ⟨fun _ away => Function.update_of_ne away _ _, fun _ away => Function.update_of_ne away _ _,
    fun _ away => Function.update_of_ne away _ _, fun _ _ => rfl, fun _ => Or.inl rfl, id⟩

theorem Staffed.no_clearing_free (staffed : Staffed s portid)
    (isFree : (s.ports portid).ptstate = .free) {pid : Int} {newstate : Ptstate} {dispose : Bool}
    {phase : Clearing} : s.place pid ≠ .clearing portid newstate dispose phase := by
  intro clearing
  have limbo := (staffed.limbo pid newstate dispose phase clearing).1
  rw [isFree] at limbo
  cases limbo

theorem makes_tickets (staffed : Staffed s portid) {pid : Int} {ticket : Ticket}
    (reads : ((s.makes portid count ssem rsem).place pid).ticket = some ticket)
    (isPort : ticket.portid = portid) :
    ticket.seq = BitVec.ofNat 32 ticket.age ∧ ticket.sem ≠ syserr ∧
      ticket.age < (s.makes portid count ssem rsem).age portid := by
  obtain ⟨seq, some, before, _⟩ := staffed.tickets pid ticket reads isPort
  rw [makes_age]
  exact ⟨seq, some, Nat.lt_succ_of_le before⟩

theorem makes_staffed (staffed : Staffed s portid) (isFree : (s.ports portid).ptstate = .free) :
    Staffed (s.makes portid count ssem rsem) portid := by
  constructor
  · rw [makes_entry, makes_age]
    dsimp only
    rw [staffed.seq]
    exact ofNat_succ _
  · intro pid newstate dispose phase clearing
    exact absurd clearing (staffed.no_clearing_free isFree)
  · intro pid newstate dispose phase _ _ _ _ clearing
    exact absurd clearing (staffed.no_clearing_free isFree)
  · intro pid ticket reads isPort
    obtain ⟨seq, some, before⟩ := makes_tickets staffed reads isPort
    exact ⟨seq, some, Nat.le_of_lt before, fun same => absurd same (Nat.ne_of_lt before)⟩
  · intro pid ticket msg sending isPort same
    have reads : ((s.makes portid count ssem rsem).place pid).ticket = some ticket := by
      rw [sending, Place.ticket]
    exact absurd same (Nat.ne_of_lt (makes_tickets staffed reads isPort).2.2)
  · intro pid ticket receiving isPort same
    have reads : ((s.makes portid count ssem rsem).place pid).ticket = some ticket := by
      rw [receiving, Place.ticket]
    exact absurd same (Nat.ne_of_lt (makes_tickets staffed reads isPort).2.2)

theorem makes_guarded (staffed : Staffed s portid) (pair : Pair s.sems ssem rsem count) :
    Guarded (s.makes portid count ssem rsem) portid count.toInt 0 := by
  have entry := makes_entry s portid count ssem rsem
  have owned := makes_owned s portid count ssem rsem
  refine ⟨⟨?_, ?_, ?_⟩, ?_, ?_⟩
  · rw [entry, owned, mem_pair]
    by_cases none : ssem = syserr
    · exact Or.inl none
    · exact Or.inr ⟨none, Or.inl rfl⟩
  · rw [entry, owned, mem_pair]
    by_cases none : rsem = syserr
    · exact Or.inl none
    · exact Or.inr ⟨none, Or.inr rfl⟩
  · rw [entry]
    intro same
    by_contra some
    exact pair.differ some same.symm
  · unfold SendAdmits
    rw [entry, owned, mem_pair]
    rintro notNegative ⟨some, _⟩
    obtain ⟨good, _, nobody⟩ := pair.first.fresh some
    have nobodySends : ∀ pid, ¬ (s.makes portid count ssem rsem).Sends portid pid := by
      rintro pid ⟨msg, sending⟩
      have reads := congrArg Place.ticket sending
      exact absurd (makes_tickets staffed reads rfl).2.2 (Nat.lt_irrefl _)
    have made := create_admits good nobody notNegative nobodySends
    have first : s.sems.create ssem count = created s.sems ssem count := (if_neg some).symm
    rw [first] at made
    obtain ⟨semaph, waiting⟩ := @created_other (created s.sems ssem count) rsem 0 ssem
      (Or.inr (pair.differ some).symm)
    exact made.congr semaph waiting fun _ => Iff.rfl
  · unfold ReceiveAdmits
    rw [entry, owned, mem_pair]
    rintro ⟨some, _⟩
    obtain ⟨good, _, nobody⟩ := pair.second.fresh some
    have nobodyReceives : ∀ pid, ¬ (s.makes portid count ssem rsem).Receives portid pid := by
      intro pid receiving
      have reads := congrArg Place.ticket receiving
      exact absurd (makes_tickets staffed reads rfl).2.2 (Nat.lt_irrefl _)
    have made := @create_admits _ _ _ 0 good nobody (by decide) nobodyReceives
    rwa [show (created s.sems ssem count).create rsem 0 = created (created s.sems ssem count) rsem 0
      from (if_neg some).symm] at made

theorem Sound.makes (sound : Sound s place free queue) (running : s.stopped = false)
    (good : ¬ isbadport portid) (isFree : (s.ports portid).ptstate = .free)
    (pair : Pair s.sems ssem rsem count) :
    Sound (s.makes portid count ssem rsem) place free queue := by
  have inv := sound.ports portid
  have staffed := inv.toStaffed
  have none : queue portid = [] := inv.free_queue isFree
  have entry := makes_entry s portid count ssem rsem
  have owned := makes_owned s portid count ssem rsem
  have notDisposing : ¬ s.Disposing portid := by
    rintro ⟨pid, newstate, p, clearing⟩
    exact staffed.no_clearing_free isFree clearing
  have notAlloc : ¬ (s.ports portid).ptstate = .alloc := by
    rw [isFree]
    exact Ptstate.noConfusion
  have held : s.held portid = s.age portid - 1 := if_neg notAlloc
  have alloc : ((s.makes portid count ssem rsem).ports portid).ptstate = .alloc := by rw [entry]
  have heldLater : (s.makes portid count ssem rsem).held portid = s.age portid + 1 := by
    rw [Ports.held, if_pos alloc, makes_age]
  have booked := inv.toBooked
  rw [none] at booked
  rw [← Function.update_eq_self portid queue]
  apply sound.step (makes_local s portid count ssem rsem)
  · rw [none]
    refine
      { toQueued := ⟨?_, fun _ => rfl, Nat.zero_le _⟩
        toBooked := booked.unlinked notDisposing notDisposing rfl ?_ ?_
        toStaffed := makes_staffed staffed isFree
        guarded := ?_
        clears := fun _ pid newstate dispose phase clearing =>
          absurd clearing (staffed.no_clearing_free isFree) }
    · intro _
      rw [entry]
      exact ⟨rfl, rfl⟩
    · rw [held, heldLater]
      omega
    · intro _
      rw [heldLater, booked.fresh _ (by rw [held]; omega)]
    · intro _ _
      rw [entry]
      simpa using makes_guarded staffed pair
  · exact sound.freed
  · rw [Function.update_eq_self]
    exact sound.stocked
  · exact fun bad => absurd bad good
  · exact sound.nextp
  · intro sem _ notOwned
    rw [owned, mem_pair, not_and_or, not_not] at notOwned
    have away : (ssem = syserr ∨ sem ≠ ssem) ∧ (rsem = syserr ∨ sem ≠ rsem) := by
      rcases notOwned with isNone | neither
      · rw [isNone]
        exact ⟨eq_or_ne _ _ |>.imp Eq.symm id, eq_or_ne _ _ |>.imp Eq.symm id⟩
      · rw [not_or] at neither
        exact ⟨Or.inr neither.1, Or.inr neither.2⟩
    rw [makes_sems]
    obtain ⟨semaph, waiting⟩ := @created_other (created s.sems ssem count) rsem 0 _ away.2
    obtain ⟨semaph', waiting'⟩ := @created_other s.sems ssem count _ away.1
    exact ⟨semaph.trans semaph', waiting.trans waiting'⟩
  · exact fun _ _ _ _ => ⟨rfl, rfl⟩
  · intro _ sem isOwned
    rw [owned, mem_pair] at isOwned
    exact pair.usable isOwned.1 isOwned.2
  · intro sem isOwned other _ inOther
    rw [owned, mem_pair] at isOwned
    obtain ⟨first, second⟩ := pair.away (sound.usable running other sem inOther)
    rcases isOwned.2 with same | same
    · exact first.elim (fun isNone => isOwned.1 (same.trans isNone)) fun away => away same
    · exact second.elim (fun isNone => isOwned.1 (same.trans isNone)) fun away => away same
  · rw [owned]
    by_cases some : ssem = syserr
    · subst some
      by_cases isNone : rsem = syserr
      · subst isNone
        decide
      · simp [isNone]
    · apply List.Nodup.filter
      simpa using (pair.differ some).symm

/-- What the ports do not see. -/
theorem Sound.rest (sound : Sound s place free queue) {sems : Sems} {nextp : Int}
    (good : ¬ isbadport nextp)
    (kept : ∀ portid, s.Kept { s with sems := sems, ptnextp := nextp } portid) :
    Sound { s with sems := sems, ptnextp := nextp } place free queue where
  freed := sound.freed
  stocked := sound.stocked
  outside := sound.outside
  nextp := good
  ports := by
    intro portid
    have here : Local s { s with sems := sems, ptnextp := nextp } (portid + 1) :=
      ⟨fun _ _ => rfl, fun _ _ => rfl, fun _ _ => rfl, fun _ _ => rfl, fun _ => Or.inl rfl, id⟩
    exact (sound.ports portid).frame here (by omega) (fun _ _ => ⟨rfl, rfl⟩) (kept portid)
  usable := by
    intro running portid sem member
    unfold refused
    rw [(kept portid sem member).1]
    exact sound.usable running portid sem member
  apart := sound.apart
  single := sound.single

theorem pcreateLoop_sound (pair : Pair s.sems ssem rsem count) (running : s.stopped = false)
    (tries : Nat) : Sound s place free queue →
      Sound (Ports.pcreateLoop count ssem rsem tries s) place free queue := by
  induction tries generalizing s with
  | zero => exact id
  | succ tries ih =>
      intro sound
      have next : ¬ isbadport (if s.ptnextp ≤ 0 then nports - 1 else s.ptnextp - 1) := by
        have good := sound.nextp
        unfold isbadport nports at good ⊢
        split <;> omega
      have passed := @Sound.rest _ _ _ _ sound s.sems _ next fun _ _ _ => ⟨rfl, rfl⟩
      unfold Ports.pcreateLoop
      dsimp only
      split
      · rename_i isFree
        exact passed.makes running sound.nextp isFree pair
      · exact ih pair running passed

end Create

/-! ## Every call -/

section Runs

variable {s : Ports} {place : Int} {free : List Int} {queue : Int → List Int}

theorem goes_sound (sound : Sound s place free queue) (running : s.stopped = false) {pid : Int}
    (unwrapped : Unwrapped s (.go pid)) : ∃ freeNow now, Sound (goes s pid) place freeNow now := by
  unfold goes
  cases stands : s.place pid with
  | idle => exact ⟨free, queue, sound⟩
  | sending ticket msg =>
      have reads : (s.place pid).ticket = some ticket := by rw [stands, Place.ticket]
      dsimp only
      split_ifs with waits stale
      · exact ⟨free, queue, sound⟩
      · exact ⟨free, queue, sound.gives_up running reads stale⟩
      · have alloc := (not_or.mp stale).1
        exact sound.sends running stands waits stale
          (unwrapped ticket reads waits (not_not.mp alloc))
  | receiving ticket =>
      have reads : (s.place pid).ticket = some ticket := by rw [stands, Place.ticket]
      dsimp only
      split_ifs with waits stale
      · exact ⟨free, queue, sound⟩
      · exact ⟨free, queue, sound.gives_up running reads stale⟩
      · have alloc := (not_or.mp stale).1
        exact sound.receives running stands waits stale
          (unwrapped ticket reads waits (not_not.mp alloc))
  | clearing portid newstate dispose phase =>
      cases phase with
      | disposing p => exact sound.goes_disposing running stands
      | second => exact ⟨free, queue, sound.goes_second running stands⟩
      | last => exact ⟨free, queue, sound.goes_last running stands⟩

theorem portStep_sound (sound : Sound s place free queue) {call : PortCall}
    (allowed : Allowed s call) (unwrapped : Unwrapped s call) :
    ∃ freeNow now, Sound (portStep s call) place freeNow now := by
  unfold portStep
  split
  · exact ⟨free, queue, sound⟩
  · rename_i notStopped
    have running : s.stopped = false := Bool.eq_false_iff.mpr notStopped
    cases call with
    | psend pid portid msg => exact sound.psend running allowed.1 allowed.2 msg
    | preceive pid portid => exact sound.preceive running allowed.1 allowed.2
    | preset pid portid dispose =>
        dsimp only [Ports.preset]
        split
        · exact ⟨free, queue, sound⟩
        · rename_i notClosed
          obtain ⟨good, alloc⟩ := open_of_not_closed notClosed
          exact sound.ptclear running good alloc allowed Ptstate.noConfusion
    | pdelete pid portid dispose =>
        dsimp only [Ports.pdelete]
        split
        · exact ⟨free, queue, sound⟩
        · rename_i notClosed
          obtain ⟨good, alloc⟩ := open_of_not_closed notClosed
          exact sound.ptclear running good alloc allowed Ptstate.noConfusion
    | pcreate count ssem rsem =>
        exact ⟨free, queue, pcreateLoop_sound ⟨allowed.1, allowed.2⟩ running _ sound⟩
    | go pid => exact goes_sound sound running unwrapped
    | elsewhere sems => exact ⟨free, queue, sound.rest sound.nextp allowed⟩

theorem Sound.older (sound : Sound s place free queue) {pid : Int} {ticket : Ticket}
    (reads : (s.place pid).ticket = some ticket) (older : ticket.age ≠ s.age ticket.portid)
    (unwrapped : ¬ s.CameRound ticket) : goes s pid = s ∨ goes s pid = s.put pid .idle := by
  have staffed := (sound.ports ticket.portid).toStaffed
  have stale : s.stale ticket := by
    by_contra fresh
    exact older (staffed.same_age reads fresh unwrapped).2
  unfold goes
  cases stands : s.place pid with
  | idle => exact Or.inl rfl
  | sending read msg =>
      have same : read = ticket := by
        rw [stands, Place.ticket] at reads
        exact Option.some.inj reads
      dsimp only
      rw [same, if_pos stale]
      split
      · exact Or.inl rfl
      · exact Or.inr rfl
  | receiving read =>
      have same : read = ticket := by
        rw [stands, Place.ticket] at reads
        exact Option.some.inj reads
      dsimp only
      rw [same, if_pos stale]
      split
      · exact Or.inl rfl
      · exact Or.inr rfl
  | clearing _ _ _ _ =>
      rw [stands] at reads
      cases reads

theorem Sound.law (sound : Sound s place free queue) : PortLaw s place free queue where
  freeNodes := sound.freed
  queuedNodes := fun portid alloc => ((sound.ports portid).linked (Or.inl alloc)).chain
  distinct := sound.stocked.nodup_iff.mpr (nodes_nodup place)
  partition := sound.stocked
  bounded := fun portid => (sound.ports portid).bounded
  fate := fun portid => (sound.ports portid).fate
  disposed := fun portid => (sound.ports portid).disposed
  lasting := by
    intro portid age isNone
    obtain ⟨none, undisposed⟩ := (sound.ports portid).lasting age isNone
    refine ⟨none, ?_⟩
    rcases undisposed with nothing | ⟨current, pid, newstate, p, clearing⟩
    · rw [nothing]
      exact List.nil_prefix
    · obtain ⟨front, rest, shape, disposed⟩ :=
        (sound.ports portid).disposing pid newstate p clearing
      rw [current, disposed, shape]
      refine ⟨rest.map s.ptmsg, ?_⟩
      rw [← List.map_append, List.append_assoc]
      rfl
  own := fun portid => (sound.ports portid).own
  older := fun _ _ reads older unwrapped => sound.older reads older unwrapped

theorem start_sound (sems : Sems) (above : 0 < place) :
    Sound (Ports.start sems place) place (nodes place) (fun _ => []) where
  freed := Pool.carve_chain (by decide) 49 place _ above
  stocked := by
    have none : portids.flatMap (fun _ => ([] : List Int)) = [] :=
      List.flatMap_eq_nil_iff.mpr fun _ _ => rfl
    unfold Stocked
    rw [none, List.append_nil]
  outside := fun _ _ => rfl
  nextp := (by decide : ¬ isbadport (nports - 1))
  ports := by
    intro portid
    have unlinked : ¬ (Ports.start sems place).Linked portid := by
      rintro (alloc | ⟨pid, newstate, p, clearing⟩)
      · cases alloc
      · cases clearing
    exact
      { linked := fun linked => absurd linked unlinked
        unlinked := fun _ => rfl
        bounded := Nat.zero_le _
        fate := by
          intro age
          simp [Ports.start]
        own := by
          intro age passage member
          cases member
        fresh := fun _ _ => rfl
        ongoing := fun linked => absurd linked unlinked
        lasting := fun _ _ => ⟨rfl, Or.inl rfl⟩
        disposed := by
          intro age dispose ended
          cases ended
        disposing := by
          intro pid newstate p clearing
          cases clearing
        seq := rfl
        limbo := by
          intro pid newstate dispose phase clearing
          cases clearing
        alone := by
          intro pid newstate dispose phase _ _ _ _ clearing
          cases clearing
        tickets := by
          intro pid ticket reads
          cases reads
        sender := by
          intro pid ticket msg sending
          cases sending
        receiver := by
          intro pid ticket receiving
          cases receiving
        guarded := by
          intro _ alloc
          cases alloc
        clears := by
          intro _ pid newstate dispose phase clearing
          cases clearing }
  usable := by
    intro _ portid sem member
    cases member
  apart := by
    intro portid other sem member
    cases member
  single := fun _ => List.nodup_nil

theorem sound_along_run {sems : Sems} (above : 0 < place)
    (reached : Reach portStep (fun s call => Allowed s call ∧ Unwrapped s call)
      (Ports.start sems place) s) : ∃ free queue, Sound s place free queue := by
  apply reached.invariant ⟨_, _, start_sound sems above⟩
  rintro before call ⟨free, queue, sound⟩ ⟨allowed, unwrapped⟩
  exact portStep_sound sound allowed unwrapped

theorem ports_lawful_along_run {sems : Sems} (above : 0 < place)
    (reached : Reach portStep (fun s call => Allowed s call ∧ Unwrapped s call)
      (Ports.start sems place) s) : ∃ free queue, PortLaw s place free queue := by
  obtain ⟨free, queue, sound⟩ := sound_along_run above reached
  exact ⟨free, queue, sound.law⟩

end Runs

/-! ## One message, received behind a wait -/

/-- No semaphore is in use. -/
def noSems : Sems := { semaph := fun _ => { sstate := .free, semcnt := 0 }, waiting := fun _ => [] }

/-- Process 2 waits for the message of process 1. -/
def received : List PortCall :=
  [.pcreate 1 199 198, .preceive 2 99, .psend 1 99 7, .go 2]

theorem received_lawful :
    Permitted portStep (fun s call => Allowed s call ∧ Unwrapped s call) (Ports.start noSems 8)
        received ∧
      ((received.foldl portStep (Ports.start noSems 8)).book 99 1).received = [⟨1, 7⟩] ∧
      ∃ free queue, PortLaw (received.foldl portStep (Ports.start noSems 8)) 8 free queue := by
  have permitted : Permitted portStep (fun s call => Allowed s call ∧ Unwrapped s call)
      (Ports.start noSems 8) received := by
    refine ⟨⟨⟨Or.inr ⟨by decide, rfl, rfl⟩, Or.inr ⟨by decide, by decide, rfl⟩⟩, trivial⟩,
      ⟨⟨⟨by decide, by decide⟩, by decide⟩, trivial⟩,
      ⟨⟨⟨by decide, by decide⟩, by decide⟩, trivial⟩, ⟨trivial, ?_⟩, trivial⟩
    intro ticket reads _ _
    have isTicket : (⟨99, 198, 1, 1⟩ : Ticket) = ticket := Option.some.inj reads
    rw [← isTicket]
    decide
  refine ⟨permitted, by decide, ?_⟩
  exact ports_lawful_along_run (by decide) (reach_of_permitted received Reach.start permitted)

/-! ## The sequence number comes round -/

/-- Process 2 waits for room in the port, which process 3 then resets. -/
def firstReset : List PortCall :=
  [.pcreate 1 199 198, .psend 1 99 7, .psend 2 99 8, .preset 3 99 false, .go 3, .go 3]

def oldTicket : Ticket := ⟨99, 199, 1, 1⟩

/-- The port has been reset so many times, and process 2 has not run since the first time. -/
structure Turned (resets : Nat) (s : Ports) : Prop where
  running : s.stopped = false
  idle : s.place 3 = .idle
  old : s.place 2 = .sending oldTicket 8
  alloc : (s.ports 99).ptstate = .alloc
  seq : (s.ports 99).ptseq = BitVec.ofNat 32 (1 + resets)
  age : s.age 99 = 1 + resets
  empty : (s.ports 99).pthead = 0
  released : 2 ∉ s.sems.waiting 199
  ssem : (s.ports 99).ptssem = 199
  rsem : (s.ports 99).ptrsem = 198
  node : s.ptfree ≠ 0

theorem first_turned : Turned 1 (firstReset.foldl portStep (Ports.start noSems 8)) := by
  constructor <;> decide

theorem first_allowed : Permitted portStep Allowed (Ports.start noSems 8) firstReset :=
  ⟨⟨Or.inr ⟨by decide, rfl, rfl⟩, Or.inr ⟨by decide, by decide, rfl⟩⟩,
    ⟨⟨by decide, by decide⟩, by decide⟩, ⟨⟨by decide, by decide⟩, by decide⟩, rfl, trivial, trivial,
    trivial⟩

def resetCalls : List PortCall := [.preset 3 99 false, .go 3, .go 3]

theorem portStep_clears {s : Ports} (running : s.stopped = false) {pid portid : Int}
    {newstate : Ptstate} {dispose : Bool} {phase : Clearing}
    (clearing : s.place pid = .clearing portid newstate dispose phase) :
    portStep s (.go pid) = s.clears pid portid newstate dispose phase := by
  have notStopped : ¬ s.stopped = true := by
    rw [running]
    exact Bool.false_ne_true
  unfold portStep goes
  rw [if_neg notStopped]
  dsimp only
  rw [clearing]

/-- The port while process 3 is in `_ptclear`. -/
def clearing (s : Ports) : Ports := (s.intoLimbo 99).unlink 3 99 .alloc false

theorem Turned.reset_eq {resets : Nat} {s : Ports} (turned : Turned resets s) :
    resetCalls.foldl portStep s =
      ((clearing s).clears 3 99 .alloc false .second).clears 3 99 .alloc false .last := by
  have notStopped : ¬ s.stopped = true := by
    rw [turned.running]
    exact Bool.false_ne_true
  have opens : ¬ s.closed 99 := by
    rintro (bad | closed)
    · exact absurd bad (by decide)
    · exact closed turned.alloc
  have first : portStep s (.preset 3 99 false) = clearing s := by
    unfold portStep
    rw [if_neg notStopped]
    dsimp only [Ports.preset]
    rw [if_neg opens, ptclear_eq]
    rfl
  have firstRuns : (clearing s).stopped = false := by
    unfold clearing
    rw [unlink_eq]
    exact turned.running
  have firstPlace : (clearing s).place 3 = .clearing 99 .alloc false .second := by
    rw [clearing, (unlink_goes _ _ _ _ _).place, Function.update_self]
  have second := portStep_clears firstRuns firstPlace
  have secondRuns : ((clearing s).clears 3 99 .alloc false .second).stopped = false := by
    rw [second_eq]
    exact firstRuns
  have secondPlace : ((clearing s).clears 3 99 .alloc false .second).place 3 =
      .clearing 99 .alloc false .last := by
    rw [(second_goes _ _ _ _ _).place, Function.update_self]
  have last := portStep_clears secondRuns secondPlace
  unfold resetCalls
  rw [List.foldl_cons, first, List.foldl_cons, second, List.foldl_cons, last, List.foldl_nil]

theorem clearing_entry (s : Ports) : (clearing s).ports 99 =
    { s.ports 99 with
      ptstate := .limbo, ptseq := (s.ports 99).ptseq + 1, pthead := 0, pttail := 0 } := by
  unfold clearing
  rw [unlink_eq]
  dsimp only
  rw [if_pos rfl, Function.update_self, intoLimbo_entry]

theorem clearing_place (s : Ports) :
    ((clearing s).clears 3 99 .alloc false .second).place 2 = s.place 2 := by
  rw [(second_goes _ _ _ _ _).place, Function.update_of_ne (by decide), clearing,
    (unlink_goes _ _ _ _ _).place, Function.update_of_ne (by decide)]
  rfl

theorem clearing_waiting {s : Ports} (ssem : (s.ports 99).ptssem = 199)
    (rsem : (s.ports 99).ptrsem = 198) (released : 2 ∉ s.sems.waiting 199) :
    2 ∉ ((clearing s).clears 3 99 .alloc false .second).sems.waiting 199 := by
  have entry := clearing_entry s
  have away : (199 : Int) ≠ ((clearing s).ports 99).ptrsem := by
    rw [entry]
    dsimp only
    rw [rsem]
    decide
  rw [second_eq]
  dsimp only
  rw [(clearedSems_other away).2, clearing, unlink_eq]
  dsimp only
  rw [intoLimbo_entry]
  dsimp only
  rw [ssem]
  unfold clearedSems
  rw [if_pos rfl]
  split
  · exact released
  · simp [Sems.reset, Sems.setWaiting]

theorem Turned.next {resets : Nat} {s : Ports} (turned : Turned resets s) :
    Turned (resets + 1) (resetCalls.foldl portStep s) := by
  have entry : (((clearing s).clears 3 99 .alloc false .second).clears 3 99 .alloc false .last).ports
      99 = { s.ports 99 with
        ptstate := .alloc, ptseq := (s.ports 99).ptseq + 1, pthead := 0, pttail := 0 } := by
    rw [last_entry, second_eq]
    dsimp only
    rw [clearing_entry]
  have isEmpty : ((s.intoLimbo 99).ports 99).pthead = 0 := by
    rw [intoLimbo_entry]
    exact turned.empty
  rw [turned.reset_eq]
  constructor
  · change ((clearing s).clears 3 99 .alloc false .second).stopped = false
    rw [second_eq, clearing, unlink_eq]
    exact turned.running
  · change Function.update ((clearing s).clears 3 99 .alloc false .second).place 3 Place.idle 3 = _
    rw [Function.update_self]
  · change Function.update ((clearing s).clears 3 99 .alloc false .second).place 3 Place.idle 2 = _
    rw [Function.update_of_ne (by decide), clearing_place]
    exact turned.old
  · rw [entry]
  · rw [entry]
    dsimp only
    rw [turned.seq]
    exact ofNat_succ _
  · change ((clearing s).clears 3 99 .alloc false .second).age 99 = _
    rw [(second_goes _ _ _ _ _).age, clearing, (unlink_goes _ _ _ _ _).age, intoLimbo_age,
      turned.age]
    rfl
  · rw [entry]
  · exact clearing_waiting turned.ssem turned.rsem turned.released
  · rw [entry]
    exact turned.ssem
  · rw [entry]
    exact turned.rsem
  · change ((clearing s).clears 3 99 .alloc false .second).ptfree ≠ 0
    rw [second_eq, clearing, unlink_eq]
    dsimp only
    rw [if_pos isEmpty]
    exact turned.node

theorem resets_turned (resets : Nat) :
    ∃ s, Reach portStep Allowed (Ports.start noSems 8) s ∧ Turned (resets + 1) s := by
  induction resets with
  | zero =>
      exact ⟨_, reach_of_permitted firstReset Reach.start first_allowed, first_turned⟩
  | succ resets ih =>
      obtain ⟨s, reached, turned⟩ := ih
      refine ⟨_, reach_of_permitted resetCalls reached ⟨turned.idle, trivial, trivial, trivial⟩,
        turned.next⟩

/-- Process 2 is dispatched after 2^32 resets, and its message is accepted. -/
theorem old_message_accepted :
    ¬ ∀ sems place s, 0 < place → Reach portStep Allowed (Ports.start sems place) s →
      ∃ free queue, PortLaw s place free queue := by
  intro always
  obtain ⟨s, reached, turned⟩ := resets_turned 4294967295
  have notStopped : ¬ s.stopped = true := by
    rw [turned.running]
    exact Bool.false_ne_true
  have fresh : ¬ s.stale oldTicket := by
    rintro (notAlloc | other)
    · exact notAlloc turned.alloc
    · apply other
      change (s.ports 99).ptseq = 1
      rw [turned.seq]
      decide
  have released : 2 ∉ s.sems.waiting oldTicket.sem := turned.released
  have goesOn : portStep s (.go 2) = (s.put 2 .idle).enqueue 99 1 8 := by
    unfold portStep goes
    rw [if_neg notStopped]
    dsimp only
    rw [turned.old]
    dsimp only
    rw [if_neg released, if_neg fresh]
    rfl
  have node : (s.put 2 .idle).ptfree ≠ 0 := turned.node
  have allowed : Allowed s (.go 2) := trivial
  obtain ⟨free, queue, law⟩ :=
    always _ _ _ (by decide) (Reach.step (PortCall.go 2) reached allowed)
  have own := law.own 99 (s.age 99) ⟨1, 8⟩
  rw [goesOn, enqueue_book node] at own
  have age : (s.put 2 .idle).age = s.age := rfl
  rw [age, Function.update_self] at own
  have isOne := own (List.mem_append_left _ (List.mem_append_right _ (List.mem_singleton_self _)))
  rw [turned.age] at isOne
  exact absurd isOne (by decide)

end MvsXinu.Ports
