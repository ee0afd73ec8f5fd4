import MvsXinu.Memory.PortWaits

/-!
# Clearing and creating

`_ptclear` puts the port into limbo, where nobody serves it, before it may lose control. The
queue stays as it is while the messages are disposed of and goes to the free nodes at once.
-/

namespace MvsXinu.Ports

open MvsXinu.Kernel MvsXinu.Chains MvsXinu.Shelves

set_option autoImplicit false

/-! ## The semaphores of a port that is cleared -/

/-- `sreset` or `sdelete`, as `_ptclear` has to end. -/
def clearedSems (s : Ports) (newstate : Ptstate) (sem : Int) (count : Word) : Sems :=
  if newstate = .alloc then
    if refused s.sems sem ∨ count.slt 0 then s.sems else s.sems.reset sem count
  else if refused s.sems sem then s.sems else s.sems.delete sem

def clearedOwned (s : Ports) (portid : Int) (newstate : Ptstate) (sem : Int) : Int → List Int :=
  if newstate = .alloc ∨ refused s.sems sem then s.owned
  else Function.update s.owned portid ((s.owned portid).erase sem)

section Semaphores

variable {s : Ports} {portid sem : Int} {newstate : Ptstate} {count : Word}

theorem sreset_eq : s.sreset sem count =
    { s with
      sems := if refused s.sems sem ∨ count.slt 0 then s.sems else s.sems.reset sem count } := by
  unfold Ports.sreset
  split <;> rfl

theorem sdelete_eq : s.sdelete portid sem =
    { s with
      sems := if refused s.sems sem then s.sems else s.sems.delete sem
      owned := if refused s.sems sem then s.owned
        else Function.update s.owned portid ((s.owned portid).erase sem) } := by
  unfold Ports.sdelete
  split <;> rfl

theorem clearedSems_other {other : Int} (away : other ≠ sem) :
    (clearedSems s newstate sem count).semaph other = s.sems.semaph other ∧
      (clearedSems s newstate sem count).waiting other = s.sems.waiting other := by
  unfold clearedSems
  split_ifs
  · exact ⟨rfl, rfl⟩
  · exact reset_onlyAt s.sems sem count other away
  · exact ⟨rfl, rfl⟩
  · exact delete_onlyAt s.sems sem other away

theorem clearedSems_refused {other : Int} (refuses : refused s.sems sem) :
    (clearedSems s newstate sem count).semaph other = s.sems.semaph other ∧
      (clearedSems s newstate sem count).waiting other = s.sems.waiting other := by
  unfold clearedSems
  rw [if_pos (Or.inl refuses), if_pos refuses, ite_self]
  exact ⟨rfl, rfl⟩

theorem clearedSems_outside {other : Int} (paired : sem = syserr ∨ sem ∈ s.owned portid)
    (notOwned : other ∉ s.owned portid) :
    (clearedSems s newstate sem count).semaph other = s.sems.semaph other ∧
      (clearedSems s newstate sem count).waiting other = s.sems.waiting other := by
  rcases paired with none | isOwned
  · apply clearedSems_refused
    rw [none]
    exact Or.inl (by decide)
  · exact clearedSems_other fun equal => notOwned (equal ▸ isOwned)

theorem clearedOwned_sub {other : Int}
    (member : other ∈ clearedOwned s portid newstate sem portid) : other ∈ s.owned portid := by
  unfold clearedOwned at member
  split at member
  · exact member
  · rw [Function.update_self] at member
    exact List.mem_of_mem_erase member

theorem clearedOwned_other {other : Int} (away : other ≠ portid) :
    clearedOwned s portid newstate sem other = s.owned other := by
  unfold clearedOwned
  split
  · rfl
  · exact Function.update_of_ne away _ _

theorem clearedOwned_kept {other : Int} (away : other ≠ sem) (isOwned : other ∈ s.owned portid) :
    other ∈ clearedOwned s portid newstate sem portid := by
  unfold clearedOwned
  split
  · exact isOwned
  · rw [Function.update_self]
    exact (List.mem_erase_of_ne away).mpr isOwned

theorem clearedOwned_nodup (nodup : (s.owned portid).Nodup) :
    (clearedOwned s portid newstate sem portid).Nodup := by
  unfold clearedOwned
  split
  · exact nodup
  · rw [Function.update_self]
    exact nodup.erase sem

theorem cleared_usable (usable : ∀ sem ∈ s.owned portid, ¬ refused s.sems sem)
    (nodup : (s.owned portid).Nodup) :
    ∀ other ∈ clearedOwned s portid newstate sem portid,
      ¬ refused (clearedSems s newstate sem count) other := by
  intro other member
  have before := usable other (clearedOwned_sub member)
  by_cases away : other = sem
  · subst away
    unfold clearedOwned at member
    split at member
    · rename_i kept
      have isAlloc := kept.resolve_right before
      unfold clearedSems
      rw [if_pos isAlloc]
      split
      · exact before
      · unfold refused at before ⊢
        simpa [Sems.reset, Sems.setCount, Sems.setWaiting] using before
    · rw [Function.update_self] at member
      exact absurd member nodup.not_mem_erase
  · unfold refused
    rw [(clearedSems_other away).1]
    exact before

theorem cleared_admits {inside : Int → Prop} (usable : ¬ refused s.sems sem)
    (notNegative : 0 ≤ count.toInt) (none : ∀ pid, ¬ inside pid) :
    Admits (clearedSems s .alloc sem count) sem inside count.toInt := by
  have notNeg : ¬ count.slt 0 = true := by
    rw [slt_zero_iff]
    omega
  unfold clearedSems
  rw [if_pos rfl, if_neg (not_or.mpr ⟨usable, notNeg⟩)]
  exact reset_admits usable notNegative none

end Semaphores

/-! ## A port in limbo -/

/-- The process `pid` clears the port, and nobody is in a call that it has to serve. -/
structure Limbo (s : Ports) (portid pid : Int) : Prop where
  limbo : (s.ports portid).ptstate = .limbo
  begun : 0 < s.age portid
  seq : (s.ports portid).ptseq = BitVec.ofNat 32 (s.age portid)
  only : ∀ other newstate dispose phase,
    s.place other = .clearing portid newstate dispose phase → other = pid
  tickets : ∀ other ticket, (s.place other).ticket = some ticket → ticket.portid = portid →
    ticket.seq = BitVec.ofNat 32 ticket.age ∧ ticket.sem ≠ syserr ∧ ticket.age < s.age portid
  near : ∀ other, other ≠ portid → (s.place pid).port ≠ some other

/-- The messages of the nodes in `front` have been disposed of. -/
structure Closing (s : Ports) (portid pid : Int) (queue front : List Int) : Prop extends
    Limbo s portid pid where
  linked : Queue 0 s.ptnext (s.ports portid).pthead (s.ports portid).pttail queue
  bounded : queue.length ≤ (s.ports portid).ptmaxcnt.toNat
  fate : ∀ age, (s.book portid age).accepted.map Passage.msg =
    (s.book portid age).received.map Passage.msg ++ ((s.book portid age).discarded ++
      if age = s.age portid - 1 then queue.map s.ptmsg else [])
  own : ∀ age, ∀ passage ∈ (s.book portid age).accepted ++ (s.book portid age).received,
    passage.age = age
  fresh : ∀ age, s.age portid - 1 < age → s.book portid age = {}
  ended : (s.book portid (s.age portid - 1)).ended = none
  discarded : (s.book portid (s.age portid - 1)).discarded = []
  progress : (s.book portid (s.age portid - 1)).disposed = front.map s.ptmsg
  lasting : ∀ age, age ≠ s.age portid - 1 → (s.book portid age).ended = none →
    (s.book portid age).discarded = [] ∧ (s.book portid age).disposed = []
  disposed : ∀ age dispose, (s.book portid age).ended = some dispose →
    (s.book portid age).disposed = if dispose then (s.book portid age).discarded else []
  paired : Paired s portid

/-- `_ptclear` before it looks at the queue. -/
def Ports.intoLimbo (s : Ports) (portid : Int) : Ports :=
  { s.setPort portid
      { s.ports portid with ptstate := .limbo, ptseq := (s.ports portid).ptseq + 1 } with
    age := Function.update s.age portid (s.age portid + 1) }

theorem ptclear_eq (s : Ports) (pid portid : Int) (newstate : Ptstate) (dispose : Bool) :
    s.ptclear pid portid newstate dispose =
      if dispose ∧ (s.ports portid).pthead ≠ 0 then
        (s.intoLimbo portid).disposes pid portid newstate (s.ports portid).pthead
      else (s.intoLimbo portid).unlink pid portid newstate dispose :=
  rfl

section Limbo

variable {s : Ports} {portid pid place p : Int} {queue front rest : List Int}
  {newstate : Ptstate} {dispose : Bool}

theorem ofNat_succ (number : Nat) :
    (BitVec.ofNat 32 number : Word) + 1 = BitVec.ofNat 32 (number + 1) := by
  apply BitVec.eq_of_toNat_eq
  simp [BitVec.toNat_add]

theorem intoLimbo_entry (s : Ports) (portid : Int) : (s.intoLimbo portid).ports portid =
    { s.ports portid with ptstate := .limbo, ptseq := (s.ports portid).ptseq + 1 } :=
  Function.update_self _ _ _

theorem intoLimbo_age (s : Ports) (portid : Int) :
    (s.intoLimbo portid).age portid = s.age portid + 1 :=
  Function.update_self _ _ _

theorem intoLimbo_local (s : Ports) (portid : Int) : Local s (s.intoLimbo portid) portid :=
  ⟨fun _ away => Function.update_of_ne away _ _, fun _ away => Function.update_of_ne away _ _,
    fun _ _ => rfl, fun _ _ => rfl, fun _ => Or.inl rfl, id⟩

theorem PortInv.closing (inv : PortInv s portid queue) (running : s.stopped = false)
    (alloc : (s.ports portid).ptstate = .alloc) (idle : s.place pid = .idle) :
    Closing (s.intoLimbo portid) portid pid queue [] := by
  have held : s.held portid = s.age portid := if_pos alloc
  have linked := inv.linked (Or.inl alloc)
  have staffed := inv.toStaffed
  have notDisposing : ¬ s.Disposing portid := by
    rintro ⟨other, state, node, clearing⟩
    exact staffed.no_clearing alloc clearing
  obtain ⟨_, ended, discarded, disposed⟩ := inv.toBooked.current staffed alloc
  have paired := (inv.guarded running alloc).toPaired
  have fate := inv.fate
  have fresh := inv.fresh
  rw [held] at fate fresh
  have entry := intoLimbo_entry s portid
  have limbo : Limbo (s.intoLimbo portid) portid pid := by
    constructor
    · rw [entry]
    · rw [intoLimbo_age]
      exact Nat.succ_pos _
    · rw [entry, intoLimbo_age, staffed.seq]
      exact ofNat_succ _
    · intro other state disposes phase clearing
      exact absurd clearing (staffed.no_clearing alloc)
    · intro other ticket reads isPort
      obtain ⟨seq, some, before, _⟩ := staffed.tickets other ticket reads isPort
      rw [intoLimbo_age]
      exact ⟨seq, some, Nat.lt_succ_of_le before⟩
    · exact idle_far portid idle
  refine ⟨limbo, ?_, ?_, ?_, inv.own, ?_, ?_, ?_, ?_, ?_, inv.disposed, ?_⟩
  · rw [entry]
    exact linked
  · rw [entry]
    exact inv.bounded
  · rw [intoLimbo_age]
    exact fate
  · rw [intoLimbo_age]
    exact fresh
  · rw [intoLimbo_age]
    exact ended
  · rw [intoLimbo_age]
    exact discarded
  · rw [intoLimbo_age]
    exact disposed
  · intro age _ isNone
    obtain ⟨none, undisposed⟩ := inv.lasting age isNone
    exact ⟨none, undisposed.resolve_right fun both => notDisposing both.2⟩
  · refine ⟨?_, ?_, ?_⟩
    · rw [entry]
      exact paired.ssem
    · rw [entry]
      exact paired.rsem
    · rw [entry]
      exact paired.apart

theorem Staffed.limboed {phase : Clearing} (staffed : Staffed s portid)
    (clearing : s.place pid = .clearing portid newstate dispose phase) : Limbo s portid pid := by
  obtain ⟨limbo, begun, _⟩ := staffed.limbo pid newstate dispose phase clearing
  have notAlloc : ¬ (s.ports portid).ptstate = .alloc := by
    rw [limbo]
    exact Ptstate.noConfusion
  constructor
  · exact limbo
  · exact begun
  · exact staffed.seq
  · intro other state disposes next isOther
    exact staffed.alone pid newstate dispose phase other state disposes next clearing isOther
  · intro other ticket reads isPort
    obtain ⟨seq, some, before, current⟩ := staffed.tickets other ticket reads isPort
    refine ⟨seq, some, lt_of_le_of_ne before ?_⟩
    exact fun same => notAlloc (current same)
  · intro other away isPort
    rw [clearing] at isPort
    exact away (Option.some.inj isPort).symm

/-- Nobody is in a call that this incarnation has to serve. -/
theorem Limbo.nobody_sends (limbo : Limbo s portid pid) (other : Int) : ¬ s.Sends portid other := by
  rintro ⟨msg, sending⟩
  have reads : (s.place other).ticket =
      some (s.ticket portid (s.ports portid).ptssem) := by rw [sending, Place.ticket]
  exact absurd (limbo.tickets other _ reads rfl).2.2 (Nat.lt_irrefl _)

theorem Limbo.nobody_receives (limbo : Limbo s portid pid) (other : Int) :
    ¬ s.Receives portid other := by
  intro receiving
  rw [Ports.Receives] at receiving
  have reads : (s.place other).ticket =
      some (s.ticket portid (s.ports portid).ptrsem) := by rw [receiving, Place.ticket]
  exact absurd (limbo.tickets other _ reads rfl).2.2 (Nat.lt_irrefl _)

theorem Limbo.held (limbo : Limbo s portid pid) : s.held portid = s.age portid - 1 := by
  have notAlloc : ¬ (s.ports portid).ptstate = .alloc := by
    rw [limbo.limbo]
    exact Ptstate.noConfusion
  exact if_neg notAlloc

/-- A process that comes out of the disposal function. -/
theorem PortInv.disposing_closing (inv : PortInv s portid queue) (running : s.stopped = false)
    (clearing : s.place pid = .clearing portid newstate true (.disposing p)) :
    ∃ front rest, queue = front ++ p :: rest ∧
      Closing s portid pid queue (front ++ [p]) := by
  have limbo := inv.toStaffed.limboed clearing
  have held := limbo.held
  have disposing : s.Disposing portid := ⟨pid, newstate, p, clearing⟩
  obtain ⟨front, rest, shape, disposed⟩ := inv.disposing pid newstate p clearing
  have fate := inv.fate
  have fresh := inv.fresh
  have ongoing := inv.ongoing (Or.inr disposing)
  have lasting := inv.lasting
  rw [held] at fate fresh ongoing lasting disposed
  refine ⟨front, rest, shape, limbo, inv.linked (Or.inr disposing), inv.bounded, fate, inv.own,
    fresh, ongoing, (lasting _ ongoing).1, disposed, ?_, inv.disposed, ?_⟩
  · intro age other isNone
    obtain ⟨none, undisposed⟩ := lasting age isNone
    exact ⟨none, undisposed.resolve_right fun both => other both.1⟩
  · exact inv.clears running pid newstate true _ clearing

/-- The process goes on in `_ptclear`. -/
structure Goes (s later : Ports) (portid pid : Int) (stands : Place) : Prop where
  entry : SameEntry (s.ports portid) (later.ports portid)
  age : later.age portid = s.age portid
  place : later.place = Function.update s.place pid stands

section Goes

variable {later : Ports} {phase : Clearing}
  (limbo : Limbo s portid pid)
  (goes : Goes s later portid pid (.clearing portid newstate dispose phase))
include limbo goes

theorem Limbo.clearing_iff (other : Int) (state : Ptstate) (disposes : Bool) (next : Clearing) :
    later.place other = .clearing portid state disposes next ↔
      other = pid ∧ state = newstate ∧ disposes = dispose ∧ next = phase := by
  rw [goes.place]
  by_cases same : other = pid
  · rw [same, Function.update_self]
    constructor
    · intro equal
      injection equal with _ isState isDispose isPhase
      exact ⟨rfl, isState.symm, isDispose.symm, isPhase.symm⟩
    · rintro ⟨_, rfl, rfl, rfl⟩
      rfl
  · rw [Function.update_of_ne same]
    constructor
    · intro clearing
      exact absurd (limbo.only other state disposes next clearing) same
    · intro both
      exact absurd both.1 same

theorem Limbo.reads {other : Int} {ticket : Ticket}
    (reads : (later.place other).ticket = some ticket) (isPort : ticket.portid = portid) :
    ticket.seq = BitVec.ofNat 32 ticket.age ∧ ticket.sem ≠ syserr ∧ ticket.age < s.age portid := by
  rw [goes.place] at reads
  by_cases same : other = pid
  · rw [same, Function.update_self] at reads
    cases reads
  · rw [Function.update_of_ne same] at reads
    exact limbo.tickets other ticket reads isPort

theorem Limbo.staffed (legal : newstate ≠ .limbo)
    (disposes : ∀ p, phase = .disposing p → dispose = true) : Staffed later portid := by
  constructor
  · rw [goes.entry.ptseq, goes.age]
    exact limbo.seq
  · intro other state disposes' next clearing
    obtain ⟨_, rfl, rfl, rfl⟩ := (limbo.clearing_iff goes _ _ _ _).mp clearing
    rw [goes.age]
    exact ⟨goes.entry.ptstate.trans limbo.limbo, limbo.begun, legal, disposes⟩
  · intro first _ _ _ second _ _ _ isFirst isSecond
    rw [((limbo.clearing_iff goes _ _ _ _).mp isFirst).1,
      ((limbo.clearing_iff goes _ _ _ _).mp isSecond).1]
  · intro other ticket reads isPort
    obtain ⟨seq, some, before⟩ := limbo.reads goes reads isPort
    rw [goes.age]
    exact ⟨seq, some, Nat.le_of_lt before, fun same => absurd same (Nat.ne_of_lt before)⟩
  · intro other ticket msg sending isPort same
    have reads : (later.place other).ticket = some ticket := by rw [sending, Place.ticket]
    rw [goes.age] at same
    exact absurd same (Nat.ne_of_lt (limbo.reads goes reads isPort).2.2)
  · intro other ticket receiving isPort same
    have reads : (later.place other).ticket = some ticket := by rw [receiving, Place.ticket]
    rw [goes.age] at same
    exact absurd same (Nat.ne_of_lt (limbo.reads goes reads isPort).2.2)

theorem Limbo.went : Limbo later portid pid where
  limbo := goes.entry.ptstate.trans limbo.limbo
  begun := by
    rw [goes.age]
    exact limbo.begun
  seq := by
    rw [goes.entry.ptseq, goes.age]
    exact limbo.seq
  only := fun other state disposes next clearing =>
    ((limbo.clearing_iff goes other state disposes next).mp clearing).1
  tickets := by
    intro other ticket reads isPort
    rw [goes.age]
    exact limbo.reads goes reads isPort
  near := by
    intro other away isPort
    rw [goes.place, Function.update_self] at isPort
    exact away (Option.some.inj isPort).symm

theorem Limbo.held_later : later.held portid = s.age portid - 1 := by
  rw [(limbo.went goes).held, goes.age]

end Goes

theorem disposes_goes (s : Ports) (pid portid : Int) (newstate : Ptstate) (p : Int) :
    Goes s (s.disposes pid portid newstate p) portid pid
      (.clearing portid newstate true (.disposing p)) :=
  ⟨⟨rfl, rfl, rfl, rfl, rfl⟩, rfl, rfl⟩

theorem disposes_book (s : Ports) (pid portid : Int) (newstate : Ptstate) (p : Int) :
    (s.disposes pid portid newstate p).book portid =
      Function.update (s.book portid) (s.age portid - 1)
        { s.book portid (s.age portid - 1) with
          disposed := (s.book portid (s.age portid - 1)).disposed ++ [s.ptmsg p] } :=
  Function.update_self _ _ _

theorem disposes_local (closing : Closing s portid pid queue front) (newstate : Ptstate) (p : Int) :
    Local s (s.disposes pid portid newstate p) portid := by
  refine ⟨fun _ _ => rfl, fun _ _ => rfl, fun _ _ => rfl,
    fun _ away => Function.update_of_ne away _ _, ?_, id⟩
  exact put_near closing.near fun other away isPort => away (Option.some.inj isPort).symm

/-- The next message is disposed of. -/
theorem Closing.disposes (closing : Closing s portid pid queue front)
    (shape : queue = front ++ p :: rest) (legal : newstate ≠ .limbo) :
    PortInv (s.disposes pid portid newstate p) portid queue := by
  have goes := disposes_goes s pid portid newstate p
  have held := closing.toLimbo.held_later goes
  have book := disposes_book s pid portid newstate p
  have staffed := closing.toLimbo.staffed goes legal fun _ _ => rfl
  have isDisposing : (s.disposes pid portid newstate p).Disposing portid :=
    ⟨pid, newstate, p, (closing.toLimbo.clearing_iff goes _ _ _ _).mpr ⟨rfl, rfl, rfl, rfl⟩⟩
  have queued : Queued (s.disposes pid portid newstate p) portid queue :=
    ⟨fun _ => closing.linked, fun unlinked => absurd (Or.inr isDisposing) unlinked, closing.bounded⟩
  have booked : Booked (s.disposes pid portid newstate p) portid queue := by
    constructor
    · intro age
      rw [held, book]
      by_cases current : age = s.age portid - 1
      · subst current
        rw [Function.update_self]
        exact closing.fate _
      · rw [Function.update_of_ne current]
        exact closing.fate age
    · intro age
      rw [book]
      by_cases current : age = s.age portid - 1
      · subst current
        rw [Function.update_self]
        exact closing.own _
      · rw [Function.update_of_ne current]
        exact closing.own age
    · intro age beyond
      rw [held] at beyond
      rw [book, Function.update_of_ne (Nat.ne_of_gt beyond)]
      exact closing.fresh age beyond
    · intro _
      rw [held, book, Function.update_self]
      exact closing.ended
    · intro age isNone
      rw [held]
      rw [book] at isNone ⊢
      by_cases current : age = s.age portid - 1
      · subst current
        rw [Function.update_self]
        exact ⟨closing.discarded, Or.inr ⟨rfl, isDisposing⟩⟩
      · rw [Function.update_of_ne current] at isNone ⊢
        obtain ⟨none, undisposed⟩ := closing.lasting age current isNone
        exact ⟨none, Or.inl undisposed⟩
    · intro age dispose
      rw [book]
      by_cases current : age = s.age portid - 1
      · subst current
        rw [Function.update_self]
        intro isSome
        have ended := closing.ended
        rw [show (s.book portid (s.age portid - 1)).ended = some dispose from isSome] at ended
        cases ended
      · rw [Function.update_of_ne current]
        exact closing.disposed age dispose
    · intro other state node clearing
      obtain ⟨_, _, _, isNode⟩ := (closing.toLimbo.clearing_iff goes _ _ _ _).mp clearing
      injection isNode with same
      refine ⟨front, rest, same ▸ shape, ?_⟩
      rw [held, book, Function.update_self, same]
      dsimp only
      rw [closing.progress, List.map_append]
      rfl
  exact
    { toQueued := queued
      toBooked := booked
      toStaffed := staffed
      guarded := by
        intro _ alloc
        have limbo := goes.entry.ptstate.trans closing.limbo
        rw [alloc] at limbo
        cases limbo
      clears := by
        intro _ other state disposes next clearing
        obtain ⟨_, rfl, _, rfl⟩ := (closing.toLimbo.clearing_iff goes _ _ _ _).mp clearing
        exact ⟨closing.paired.ssem, closing.paired.rsem, closing.paired.apart⟩ }

/-! ### The queue is given back -/

theorem unlink_eq (s : Ports) (pid portid : Int) (newstate : Ptstate) (dispose : Bool) :
    s.unlink pid portid newstate dispose =
      { s with
        ptnext := if (s.ports portid).pthead = 0 then s.ptnext
          else Function.update s.ptnext (s.ports portid).pttail s.ptfree
        ptfree := if (s.ports portid).pthead = 0 then s.ptfree else (s.ports portid).pthead
        ports := if newstate = .alloc then
            Function.update s.ports portid { s.ports portid with pthead := 0, pttail := 0 }
          else s.ports
        sems := clearedSems s newstate (s.ports portid).ptssem (s.ports portid).ptmaxcnt
        owned := clearedOwned s portid newstate (s.ports portid).ptssem
        book := Function.update s.book portid (Function.update (s.book portid) (s.age portid - 1)
          { s.book portid (s.age portid - 1) with
            discarded := (s.book portid (s.age portid - 1)).discarded ++
              (follow 0 s.ptnext maxmsgs (s.ports portid).pthead).map s.ptmsg
            ended := some dispose })
        place := Function.update s.place pid (.clearing portid newstate dispose .second) } := by
  unfold Ports.unlink clearedSems clearedOwned
  dsimp only
  by_cases isEmpty : (s.ports portid).pthead = 0
  · by_cases isAlloc : newstate = .alloc
    · simp only [if_pos isEmpty, if_pos isAlloc, sreset_eq, Or.inl isAlloc, if_true]
      rfl
    · simp only [if_pos isEmpty, sdelete_eq, isAlloc, false_or]
      rfl
  · by_cases isAlloc : newstate = .alloc
    · simp only [if_neg isEmpty, if_pos isAlloc, sreset_eq, Or.inl isAlloc, if_true]
      rfl
    · simp only [if_neg isEmpty, sdelete_eq, isAlloc, false_or]
      rfl

theorem unlink_entry (s : Ports) (pid portid : Int) (newstate : Ptstate) (dispose : Bool) :
    SameEntry (s.ports portid) ((s.unlink pid portid newstate dispose).ports portid) ∧
      (newstate = .alloc → (s.unlink pid portid newstate dispose).Emptied portid) := by
  rw [unlink_eq]
  unfold Ports.Emptied
  dsimp only
  split
  · rw [Function.update_self]
    exact ⟨⟨rfl, rfl, rfl, rfl, rfl⟩, fun _ => ⟨rfl, rfl⟩⟩
  · rename_i notAlloc
    exact ⟨⟨rfl, rfl, rfl, rfl, rfl⟩, fun isAlloc => absurd isAlloc notAlloc⟩

theorem unlink_goes (s : Ports) (pid portid : Int) (newstate : Ptstate) (dispose : Bool) :
    Goes s (s.unlink pid portid newstate dispose) portid pid
      (.clearing portid newstate dispose .second) := by
  refine ⟨(unlink_entry s pid portid newstate dispose).1, ?_, ?_⟩
  · rw [unlink_eq]
  · rw [unlink_eq]

theorem unlink_local (closing : Closing s portid pid queue front) (newstate : Ptstate)
    (dispose : Bool) : Local s (s.unlink pid portid newstate dispose) portid := by
  rw [unlink_eq]
  refine ⟨?_, fun _ _ => rfl, fun _ away => clearedOwned_other away,
    fun _ away => Function.update_of_ne away _ _, ?_, id⟩
  · intro other away
    dsimp only
    split
    · exact Function.update_of_ne away _ _
    · rfl
  · exact put_near closing.near fun other away isPort => away (Option.some.inj isPort).symm

theorem unlink_book (closing : Closing s portid pid queue front) (short : queue.length ≤ maxmsgs)
    (newstate : Ptstate) (dispose : Bool) :
    (s.unlink pid portid newstate dispose).book portid =
      Function.update (s.book portid) (s.age portid - 1)
        { s.book portid (s.age portid - 1) with
          discarded := queue.map s.ptmsg
          ended := some dispose } := by
  rw [unlink_eq]
  dsimp only
  rw [Function.update_self, closing.linked.chain.follow_eq short, closing.discarded,
    List.nil_append]

theorem Closing.unlink_guarded (closing : Closing s portid pid queue front)
    (usable : ∀ sem ∈ s.owned portid, ¬ refused s.sems sem) :
    ClearGuarded (s.unlink pid portid newstate dispose) portid newstate .second := by
  have goes := unlink_goes s pid portid newstate dispose
  obtain ⟨entry, emptied⟩ := unlink_entry s pid portid newstate dispose
  have nobody := (closing.toLimbo.went goes).nobody_sends
  have sems : (s.unlink pid portid newstate dispose).sems =
      clearedSems s newstate (s.ports portid).ptssem (s.ports portid).ptmaxcnt := by
    rw [unlink_eq]
  have owned : (s.unlink pid portid newstate dispose).owned =
      clearedOwned s portid newstate (s.ports portid).ptssem := by
    rw [unlink_eq]
  unfold ClearGuarded
  dsimp only
  split
  · rename_i isAlloc
    have kept : (s.unlink pid portid newstate dispose).owned = s.owned := by
      rw [owned]
      exact if_pos (Or.inl isAlloc)
    refine ⟨⟨?_, ?_, ?_⟩, emptied isAlloc, ?_⟩
    · rw [entry.ptssem, kept]
      exact closing.paired.ssem
    · rw [entry.ptrsem, kept]
      exact closing.paired.rsem
    · rw [entry.ptssem, entry.ptrsem]
      exact closing.paired.apart
    · intro notNegative isOwned
      rw [entry.ptssem, entry.ptmaxcnt, sems, isAlloc]
      rw [entry.ptssem, kept] at isOwned
      rw [entry.ptmaxcnt] at notNegative
      subst isAlloc
      exact cleared_admits (usable _ isOwned) notNegative nobody
  · rw [entry.ptrsem, owned]
    rcases closing.paired.rsem with none | isOwned
    · exact Or.inl none
    · by_cases same : (s.ports portid).ptrsem = (s.ports portid).ptssem
      · exact Or.inl (same.trans (closing.paired.apart same.symm))
      · exact Or.inr (clearedOwned_kept same isOwned)

theorem Closing.unlink (closing : Closing s portid pid queue front)
    (legal : newstate ≠ .limbo) (short : queue.length ≤ maxmsgs)
    (complete : front = if dispose then queue else [])
    (usable : ∀ sem ∈ s.owned portid, ¬ refused s.sems sem) :
    PortInv (s.unlink pid portid newstate dispose) portid [] := by
  have goes := unlink_goes s pid portid newstate dispose
  have held := closing.toLimbo.held_later goes
  have book := unlink_book closing short newstate dispose
  have staffed := closing.toLimbo.staffed goes legal fun _ isDisposing => Clearing.noConfusion isDisposing
  have limbo := goes.entry.ptstate.trans closing.limbo
  have notDisposing : ¬ (s.unlink pid portid newstate dispose).Disposing portid := by
    rintro ⟨other, state, node, clearing⟩
    exact Clearing.noConfusion ((closing.toLimbo.clearing_iff goes _ _ _ _).mp clearing).2.2.2
  have unlinked : ¬ (s.unlink pid portid newstate dispose).Linked portid := by
    rintro (alloc | disposing)
    · rw [limbo] at alloc
      cases alloc
    · exact notDisposing disposing
  have booked : Booked (s.unlink pid portid newstate dispose) portid [] := by
    constructor
    · intro age
      rw [held, book, List.map_nil, ite_self]
      have fate := closing.fate age
      by_cases current : age = s.age portid - 1
      · subst current
        rw [if_pos rfl, closing.discarded, List.nil_append] at fate
        rw [Function.update_self, List.append_nil]
        exact fate
      · rw [if_neg current] at fate
        rw [Function.update_of_ne current]
        exact fate
    · intro age
      rw [book]
      by_cases current : age = s.age portid - 1
      · subst current
        rw [Function.update_self]
        exact closing.own _
      · rw [Function.update_of_ne current]
        exact closing.own age
    · intro age beyond
      rw [held] at beyond
      rw [book, Function.update_of_ne (Nat.ne_of_gt beyond)]
      exact closing.fresh age beyond
    · exact fun linked => absurd linked unlinked
    · intro age isNone
      rw [book] at isNone ⊢
      by_cases current : age = s.age portid - 1
      · subst current
        rw [Function.update_self] at isNone
        cases isNone
      · rw [Function.update_of_ne current] at isNone ⊢
        obtain ⟨none, undisposed⟩ := closing.lasting age current isNone
        exact ⟨none, Or.inl undisposed⟩
    · intro age isDispose
      rw [book]
      by_cases current : age = s.age portid - 1
      · subst current
        rw [Function.update_self]
        intro isSome
        have same : dispose = isDispose := Option.some.inj isSome
        dsimp only
        rw [closing.progress, complete, ← same]
        cases dispose
        · rfl
        · rfl
      · rw [Function.update_of_ne current]
        exact closing.disposed age isDispose
    · intro other state node clearing
      exact absurd ⟨other, state, node, clearing⟩ notDisposing
  refine
    { toQueued := ⟨fun linked => absurd linked unlinked, fun _ => rfl, Nat.zero_le _⟩
      toBooked := booked
      toStaffed := staffed
      guarded := ?_
      clears := ?_ }
  · intro _ alloc
    rw [limbo] at alloc
    cases alloc
  · intro _ other state disposes next clearing
    obtain ⟨_, rfl, _, rfl⟩ := (closing.toLimbo.clearing_iff goes _ _ _ _).mp clearing
    exact closing.unlink_guarded usable

end Limbo

/-! ## The calls of `_ptclear` -/

/-- The nodes and the semaphores are the same ones. -/
structure SameStore (s later : Ports) : Prop where
  ptnext : later.ptnext = s.ptnext
  ptmsg : later.ptmsg = s.ptmsg
  ptfree : later.ptfree = s.ptfree
  sems : later.sems = s.sems
  owned : later.owned = s.owned
  nextp : later.ptnextp = s.ptnextp
  stopped : later.stopped = s.stopped

section Clear

variable {s middle : Ports} {portid pid place p : Int} {free front rest : List Int}
  {queue : Int → List Int} {newstate : Ptstate} {dispose : Bool}

theorem Sound.disposed (sound : Sound s place free queue) (good : ¬ isbadport portid)
    (here : Local s middle portid) (store : SameStore s middle)
    (closing : Closing middle portid pid (queue portid) front)
    (shape : queue portid = front ++ p :: rest) (legal : newstate ≠ .limbo) :
    Sound (middle.disposes pid portid newstate p) place free queue := by
  have owned : (middle.disposes pid portid newstate p).owned = s.owned := store.owned
  rw [← Function.update_eq_self portid queue]
  apply sound.step (here.trans (disposes_local closing newstate p))
  · exact closing.disposes shape legal
  · change Chain 0 middle.ptnext middle.ptfree free
    rw [store.ptnext, store.ptfree]
    exact sound.freed
  · rw [Function.update_eq_self]
    exact sound.stocked
  · exact fun bad => absurd bad good
  · change ¬ isbadport middle.ptnextp
    rw [store.nextp]
    exact sound.nextp
  · intro sem _ _
    change middle.sems.semaph sem = _ ∧ middle.sems.waiting sem = _
    rw [store.sems]
    exact ⟨rfl, rfl⟩
  · intro other _ node _
    change middle.ptnext node = _ ∧ middle.ptmsg node = _
    rw [store.ptnext, store.ptmsg]
    exact ⟨rfl, rfl⟩
  · intro running sem isOwned
    rw [owned] at isOwned
    change ¬ refused middle.sems sem
    rw [store.sems]
    exact sound.usable (store.stopped ▸ running) portid sem isOwned
  · intro sem isOwned other away inOther
    rw [owned] at isOwned
    exact away (sound.apart portid other sem isOwned inOther)
  · rw [owned]
    exact sound.single portid

/-- The nodes of the queue stand in front of the free ones. -/
theorem unlink_freed (stocked : Stocked (Ports.nodes place) free portids queue)
    (member : portid ∈ portids) (freed : Chain 0 s.ptnext s.ptfree free)
    (linked : Queue 0 s.ptnext (s.ports portid).pthead (s.ports portid).pttail (queue portid)) :
    Chain 0 (s.unlink pid portid newstate dispose).ptnext
      (s.unlink pid portid newstate dispose).ptfree (queue portid ++ free) := by
  rw [unlink_eq]
  dsimp only
  by_cases isEmpty : (s.ports portid).pthead = 0
  · rw [if_pos isEmpty, if_pos isEmpty, linked.head_null_iff.mp isEmpty]
    exact freed
  · rw [if_neg isEmpty, if_neg isEmpty]
    apply linked.spill (fun none => isEmpty (linked.head_null_iff.mpr none)) freed
    have after := stocked.clear portids_nodup member
    exact (List.nodup_append.mp (after.nodup_iff.mpr (nodes_nodup place))).1

theorem unlink_words (linked : Queue 0 s.ptnext (s.ports portid).pthead (s.ports portid).pttail
      (queue portid)) {node : Int} (notOn : node ∉ queue portid) :
    (s.unlink pid portid newstate dispose).ptnext node = s.ptnext node ∧
      (s.unlink pid portid newstate dispose).ptmsg node = s.ptmsg node := by
  rw [unlink_eq]
  dsimp only
  refine ⟨?_, rfl⟩
  split
  · rfl
  · rename_i some
    apply Function.update_of_ne
    intro equal
    apply notOn
    rw [equal]
    exact linked.tail_mem fun none => some (linked.head_null_iff.mpr none)

theorem Sound.unlinked (sound : Sound s place free queue) (good : ¬ isbadport portid)
    (running : s.stopped = false) (here : Local s middle portid) (store : SameStore s middle)
    (closing : Closing middle portid pid (queue portid) front) (legal : newstate ≠ .limbo)
    (complete : front = if dispose then queue portid else []) :
    Sound (middle.unlink pid portid newstate dispose) place (queue portid ++ free)
      (Function.update queue portid []) := by
  have member : portid ∈ portids := Ports.mem_portids.mpr good
  have usable : ∀ sem ∈ middle.owned portid, ¬ refused middle.sems sem := by
    rw [store.owned, store.sems]
    exact sound.usable running portid
  have single : (middle.owned portid).Nodup := by
    rw [store.owned]
    exact sound.single portid
  have sems : (middle.unlink pid portid newstate dispose).sems =
      clearedSems middle newstate (middle.ports portid).ptssem (middle.ports portid).ptmaxcnt := by
    rw [unlink_eq]
  have owned : (middle.unlink pid portid newstate dispose).owned =
      clearedOwned middle portid newstate (middle.ports portid).ptssem := by
    rw [unlink_eq]
  apply sound.step (here.trans (unlink_local closing newstate dispose))
  · exact closing.unlink legal (sound.short portid) complete usable
  · apply unlink_freed sound.stocked member _ closing.linked
    rw [store.ptnext, store.ptfree]
    exact sound.freed
  · exact sound.stocked.clear portids_nodup member
  · exact fun bad => absurd bad good
  · rw [unlink_eq]
    dsimp only
    rw [store.nextp]
    exact sound.nextp
  · intro sem notOwned _
    rw [sems, ← store.sems]
    apply clearedSems_outside closing.paired.ssem
    rw [store.owned]
    exact notOwned
  · intro other away node isOn
    rw [← store.ptnext, ← store.ptmsg]
    exact unlink_words closing.linked (sound.elsewhere away isOn).2
  · intro _
    rw [sems, owned]
    exact cleared_usable usable single
  · intro sem isOwned other away inOther
    rw [owned] at isOwned
    have inThis : sem ∈ s.owned portid := by
      rw [← store.owned]
      exact clearedOwned_sub isOwned
    exact away (sound.apart portid other sem inThis inOther)
  · rw [owned]
    exact clearedOwned_nodup single

theorem Sound.ptclear (sound : Sound s place free queue) (running : s.stopped = false)
    (good : ¬ isbadport portid) (alloc : (s.ports portid).ptstate = .alloc)
    (idle : s.place pid = .idle) (legal : newstate ≠ .limbo) :
    ∃ freeNow now, Sound (s.ptclear pid portid newstate dispose) place freeNow now := by
  have inv := sound.ports portid
  have here := intoLimbo_local s portid
  have store : SameStore s (s.intoLimbo portid) := ⟨rfl, rfl, rfl, rfl, rfl, rfl, rfl⟩
  have closing := inv.closing running alloc idle
  have linked := inv.linked (Or.inl alloc)
  rw [ptclear_eq]
  split
  · rename_i both
    cases shape : queue portid with
    | nil => exact absurd (linked.head_null_iff.mpr shape) both.2
    | cons node rest =>
        have isFirst := linked.chain
        rw [shape] at isFirst
        have split : queue portid = [] ++ (s.ports portid).pthead :: rest := by
          rw [shape, isFirst.1]
          rfl
        exact ⟨_, _, sound.disposed good here store closing split legal⟩
  · rename_i notBoth
    refine ⟨_, _, sound.unlinked good running here store closing legal ?_⟩
    cases dispose
    · rfl
    · have none : (s.ports portid).pthead = 0 := by
        by_contra some
        exact notBoth ⟨rfl, some⟩
      rw [linked.head_null_iff.mp none]
      rfl

/-! ### A process in `_ptclear` goes on -/

theorem Sound.limbo_good (sound : Sound s place free queue) (limbo : Limbo s portid pid) :
    ¬ isbadport portid := by
  intro bad
  have isFree := sound.outside portid bad
  rw [limbo.limbo] at isFree
  cases isFree

theorem Sound.goes_disposing (sound : Sound s place free queue) (running : s.stopped = false)
    (clearing : s.place pid = .clearing portid newstate dispose (.disposing p)) :
    ∃ freeNow now, Sound (s.clears pid portid newstate dispose (.disposing p)) place freeNow now := by
  have inv := sound.ports portid
  obtain ⟨_, _, legal, disposes⟩ := inv.limbo pid newstate dispose _ clearing
  have isDispose := disposes p rfl
  subst isDispose
  obtain ⟨front, rest, shape, closing⟩ := inv.disposing_closing running clearing
  have good := sound.limbo_good closing.toLimbo
  have here : Local s s portid :=
    ⟨fun _ _ => rfl, fun _ _ => rfl, fun _ _ => rfl, fun _ _ => rfl, fun _ => Or.inl rfl, id⟩
  have store : SameStore s s := ⟨rfl, rfl, rfl, rfl, rfl, rfl, rfl⟩
  have chain := closing.linked.chain
  rw [shape] at chain
  have behind := chain.behind
  unfold Ports.clears
  dsimp only
  cases rest with
  | nil =>
      have isLast : s.ptnext p = 0 := behind
      rw [if_pos isLast]
      refine ⟨_, _, sound.unlinked good running here store closing legal ?_⟩
      rw [shape]
      rfl
  | cons next rest =>
      rw [if_neg behind.ne_null, behind.1]
      have longer : queue portid = (front ++ [p]) ++ next :: rest := by
        rw [shape, List.append_assoc]
        rfl
      exact ⟨_, _, sound.disposed good here store closing longer legal⟩

theorem second_eq (s : Ports) (pid portid : Int) (newstate : Ptstate) (dispose : Bool) :
    s.clears pid portid newstate dispose .second =
      { s with
        sems := clearedSems s newstate (s.ports portid).ptrsem 0
        owned := clearedOwned s portid newstate (s.ports portid).ptrsem
        place := Function.update s.place pid (.clearing portid newstate dispose .last) } := by
  unfold Ports.clears clearedSems clearedOwned
  dsimp only
  by_cases isAlloc : newstate = .alloc
  · simp only [if_pos isAlloc, sreset_eq, Or.inl isAlloc, if_true]
    rfl
  · simp only [sdelete_eq, isAlloc, if_false, false_or]
    rfl

theorem second_goes (s : Ports) (pid portid : Int) (newstate : Ptstate) (dispose : Bool) :
    Goes s (s.clears pid portid newstate dispose .second) portid pid
      (.clearing portid newstate dispose .last) := by
  rw [second_eq]
  exact ⟨⟨rfl, rfl, rfl, rfl, rfl⟩, rfl, rfl⟩

theorem Limbo.unlinked (limbo : Limbo s portid pid) (nobody : ¬ s.Disposing portid) :
    ¬ s.Linked portid := by
  rintro (alloc | disposing)
  · rw [limbo.limbo] at alloc
    cases alloc
  · exact nobody disposing

/-- A port without a queue keeps its books. -/
theorem Booked.unlinked {later : Ports} (booked : Booked s portid []) (before : ¬ s.Disposing portid)
    (behind : ¬ later.Disposing portid) (book : later.book portid = s.book portid)
    (held : s.held portid ≤ later.held portid)
    (ongoing : later.Linked portid → (s.book portid (later.held portid)).ended = none) :
    Booked later portid [] := by
  constructor
  · intro age
    rw [book]
    simpa using booked.fate age
  · rw [book]
    exact booked.own
  · intro age beyond
    rw [book]
    exact booked.fresh age (Nat.lt_of_le_of_lt held beyond)
  · rw [book]
    exact ongoing
  · intro age isNone
    rw [book] at isNone ⊢
    obtain ⟨none, undisposed⟩ := booked.lasting age isNone
    exact ⟨none, Or.inl (undisposed.resolve_right fun both => before both.2)⟩
  · rw [book]
    exact booked.disposed
  · intro other state node clearing
    exact absurd ⟨other, state, node, clearing⟩ behind

theorem second_guarded (limbo : Limbo s portid pid)
    (usable : ∀ sem ∈ s.owned portid, ¬ refused s.sems sem)
    (guarded : ClearGuarded s portid newstate .second) :
    ClearGuarded (s.clears pid portid newstate dispose .second) portid newstate .last := by
  have goes := second_goes s pid portid newstate dispose
  intro isAlloc
  subst isAlloc
  obtain ⟨paired, emptied, send⟩ := guarded
  have receives := (limbo.went goes).nobody_receives
  have sends := (limbo.went goes).nobody_sends
  rw [second_eq] at goes receives sends ⊢
  have owned : clearedOwned s portid .alloc (s.ports portid).ptrsem = s.owned :=
    if_pos (Or.inl rfl)
  refine ⟨emptied, ⟨?_, ?_, paired.apart⟩, ?_, ?_⟩
  · dsimp only
    rw [owned]
    exact paired.ssem
  · dsimp only
    rw [owned]
    exact paired.rsem
  · intro notNegative isOwned
    dsimp only at isOwned ⊢
    rw [owned] at isOwned
    have differ := paired.differ usable isOwned
    obtain ⟨semaph, waiting⟩ := @clearedSems_other s _ .alloc 0 _ differ
    exact (send notNegative isOwned).congr semaph waiting fun other =>
      iff_of_false (sends other) (limbo.nobody_sends other)
  · intro isOwned
    dsimp only at isOwned ⊢
    rw [owned] at isOwned
    exact cleared_admits (usable _ isOwned) (by decide) receives

theorem Sound.goes_second (sound : Sound s place free queue) (running : s.stopped = false)
    (clearing : s.place pid = .clearing portid newstate dispose .second) :
    Sound (s.clears pid portid newstate dispose .second) place free queue := by
  have inv := sound.ports portid
  have limbo := inv.toStaffed.limboed clearing
  have good := sound.limbo_good limbo
  obtain ⟨_, _, legal, _⟩ := inv.limbo pid newstate dispose _ clearing
  have goes := second_goes s pid portid newstate dispose
  have usable := sound.usable running portid
  have notDisposing : ¬ s.Disposing portid := by
    rintro ⟨other, state, node, isOther⟩
    have same := limbo.only other state true _ isOther
    rw [same, clearing] at isOther
    cases isOther
  have noLater : ¬ (s.clears pid portid newstate dispose .second).Disposing portid := by
    rintro ⟨other, state, node, isOther⟩
    exact Clearing.noConfusion ((limbo.clearing_iff goes _ _ _ _).mp isOther).2.2.2
  have unlinked := (limbo.went goes).unlinked noLater
  have none : queue portid = [] := inv.unlinked (limbo.unlinked notDisposing)
  have booked := inv.toBooked
  have guarded := inv.clears running pid newstate dispose _ clearing
  have held : (s.clears pid portid newstate dispose .second).held portid = s.held portid := by
    rw [limbo.held_later goes, limbo.held]
  have behind := @second_guarded s portid pid newstate dispose limbo usable guarded
  have staffed := limbo.staffed goes legal fun _ isDisposing => Clearing.noConfusion isDisposing
  have paired : (s.ports portid).ptrsem = syserr ∨ (s.ports portid).ptrsem ∈ s.owned portid := by
    unfold ClearGuarded at guarded
    dsimp only at guarded
    split at guarded
    · exact guarded.1.rsem
    · exact guarded
  rw [none] at booked
  rw [← Function.update_eq_self portid queue]
  apply sound.step
  · rw [second_eq]
    refine ⟨fun _ _ => rfl, fun _ _ => rfl, fun _ away => clearedOwned_other away, fun _ _ => rfl,
      ?_, id⟩
    exact put_near limbo.near fun other away isPort => away (Option.some.inj isPort).symm
  · rw [none]
    exact
      { toQueued := ⟨fun linked => absurd linked unlinked, fun _ => rfl, Nat.zero_le _⟩
        toBooked := booked.unlinked notDisposing noLater (by rw [second_eq]) held.ge
          fun linked => absurd linked unlinked
        toStaffed := staffed
        guarded := by
          intro _ alloc
          have isLimbo := (limbo.went goes).limbo
          rw [alloc] at isLimbo
          cases isLimbo
        clears := by
          intro _ other state disposes next isOther
          obtain ⟨_, rfl, _, rfl⟩ := (limbo.clearing_iff goes _ _ _ _).mp isOther
          exact behind }
  · rw [second_eq]
    exact sound.freed
  · rw [Function.update_eq_self]
    exact sound.stocked
  · exact fun bad => absurd bad good
  · rw [second_eq]
    exact sound.nextp
  · intro sem notOwned _
    rw [second_eq]
    exact clearedSems_outside paired notOwned
  · intro other _ node _
    rw [second_eq]
    exact ⟨rfl, rfl⟩
  · intro _
    rw [second_eq]
    exact cleared_usable usable (sound.single portid)
  · intro sem isOwned other away inOther
    rw [second_eq] at isOwned
    exact away (sound.apart portid other sem (clearedOwned_sub isOwned) inOther)
  · rw [second_eq]
    exact clearedOwned_nodup (sound.single portid)

theorem last_entry (s : Ports) (pid portid : Int) (newstate : Ptstate) (dispose : Bool) :
    (s.clears pid portid newstate dispose .last).ports portid =
      { s.ports portid with ptstate := newstate } :=
  Function.update_self _ _ _

theorem last_local (limbo : Limbo s portid pid) (newstate : Ptstate) (dispose : Bool) :
    Local s (s.clears pid portid newstate dispose .last) portid :=
  ⟨fun _ away => Function.update_of_ne away _ _, fun _ _ => rfl, fun _ _ => rfl, fun _ _ => rfl,
    put_near limbo.near (idle_far portid rfl), id⟩

theorem last_clearing (limbo : Limbo s portid pid) (other : Int) (state : Ptstate)
    (disposes : Bool) (phase : Clearing) :
    (s.clears pid portid newstate dispose .last).place other ≠
      .clearing portid state disposes phase := by
  change Function.update s.place pid .idle other ≠ _
  by_cases same : other = pid
  · rw [same, Function.update_self]
    exact Place.noConfusion
  · rw [Function.update_of_ne same]
    exact fun isOther => same (limbo.only other state disposes phase isOther)

theorem last_tickets (limbo : Limbo s portid pid) {other : Int} {ticket : Ticket}
    (reads : ((s.clears pid portid newstate dispose .last).place other).ticket = some ticket)
    (isPort : ticket.portid = portid) :
    ticket.seq = BitVec.ofNat 32 ticket.age ∧ ticket.sem ≠ syserr ∧ ticket.age < s.age portid := by
  change (Function.update s.place pid .idle other).ticket = some ticket at reads
  by_cases same : other = pid
  · rw [same, Function.update_self] at reads
    cases reads
  · rw [Function.update_of_ne same] at reads
    exact limbo.tickets other ticket reads isPort

theorem last_staffed (limbo : Limbo s portid pid) :
    Staffed (s.clears pid portid newstate dispose .last) portid := by
  have entry := last_entry s pid portid newstate dispose
  have age : (s.clears pid portid newstate dispose .last).age = s.age := rfl
  constructor
  · rw [entry, age]
    exact limbo.seq
  · intro other state disposes phase isOther
    exact absurd isOther (last_clearing limbo other state disposes phase)
  · intro first state disposes phase _ _ _ _ isFirst
    exact absurd isFirst (last_clearing limbo first state disposes phase)
  · intro other ticket reads isPort
    obtain ⟨seq, some, before⟩ := last_tickets limbo reads isPort
    exact ⟨seq, some, Nat.le_of_lt before, fun same => absurd same (Nat.ne_of_lt before)⟩
  · intro other ticket msg sending isPort same
    have reads : ((s.clears pid portid newstate dispose .last).place other).ticket =
        some ticket := by rw [sending, Place.ticket]
    exact absurd same (Nat.ne_of_lt (last_tickets limbo reads isPort).2.2)
  · intro other ticket receiving isPort same
    have reads : ((s.clears pid portid newstate dispose .last).place other).ticket =
        some ticket := by rw [receiving, Place.ticket]
    exact absurd same (Nat.ne_of_lt (last_tickets limbo reads isPort).2.2)

theorem last_guarded {room stock : Int} (limbo : Limbo s portid pid)
    (guarded : Guarded s portid room stock) :
    Guarded (s.clears pid portid newstate dispose .last) portid room stock := by
  have entry := last_entry s pid portid newstate dispose
  refine ⟨⟨?_, ?_, ?_⟩, ?_, ?_⟩
  · rw [entry]
    exact guarded.ssem
  · rw [entry]
    exact guarded.rsem
  · rw [entry]
    exact guarded.apart
  · unfold SendAdmits
    rw [entry]
    intro notNegative isOwned
    apply (guarded.send notNegative isOwned).congr rfl rfl
    intro other
    refine iff_of_false ?_ (limbo.nobody_sends other)
    rintro ⟨msg, sending⟩
    have reads := congrArg Place.ticket sending
    exact absurd (last_tickets limbo reads rfl).2.2 (Nat.lt_irrefl _)
  · unfold ReceiveAdmits
    rw [entry]
    intro isOwned
    apply (guarded.receive isOwned).congr rfl rfl
    intro other
    refine iff_of_false ?_ (limbo.nobody_receives other)
    intro receiving
    have reads := congrArg Place.ticket receiving
    exact absurd (last_tickets limbo reads rfl).2.2 (Nat.lt_irrefl _)

theorem Sound.goes_last (sound : Sound s place free queue) (running : s.stopped = false)
    (clearing : s.place pid = .clearing portid newstate dispose .last) :
    Sound (s.clears pid portid newstate dispose .last) place free queue := by
  have inv := sound.ports portid
  have limbo := inv.toStaffed.limboed clearing
  have good := sound.limbo_good limbo
  have entry := last_entry s pid portid newstate dispose
  have notDisposing : ¬ s.Disposing portid := by
    rintro ⟨other, state, node, isOther⟩
    have same := limbo.only other state true _ isOther
    rw [same, clearing] at isOther
    cases isOther
  have noLater : ¬ (s.clears pid portid newstate dispose .last).Disposing portid := by
    rintro ⟨other, state, node, isOther⟩
    exact last_clearing limbo other state true _ isOther
  have none : queue portid = [] := inv.unlinked (limbo.unlinked notDisposing)
  have booked := inv.toBooked
  have guarded := inv.clears running pid newstate dispose _ clearing
  have alloc_of : (s.clears pid portid newstate dispose .last).Linked portid →
      newstate = .alloc := by
    rintro (alloc | disposing)
    · rwa [entry] at alloc
    · exact absurd disposing noLater
  have held : (s.clears pid portid newstate dispose .last).held portid =
      if newstate = .alloc then s.age portid else s.age portid - 1 := by
    unfold Ports.held
    rw [entry]
    rfl
  rw [none] at booked
  rw [← Function.update_eq_self portid queue]
  apply sound.step (last_local limbo newstate dispose)
  · rw [none]
    refine
      { toQueued := ⟨?_, fun _ => rfl, Nat.zero_le _⟩
        toBooked := booked.unlinked notDisposing noLater rfl ?_ ?_
        toStaffed := last_staffed limbo
        guarded := ?_
        clears := fun _ other state disposes phase isOther =>
          absurd isOther (last_clearing limbo other state disposes phase) }
    · intro linked
      obtain ⟨isHead, isTail⟩ := (guarded (alloc_of linked)).1
      rw [entry]
      exact ⟨isHead, isTail⟩
    · rw [held, limbo.held]
      split <;> omega
    · intro linked
      have begun := limbo.begun
      rw [held, if_pos (alloc_of linked),
        booked.fresh _ (by rw [limbo.held]; omega)]
    · intro _ alloc
      have isAlloc := alloc_of (Or.inl alloc)
      have counts := @last_guarded s portid pid newstate dispose _ _ limbo
        (guarded isAlloc).2
      rw [entry]
      simpa using counts
  · exact sound.freed
  · rw [Function.update_eq_self]
    exact sound.stocked
  · exact fun bad => absurd bad good
  · exact sound.nextp
  · exact fun _ _ _ => ⟨rfl, rfl⟩
  · exact fun _ _ _ _ => ⟨rfl, rfl⟩
  · exact fun _ => sound.usable running portid
  · exact fun sem isOwned other away inOther => away (sound.apart portid other sem isOwned inOther)
  · exact sound.single portid

end Clear

end MvsXinu.Ports
