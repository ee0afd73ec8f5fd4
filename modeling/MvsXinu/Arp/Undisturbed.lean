import MvsXinu.Arp.Provenance

/-!
# Runs in which no call is disturbed

A call that waits for a buffer or in the middle of a queue comes back to its entry whatever has
become of it. As long as no entry is handed out, resolved or given up under such a call, the
queues are where they belong: an entry that is not pending has none, the packets in a queue are
for the address of the entry, and nothing is lost but what has a class D next hop.
-/

namespace MvsXinu.Arp

set_option autoImplicit false

/-- The entry that a call comes back to. `arpsend` only reads its entry. -/
def Frame.place : Frame → Option (Fin arpTsize)
  | .arpdq index _ => some index
  | .enqueue index _ => some index
  | .arpqsend index _ _ _ => some index
  | .arpsend _ _ => none
  | .arptimer _ _ => none

def atWork (frames : List Frame) : List (Fin arpTsize) := frames.filterMap Frame.place

def Event.Plain : Event → Prop
  | .netwrite _ _ type _ _ => type = eptIp
  | _ => True

instance : ∀ event : Event, Decidable event.Plain
  | .netwrite _ _ type _ _ => inferInstanceAs (Decidable (type = eptIp))
  | .arpIn .. | .arptimer _ | .resume .. | .interface .. => .isTrue trivial

/-- The step takes no entry on which a call is at work. -/
def Undisturbed (setting : Setting) (s : System) (event : Event) : Prop :=
  Wellmade s event ∧ event.Plain ∧
    ∀ index ∈ (step setting s event).cache.taken.drop s.cache.taken.length,
      index ∉ atWork s.procs.flatten

instance (setting : Setting) (s : System) (event : Event) :
    Decidable (Undisturbed setting s event) :=
  inferInstanceAs (Decidable (_ ∧ _ ∧ ∀ index ∈ _, index ∉ _))

/-! ## The invariant -/

/-- The packet may wait for the entry. -/
structure Own (pae : Arpentry) (pep : Packet) : Prop where
  prlen : pae.prlen = ipAlen
  prtype : pae.prtype = eptIp
  pni : pae.pni = pep.ifn
  pra : Same ipAlen pae.pra pep.nexthop
  type : pep.type = eptIp

def Claimant.Fine : Claimant → Prop
  | .netwrite ifn pep => ifn = pep.ifn ∧ pep.type = eptIp
  | .arpIn _ parp => parp.Ethernet ∧ parp.prtype = eptIp

/-- What the call expects of its entry. -/
def Frame.FineAt (pae : Arpentry) : Frame → Prop
  | .arpdq _ none => pae.state = .free
  | .arpdq _ (some claimant) => pae.state = .pending ∧ claimant.Fine
  | .enqueue _ pep => pae.state = .pending ∧ Own pae pep
  | .arpqsend _ pni _ _ => pae.state = .resolved ∧ pni = pae.pni
  | .arpsend _ _ => True
  | .arptimer _ _ => True

def Frame.Fine (table : Fin arpTsize → Arpentry) (frame : Frame) : Prop :=
  ∀ index, frame.place = some index → frame.FineAt (table index)

structure Deed.Right (deed : Deed) : Prop where
  lost : deed.fate = .lost → ipClassD deed.pep.nexthop = true
  sent : ∀ ifn, deed.fate = .sent ifn → ifn = deed.pep.ifn

structure Calm (s : Cache) (frames : List Frame) : Prop where
  apart : (atWork frames).Nodup
  fine : ∀ frame ∈ frames, frame.Fine s.arptable
  idle : ∀ index, (s.arptable index).state ≠ .pending →
    (s.arptable index).queue = none ∨ index ∈ atWork frames
  waiting : ∀ index, ∀ pep ∈ (s.arptable index).waiting, Own (s.arptable index) pep
  used : ∀ index, (s.arptable index).state ≠ .free →
    (s.arptable index).prlen = ipAlen ∧ (s.arptable index).prtype = eptIp
  log : ∀ deed ∈ s.log, deed.Right

/-- The fields on which the calls rely. -/
structure SameKey (pae old : Arpentry) : Prop where
  state : pae.state = old.state
  prlen : pae.prlen = old.prlen
  prtype : pae.prtype = old.prtype
  pni : pae.pni = old.pni
  pra : pae.pra = old.pra

theorem Own.of_key {pae old : Arpentry} {pep : Packet} (own : Own old pep)
    (key : SameKey pae old) : Own pae pep := by
  refine ⟨key.prlen.trans own.prlen, key.prtype.trans own.prtype, key.pni.trans own.pni, ?_,
    own.type⟩
  rw [key.pra]
  exact own.pra

theorem Frame.FineAt.of_key {pae old : Arpentry} {frame : Frame} (fine : frame.FineAt old)
    (key : SameKey pae old) : frame.FineAt pae := by
  cases frame with
  | arpdq index claimant =>
      cases claimant with
      | none => exact key.state.trans fine
      | some claimant => exact ⟨key.state.trans fine.1, fine.2⟩
  | enqueue index pep => exact ⟨key.state.trans fine.1, fine.2.of_key key⟩
  | arpqsend index pni ifn parp =>
      exact ⟨key.state.trans fine.1, fine.2.trans key.pni.symm⟩
  | arpsend index pni => trivial
  | arptimer place gran => trivial

section Parts

variable {setting : Setting} {s : Cache} {index : Fin arpTsize} {frame : Frame}
  {frames others : List Frame}

theorem Calm.perm (calm : Calm s frames) (same : frames.Perm others) : Calm s others := by
  have places : (atWork frames).Perm (atWork others) := same.filterMap _
  refine ⟨places.nodup_iff.mp calm.apart, ?_, ?_, calm.waiting, calm.used, calm.log⟩
  · intro frame listed
    exact calm.fine frame (same.mem_iff.mpr listed)
  · intro index settled
    exact (calm.idle index settled).imp id places.mem_iff.mp

/-- A frame that comes back to no entry makes no difference. -/
theorem Calm.push (calm : Calm s frames) (loose : frame.place = none) :
    Calm s (frame :: frames) := by
  have places : atWork (frame :: frames) = atWork frames := by
    simp [atWork, loose]
  refine ⟨places ▸ calm.apart, ?_, ?_, calm.waiting, calm.used, calm.log⟩
  · intro other listed
    rcases List.mem_cons.mp listed with here | later
    · intro index place
      rw [here, loose] at place
      cases place
    · exact calm.fine other later
  · rw [places]
    exact calm.idle

theorem Calm.pop (calm : Calm s (frame :: frames)) (loose : frame.place = none) :
    Calm s frames := by
  have places : atWork (frame :: frames) = atWork frames := by
    simp [atWork, loose]
  refine ⟨places ▸ calm.apart, ?_, ?_, calm.waiting, calm.used, calm.log⟩
  · intro other listed
    exact calm.fine other (List.mem_cons_of_mem _ listed)
  · intro index settled
    rw [← places]
    exact calm.idle index settled

theorem atWork_cons (place : frame.place = some index) :
    atWork (frame :: frames) = index :: atWork frames := by
  simp [atWork, place]

/-- A call begins on an entry on which none is at work. -/
theorem Calm.enter (calm : Calm s frames) (place : frame.place = some index)
    (free : index ∉ atWork frames) (fine : frame.FineAt (s.arptable index)) :
    Calm s (frame :: frames) := by
  have places := @atWork_cons index frame frames place
  refine ⟨?_, ?_, ?_, calm.waiting, calm.used, calm.log⟩
  · rw [places]
    exact List.nodup_cons.mpr ⟨free, calm.apart⟩
  · intro other listed
    rcases List.mem_cons.mp listed with here | later
    · intro found located
      rw [here, place] at located
      rw [here, ← Option.some.inj located]
      exact fine
    · exact calm.fine other later
  · intro found settled
    rw [places]
    exact (calm.idle found settled).imp id (List.mem_cons_of_mem _)

/-- A call ends on an entry that is pending or has no queue. -/
theorem Calm.leave (calm : Calm s (frame :: frames)) (place : frame.place = some index)
    (empty : (s.arptable index).state ≠ .pending → (s.arptable index).queue = none) :
    Calm s frames ∧ index ∉ atWork frames := by
  have places := @atWork_cons index frame frames place
  have apart := calm.apart
  rw [places] at apart
  obtain ⟨absent, distinct⟩ := List.nodup_cons.mp apart
  refine ⟨⟨distinct, ?_, ?_, calm.waiting, calm.used, calm.log⟩, absent⟩
  · intro other listed
    exact calm.fine other (List.mem_cons_of_mem _ listed)
  · intro found settled
    rcases calm.idle found settled with none | worked
    · exact Or.inl none
    · rw [places] at worked
      rcases List.mem_cons.mp worked with here | later
      · rw [here] at settled ⊢
        exact Or.inl (empty settled)
      · exact Or.inr later

theorem setEntry_calm {pae : Arpentry} (calm : Calm s frames)
    (fine : ∀ frame ∈ frames, frame.place = some index → frame.FineAt (s.arptable index) →
      frame.FineAt pae)
    (idle : pae.state ≠ .pending → pae.queue = none ∨ index ∈ atWork frames)
    (waiting : ∀ pep ∈ pae.waiting, Own pae pep)
    (used : pae.state ≠ .free → pae.prlen = ipAlen ∧ pae.prtype = eptIp) :
    Calm (s.setEntry index pae) frames := by
  refine ⟨calm.apart, ?_, ?_, ?_, ?_, calm.log⟩
  · intro frame listed other place
    have before := calm.fine frame listed other place
    by_cases same : other = index
    · subst same
      simp only [Cache.setEntry, Function.update_self]
      exact fine frame listed place before
    · simpa only [Cache.setEntry, Function.update_of_ne same] using before
  · intro other settled
    by_cases same : other = index
    · subst same
      simp only [Cache.setEntry, Function.update_self] at settled ⊢
      exact idle settled
    · simp only [Cache.setEntry, Function.update_of_ne same] at settled ⊢
      exact calm.idle other settled
  · intro other
    by_cases same : other = index
    · subst same
      simp only [Cache.setEntry, Function.update_self]
      exact waiting
    · simp only [Cache.setEntry, Function.update_of_ne same]
      exact calm.waiting other
  · intro other
    by_cases same : other = index
    · subst same
      simp only [Cache.setEntry, Function.update_self]
      exact used
    · simp only [Cache.setEntry, Function.update_of_ne same]
      exact calm.used other

/-- The key of the entry stays as it is. -/
theorem setEntry_kept {pae : Arpentry} (calm : Calm s frames)
    (key : SameKey pae (s.arptable index))
    (queue : pae.queue = none ∨ pae.state = .pending ∨ index ∈ atWork frames ∨
      pae.queue = (s.arptable index).queue)
    (waiting : ∀ pep ∈ pae.waiting, Own (s.arptable index) pep) :
    Calm (s.setEntry index pae) frames := by
  refine setEntry_calm calm (fun frame _ _ fine => fine.of_key key) ?_ ?_ ?_
  · intro settled
    rcases queue with none | pending | worked | same
    · exact Or.inl none
    · exact absurd pending settled
    · exact Or.inr worked
    · rw [same]
      rw [key.state] at settled
      exact calm.idle index settled
  · intro pep listed
    exact (waiting pep listed).of_key key
  · intro state
    rw [key.state] at state
    rw [key.prlen, key.prtype]
    exact calm.used index state

/-- Nobody is at work on the entry. -/
theorem setEntry_apart {pae : Arpentry} (calm : Calm s frames) (free : index ∉ atWork frames)
    (idle : pae.state ≠ .pending → pae.queue = none)
    (waiting : ∀ pep ∈ pae.waiting, Own pae pep)
    (used : pae.state ≠ .free → pae.prlen = ipAlen ∧ pae.prtype = eptIp) :
    Calm (s.setEntry index pae) frames := by
  refine setEntry_calm calm ?_ (fun settled => Or.inl (idle settled)) waiting used
  intro frame listed place
  exact absurd (List.mem_filterMap.mpr ⟨frame, listed, place⟩) free

/-- A call begins on an entry that it changes. -/
theorem setEntry_enter {pae : Arpentry} (calm : Calm s frames) (place : frame.place = some index)
    (free : index ∉ atWork frames) (fine : frame.FineAt pae)
    (waiting : ∀ pep ∈ pae.waiting, Own pae pep)
    (used : pae.state ≠ .free → pae.prlen = ipAlen ∧ pae.prtype = eptIp) :
    Calm (s.setEntry index pae) (frame :: frames) := by
  have places := @atWork_cons index frame frames place
  refine ⟨?_, ?_, ?_, ?_, ?_, calm.log⟩
  · rw [places]
    exact List.nodup_cons.mpr ⟨free, calm.apart⟩
  · intro other listed found located
    rcases List.mem_cons.mp listed with here | later
    · rw [here] at located ⊢
      rw [← Option.some.inj (place.symm.trans located)]
      simpa only [Cache.setEntry, Function.update_self] using fine
    · have apart : found ≠ index := by
        intro same
        rw [same] at located
        exact free (List.mem_filterMap.mpr ⟨other, later, located⟩)
      simpa only [Cache.setEntry, Function.update_of_ne apart] using
        calm.fine other later found located
  · intro found settled
    rw [places]
    by_cases same : found = index
    · rw [same]
      exact Or.inr List.mem_cons_self
    · simp only [Cache.setEntry, Function.update_of_ne same] at settled ⊢
      exact (calm.idle found settled).imp id (List.mem_cons_of_mem _)
  · intro found
    by_cases same : found = index
    · subst same
      simp only [Cache.setEntry, Function.update_self]
      exact waiting
    · simp only [Cache.setEntry, Function.update_of_ne same]
      exact calm.waiting found
  · intro found
    by_cases same : found = index
    · subst same
      simp only [Cache.setEntry, Function.update_self]
      exact used
    · simp only [Cache.setEntry, Function.update_of_ne same]
      exact calm.used found

theorem done_calm {pep : Packet} {fate : Fate} (calm : Calm s frames)
    (right : Deed.Right ⟨pep, fate⟩) : Calm (s.done pep fate) frames := by
  refine ⟨calm.apart, calm.fine, calm.idle, calm.waiting, calm.used, ?_⟩
  intro deed logged
  rcases List.mem_append.mp logged with old | new
  · exact calm.log deed old
  · rw [List.mem_singleton.mp new]
    exact right

theorem take_calm (calm : Calm s frames) : Calm (s.take index) frames :=
  ⟨calm.apart, calm.fine, calm.idle, calm.waiting, calm.used, calm.log⟩

theorem answer_calm (calm : Calm s frames) (ifn : Nat) (parp : Arp) :
    Calm (s.answer setting ifn parp) frames := by
  unfold Cache.answer
  split
  · exact ⟨calm.apart, calm.fine, calm.idle, calm.waiting, calm.used, calm.log⟩
  · exact calm

theorem arpsend_calm (calm : Calm s frames) (pni : Nat) (found : Bool) :
    Calm (s.arpsend setting index pni found) frames := by
  unfold Cache.arpsend
  split
  · exact ⟨calm.apart, calm.fine, calm.idle, calm.waiting, calm.used, calm.log⟩
  · exact calm

/-- A queue that is overwritten while the entry has none. -/
theorem forget_calm (calm : Calm s frames) (empty : (s.arptable index).queue = none) :
    Calm (s.forget index) frames := by
  have nothing : (s.arptable index).waiting = [] := by
    simp [Arpentry.waiting, empty]
  refine ⟨calm.apart, calm.fine, calm.idle, calm.waiting, calm.used, ?_⟩
  simp only [Cache.forget, nothing, List.map_nil, List.append_nil]
  exact calm.log

theorem waiting_none {pae : Arpentry} (empty : pae.queue = none) (key : Arpentry) :
    ∀ pep ∈ pae.waiting, Own key pep := by
  simp [Arpentry.waiting, empty]

/-! ## Turns -/

theorem grant_calm {claimant : Claimant} (calm : Calm s frames) (free : index ∉ atWork frames)
    (empty : (s.arptable index).queue = none) (fine : claimant.Fine) :
    Calm (s.grant setting index claimant).1
      ((s.grant setting index claimant).2 ++ frames) := by
  have ready := @forget_calm s index frames calm empty
  cases claimant with
  | netwrite ifn pep =>
      obtain ⟨ifnEq, type⟩ := fine
      have pending : Calm (s.pend index ifn pep) frames :=
        setEntry_apart ready free (fun settled => absurd rfl settled) (waiting_none rfl _)
          (fun _ => ⟨rfl, rfl⟩)
      refine (pending.enter rfl free ?_).push rfl
      simp only [Frame.FineAt, Cache.pend, Cache.setEntry, Function.update_self]
      exact ⟨trivial, rfl, rfl, ifnEq, (same_memcpy _ _ _).symm, type⟩
  | arpIn ifn parp =>
      obtain ⟨⟨hwlen, prlen⟩, prtype⟩ := fine
      exact answer_calm (setEntry_apart ready free (fun _ => rfl) (waiting_none rfl _)
        (fun _ => ⟨prlen, prtype⟩)) ifn parp

theorem discarded_right (pep : Packet) (pae : Arpentry) :
    Deed.Right ⟨pep, pae.discarded setting⟩ := by
  constructor
  · intro lost
    unfold Arpentry.discarded at lost
    split at lost <;> cases lost
  · intro ifn sent
    exact absurd sent (discarded_not_sent pae ifn)

/-- The packets left in a queue that was taken from. -/
theorem deq_waiting {pep : Packet} {queue : Gpq.Queue Packet} {pae : Arpentry}
    (taken : pae.queue.bind Gpq.deq = some (pep, queue)) :
    pep ∈ pae.waiting ∧ ∀ other ∈ Gpq.elements queue, other ∈ pae.waiting := by
  obtain ⟨before, queued, front⟩ := Option.bind_eq_some_iff.mp taken
  have elements := Gpq.deq_elements before queue pep front
  have waiting : pae.waiting = pep :: Gpq.elements queue := by
    simp [Arpentry.waiting, queued, elements]
  rw [waiting]
  exact ⟨List.mem_cons_self, fun other listed => List.mem_cons_of_mem _ listed⟩

theorem dequeued_calm {pep : Packet} {queue : Gpq.Queue Packet} (calm : Calm s frames)
    (worked : index ∈ atWork frames)
    (taken : (s.arptable index).queue.bind Gpq.deq = some (pep, queue)) :
    Calm (s.setQueue index (some queue)) frames ∧ Own (s.arptable index) pep := by
  obtain ⟨first, rest⟩ := deq_waiting taken
  refine ⟨setEntry_kept calm ⟨rfl, rfl, rfl, rfl, rfl⟩ (Or.inr (Or.inr (Or.inl worked))) ?_,
    calm.waiting index pep first⟩
  intro other listed
  exact calm.waiting index other (rest other listed)

/-- The call is over and its entry has no queue. -/
theorem freeq_calm (calm : Calm s (frame :: frames)) (place : frame.place = some index) :
    Calm (s.setQueue index none) frames ∧ index ∉ atWork frames := by
  have emptied : Calm (s.setQueue index none) (frame :: frames) :=
    setEntry_kept calm ⟨rfl, rfl, rfl, rfl, rfl⟩ (Or.inl rfl) (waiting_none rfl _)
  refine emptied.leave place ?_
  intro _
  simp only [Cache.setQueue, Cache.setEntry, Function.update_self]

theorem arpdq_calm {claimant : Option Claimant}
    (calm : Calm s (.arpdq index claimant :: frames)) :
    Calm (s.arpdq setting index claimant).1
      ((s.arpdq setting index claimant).2 ++ frames) := by
  unfold Cache.arpdq
  dsimp only
  split
  · next pep queue taken =>
      have worked : index ∈ atWork (.arpdq index claimant :: frames) := by
        rw [atWork_cons rfl]
        exact List.mem_cons_self
      exact done_calm (dequeued_calm calm worked taken).1 (discarded_right pep _)
  · obtain ⟨emptied, free⟩ := freeq_calm calm rfl
    cases claimant with
    | none => exact emptied
    | some claimant =>
        have fine := (calm.fine _ List.mem_cons_self index rfl).2
        refine grant_calm emptied free ?_ fine
        simp only [Cache.setQueue, Cache.setEntry, Function.update_self]

theorem grant_taken (claimant : Claimant) :
    (s.grant setting index claimant).1.taken = s.taken := by
  cases claimant with
  | netwrite ifn pep => rfl
  | arpIn ifn parp =>
      simp only [Cache.grant, Cache.answer]
      split <;> rfl

theorem arpdq_taken (claimant : Option Claimant) :
    (s.arpdq setting index claimant).1.taken = s.taken := by
  unfold Cache.arpdq
  dsimp only
  split
  · rfl
  · cases claimant with
    | none => rfl
    | some claimant => exact grant_taken claimant

theorem arpalloc_taken (claimant : Claimant) :
    (s.arpalloc setting claimant).1.taken =
      s.taken ++ [arpScan s.arptable arpTsize s.aenext] := by
  unfold Cache.arpalloc
  dsimp only
  split
  · exact arpdq_taken _
  · exact grant_taken claimant

theorem arpalloc_calm {claimant : Claimant} {floor : Nat} (calm : Calm s frames)
    (fine : claimant.Fine) (low : floor ≤ s.taken.length)
    (spared : ∀ index ∈ (s.arpalloc setting claimant).1.taken.drop floor,
      index ∉ atWork frames) :
    Calm (s.arpalloc setting claimant).1 ((s.arpalloc setting claimant).2 ++ frames) := by
  set index := arpScan s.arptable arpTsize s.aenext with indexEq
  set next : Cache := { s with aenext := index + 1 }.take index with nextEq
  have same : Calm next frames :=
    ⟨calm.apart, calm.fine, calm.idle, calm.waiting, calm.used, calm.log⟩
  have free : index ∉ atWork frames := by
    apply spared
    rw [arpalloc_taken, List.drop_append_of_le_length low]
    exact List.mem_append_right _ (List.mem_singleton_self _)
  unfold Cache.arpalloc
  dsimp only
  rw [← indexEq, ← nextEq]
  split
  · next waits => exact arpdq_calm (same.enter rfl free ⟨waits.1, fine⟩)
  · next ready =>
      refine grant_calm same free ?_ fine
      by_cases pending : (next.arptable index).state = .pending
      · exact Option.not_isSome_iff_eq_none.mp fun some => ready ⟨pending, some⟩
      · exact (same.idle index pending).resolve_right free

theorem enqueue_calm {pep : Packet} (calm : Calm s frames)
    (pending : (s.arptable index).state = .pending) (own : Own (s.arptable index) pep)
    (found : Bool) : Calm (s.enqueue index pep found) frames := by
  have freed : Deed.Right ⟨pep, .freed⟩ := by
    constructor
    · intro lost
      cases lost
    · intro ifn sent
      cases sent
  unfold Cache.enqueue
  split
  · exact done_calm calm freed
  · next queue made =>
      have start : ∀ other ∈ Gpq.elements queue, Own (s.arptable index) other := by
        intro other listed
        cases queued : (s.arptable index).queue with
        | some before =>
            rw [queued] at made
            have same : before = queue := Option.some.inj made
            apply calm.waiting index other
            simp only [Arpentry.waiting, queued, same]
            exact listed
        | none =>
            rw [queued, Option.none_or] at made
            split at made
            · rw [← Option.some.inj made] at listed
              cases listed
            · cases made
      split
      · exact done_calm (setEntry_kept calm ⟨rfl, rfl, rfl, rfl, rfl⟩ (Or.inr (Or.inl pending))
          start) freed
      · next left after joined =>
          refine setEntry_kept calm ⟨rfl, rfl, rfl, rfl, rfl⟩ (Or.inr (Or.inl pending)) ?_
          intro other listed
          rcases (Gpq.enq_elements queue after pep 0 left joined other).mp listed with new | old
          · rw [new]
            exact own
          · exact start other old

theorem enqueue_taken (pep : Packet) (found : Bool) :
    (s.enqueue index pep found).taken = s.taken := by
  unfold Cache.enqueue
  split
  · rfl
  · split <;> rfl

theorem netwrite_calm {pep : Packet} {floor : Nat} (calm : Calm s frames)
    (type : pep.type = eptIp) (found : Bool) (low : floor ≤ s.taken.length)
    (spared : ∀ index ∈ (s.netwrite setting pep.ifn pep found).1.taken.drop floor,
      index ∉ atWork frames) :
    Calm (s.netwrite setting pep.ifn pep found).1
      ((s.netwrite setting pep.ifn pep found).2 ++ frames) := by
  have plain : ∀ (pep : Packet) (fate : Fate), fate ≠ .lost → (∀ ifn, fate ≠ .sent ifn) →
      Deed.Right ⟨pep, fate⟩ := by
    intro pep fate kept unsent
    exact ⟨fun lost => absurd lost kept, fun ifn sent => absurd sent (unsent ifn)⟩
  unfold Cache.netwrite at spared ⊢
  split
  · exact done_calm calm (plain _ _ (by simp) (by simp))
  · next up =>
      rw [if_neg up] at spared
      split
      · exact done_calm calm (plain _ _ (by simp) (by simp))
      · next outside =>
          rw [if_neg outside] at spared
          split
          · exact done_calm calm (plain _ _ (by simp) (by simp))
          · next unicast =>
              rw [if_neg unicast] at spared
              have lost : ipClassD pep.nexthop = true → Deed.Right ⟨pep, .lost⟩ := by
                intro multicast
                refine ⟨fun _ => multicast, ?_⟩
                intro ifn sent
                cases sent
              split
              · next index located =>
                  obtain ⟨used, prtype, pni, matched⟩ := arpfind_spec located
                  dsimp only
                  split
                  · refine done_calm calm ⟨?_, ?_⟩
                    · intro gone
                      cases gone
                    · intro ifn sent
                      exact (Fate.sent.inj sent).symm
                  · next unresolved =>
                      split
                      · next multicast => exact done_calm calm (lost multicast)
                      · have pending : (s.arptable index).state = .pending := by
                          cases state : (s.arptable index).state with
                          | free => exact absurd state used
                          | pending => rfl
                          | resolved => exact absurd state unresolved
                        have prlen := (calm.used index used).1
                        rw [prlen] at matched
                        exact enqueue_calm calm pending
                          ⟨prlen, prtype.trans type, pni, matched, type⟩ found
              · next absent =>
                  rw [absent] at spared
                  split
                  · next multicast => exact done_calm calm (lost multicast)
                  · next unicast =>
                      dsimp only at spared
                      rw [if_neg unicast] at spared
                      exact arpalloc_calm calm ⟨rfl, type⟩ low spared

/-- There is an entry for the packet, so that none is taken. -/
theorem netwrite_taken {pep : Packet} (used : (s.arptable index).state ≠ .free)
    (own : Own (s.arptable index) pep) (found : Bool) :
    (s.netwrite setting pep.ifn pep found).1.taken = s.taken := by
  unfold Cache.netwrite
  split
  · rfl
  · split
    · rfl
    · split
      · rfl
      · split
        · dsimp only
          split
          · rfl
          · split
            · rfl
            · exact enqueue_taken pep found
        · next absent =>
            have missed := List.find?_eq_none.mp absent index (List.mem_finRange index)
            have matched : Same (s.arptable index).prlen (s.arptable index).pra pep.nexthop := by
              rw [own.prlen]
              exact own.pra
            refine absurd ?_ missed
            simp [used, own.prtype, own.type, own.pni, matched]

theorem netwrite_grows (ifn : Nat) (pep : Packet) (found : Bool) :
    s.taken <+: (s.netwrite setting ifn pep found).1.taken := by
  unfold Cache.netwrite
  split
  · exact List.prefix_rfl
  · split
    · exact List.prefix_rfl
    · split
      · exact List.prefix_rfl
      · split
        · dsimp only
          split
          · exact List.prefix_rfl
          · split
            · exact List.prefix_rfl
            · rw [enqueue_taken]
        · split
          · exact List.prefix_rfl
          · rw [arpalloc_taken]
            exact List.prefix_append _ _

theorem arpqsend_grows (pni ifn : Nat) (parp : Arp) (found : Bool) :
    s.taken <+: (s.arpqsend setting index pni ifn parp found).1.taken := by
  unfold Cache.arpqsend
  split
  · next pep queue _ =>
      exact @netwrite_grows setting (s.setQueue index (some queue)) pni pep found
  · unfold Cache.answer
    split <;> exact List.prefix_rfl

theorem arpqsend_calm {pni ifn : Nat} {parp : Arp}
    (calm : Calm s (.arpqsend index pni ifn parp :: frames)) (found : Bool) :
    Calm (s.arpqsend setting index pni ifn parp found).1
      ((s.arpqsend setting index pni ifn parp found).2 ++ frames) := by
  unfold Cache.arpqsend
  split
  · next pep queue taken =>
      have worked : index ∈ atWork (.arpqsend index pni ifn parp :: frames) := by
        rw [atWork_cons rfl]
        exact List.mem_cons_self
      obtain ⟨resolved, pniEq⟩ := calm.fine _ List.mem_cons_self index rfl
      obtain ⟨rest, own⟩ := dequeued_calm calm worked taken
      have here : pni = pep.ifn := pniEq.trans own.pni
      set next : Cache := s.setQueue index (some queue) with nextEq
      have entry : next.arptable index = { s.arptable index with queue := some queue } := by
        rw [nextEq]
        simp only [Cache.setQueue, Cache.setEntry, Function.update_self]
      have nothing : (next.netwrite setting pep.ifn pep found).1.taken = next.taken := by
        apply @netwrite_taken setting next index pep
        · rw [entry]
          simp [resolved]
        · rw [entry]
          exact own.of_key ⟨rfl, rfl, rfl, rfl, rfl⟩
      have written := netwrite_calm rest own.type found (Nat.le_refl _) (by
        rw [nothing, List.drop_length]
        exact fun _ listed => absurd listed List.not_mem_nil)
      rw [here]
      rw [here] at written
      simpa only [List.append_assoc, List.singleton_append] using written
  · exact answer_calm (freeq_calm calm rfl).1 ifn parp

theorem arpIn_calm {ifn : Nat} {parp : Arp} (calm : Calm s frames) (ethernet : parp.Ethernet)
    (found : Bool)
    (spared : ∀ index ∈ (s.arpIn setting ifn parp found).1.taken.drop s.taken.length,
      index ∉ atWork frames) :
    Calm (s.arpIn setting ifn parp found).1
      ((s.arpIn setting ifn parp found).2 ++ frames) := by
  unfold Cache.arpIn at spared ⊢
  split
  · exact calm
  · next known =>
      rw [if_neg known] at spared
      have prtype : parp.prtype = eptIp := by
        by_contra other
        exact known (Or.inr other)
      split
      · next absent =>
          rw [absent] at spared
          dsimp only at spared
          split
          · next ours =>
              rw [if_pos ours] at spared
              exact arpalloc_calm calm ⟨ethernet, prtype⟩ (Nat.le_refl _) spared
          · exact calm
      · next index located =>
          rw [located] at spared
          dsimp only at spared ⊢
          have fresh : Calm (s.refresh index parp) frames :=
            setEntry_kept calm ⟨rfl, rfl, rfl, rfl, rfl⟩ (Or.inr (Or.inr (Or.inr rfl)))
              (calm.waiting index)
          split
          · next ours =>
              rw [if_pos ours] at spared
              split
              · next pending =>
                  rw [if_pos pending] at spared
                  set early := s.refresh index parp with earlyEq
                  have free : index ∉ atWork frames := by
                    apply spared
                    obtain ⟨more, grown⟩ := @arpqsend_grows setting (early.resolve index) index
                      (early.arptable index).pni ifn parp found
                    rw [← grown]
                    have taken : (early.resolve index).taken = s.taken ++ [index] := rfl
                    simp [taken]
                  have used := fresh.used index (by rw [pending]; decide)
                  set done : Arpentry := { early.arptable index with state := .resolved }
                    with doneEq
                  have entered : Calm ((early.take index).setEntry index done)
                      (.arpqsend index (early.arptable index).pni ifn parp :: frames) := by
                    refine setEntry_enter (take_calm fresh) rfl free ⟨rfl, rfl⟩ ?_ fun _ => used
                    intro pep listed
                    have own := fresh.waiting index pep listed
                    exact ⟨own.prlen, own.prtype, own.pni, own.pra, own.type⟩
                  exact arpqsend_calm entered found
              · exact answer_calm fresh ifn parp
          · exact fresh

theorem arptimer_calm {place : Nat} {gran : Int} (calm : Calm s frames)
    (spared : ∀ index ∈ (s.arptimer setting place gran).1.taken.drop s.taken.length,
      index ∉ atWork frames) :
    Calm (s.arptimer setting place gran).1
      ((s.arptimer setting place gran).2 ++ frames) := by
  unfold Cache.arptimer at spared ⊢
  split
  · next inside =>
      rw [dif_pos inside] at spared
      set index : Fin arpTsize := ⟨place, inside⟩
      have loose : (Frame.arptimer (place + 1) gran).place = none := rfl
      dsimp only at spared ⊢
      split
      · exact calm.push loose
      · next counts =>
          rw [if_neg counts] at spared
          have kept : ∀ pae : Arpentry, SameKey pae (s.arptable index) →
              pae.queue = (s.arptable index).queue → Calm (s.setEntry index pae) frames := by
            intro pae key same
            refine setEntry_kept calm key (Or.inr (Or.inr (Or.inr same))) ?_
            intro pep listed
            apply calm.waiting index
            simpa only [Arpentry.waiting, same] using listed
          split
          · set aged : Arpentry := { s.arptable index with
              ttl := (s.arptable index).ttl - gran } with agedEq
            exact (kept aged ⟨rfl, rfl, rfl, rfl, rfl⟩ rfl).push loose
          · next expired =>
              rw [if_neg expired] at spared
              split
              · next resolved =>
                  rw [if_pos resolved] at spared
                  have free : index ∉ atWork frames := by
                    apply spared
                    simp [Cache.setEntry, Cache.take]
                  have empty : (s.arptable index).queue = none :=
                    (calm.idle index (by rw [resolved]; decide)).resolve_right free
                  set gone : Arpentry := { s.arptable index with
                    ttl := (s.arptable index).ttl - gran
                    state := .free } with goneEq
                  have forgotten : Calm ((s.take index).setEntry index gone) frames :=
                    setEntry_apart (take_calm calm) free (fun _ => empty)
                      (waiting_none empty gone) (fun used => absurd rfl used)
                  exact forgotten.push loose
              · next unresolved =>
                  rw [if_neg unresolved] at spared
                  split
                  · next given =>
                      rw [if_pos given] at spared
                      have free : index ∉ atWork frames := by
                        apply spared
                        rw [arpdq_taken]
                        simp [Cache.setEntry, Cache.take]
                      set gone : Arpentry := { s.arptable index with
                        ttl := (s.arptable index).ttl - gran
                        state := .free
                        attempts := (s.arptable index).attempts + 1 } with goneEq
                      have entered : Calm ((s.take index).setEntry index gone)
                          (.arpdq index none :: frames) := by
                        refine setEntry_enter (take_calm calm) rfl free rfl ?_ ?_
                        · intro pep listed
                          have own := calm.waiting index pep listed
                          exact ⟨own.prlen, own.prtype, own.pni, own.pra, own.type⟩
                        · exact fun used => absurd rfl used
                      have dropped := @arpdq_calm setting _ _ _ _ entered
                      refine (dropped.push loose).perm ?_
                      rw [List.append_assoc]
                      exact List.perm_middle.symm
                  · set again : Arpentry := { s.arptable index with
                      attempts := (s.arptable index).attempts + 1
                      ttl := arpResend } with againEq
                    have asked : Calm (s.setEntry index again) frames :=
                      kept again ⟨rfl, rfl, rfl, rfl, rfl⟩ rfl
                    have asks : (Frame.arpsend index (s.arptable index).pni).place = none := rfl
                    exact (asked.push loose).push asks
  · exact calm

theorem turn_calm {frame : Frame} (calm : Calm s (frame :: frames)) (found : Bool)
    (spared : ∀ index ∈ (s.turn setting found frame).1.taken.drop s.taken.length,
      index ∉ atWork (frame :: frames)) :
    Calm (s.turn setting found frame).1 ((s.turn setting found frame).2 ++ frames) := by
  cases frame with
  | arpdq index claimant => exact arpdq_calm calm
  | arpsend index pni => exact arpsend_calm (calm.pop rfl) pni found
  | enqueue index pep =>
      obtain ⟨pending, own⟩ := calm.fine _ List.mem_cons_self index rfl
      have ended := (calm.leave rfl fun settled => absurd pending settled).1
      exact enqueue_calm ended pending own found
  | arpqsend index pni ifn parp => exact arpqsend_calm calm found
  | arptimer place gran => exact arptimer_calm (calm.pop rfl) spared

end Parts

/-! ## Runs -/

section Systems

variable {setting : Setting} {s : System}

/-- One process goes on, and the frames of the others are as they were. -/
theorem flatten_set {procs : List (List Frame)} {proc : Nat} {frame : Frame} {rest : List Frame}
    (located : procs[proc]? = some (frame :: rest)) :
    ∃ others, procs.flatten.Perm (frame :: others) ∧
      ∀ frames, (procs.set proc (frames ++ rest)).flatten.Perm (frames ++ others) := by
  induction procs generalizing proc with
  | nil => simp at located
  | cons first later ih =>
      cases proc with
      | zero =>
          have same : first = frame :: rest := by simpa using located
          refine ⟨rest ++ later.flatten, ?_, ?_⟩
          · rw [same, List.flatten_cons, List.cons_append]
          · intro frames
            rw [List.set_cons_zero, List.flatten_cons, List.append_assoc]
      | succ proc =>
          obtain ⟨others, whole, changed⟩ := ih (by simpa using located)
          refine ⟨first ++ others, ?_, ?_⟩
          · rw [List.flatten_cons]
            exact (whole.append_left first).trans List.perm_middle
          · intro frames
            rw [List.set_cons_succ, List.flatten_cons]
            refine ((changed frames).append_left first).trans ?_
            rw [← List.append_assoc, ← List.append_assoc]
            exact List.perm_append_comm.append_right others

theorem atWork_perm {frames others : List Frame} (same : frames.Perm others)
    (index : Fin arpTsize) : index ∈ atWork frames ↔ index ∈ atWork others :=
  (same.filterMap _).mem_iff

theorem spawn_calm {turn : Turn} (calm : Calm turn.1 (turn.2 ++ s.procs.flatten)) :
    Calm (s.spawn turn).cache (s.spawn turn).procs.flatten := by
  refine calm.perm ?_
  simp only [System.spawn, List.flatten_append, List.flatten_cons, List.flatten_nil,
    List.append_nil]
  exact List.perm_append_comm

theorem step_calm (event : Event) (calm : Calm s.cache s.procs.flatten)
    (undisturbed : Undisturbed setting s event) :
    Calm (step setting s event).cache (step setting s event).procs.flatten := by
  obtain ⟨wellmade, plain, spared⟩ := undisturbed
  cases event with
  | netwrite ifn nexthop type len found =>
      exact spawn_calm (@netwrite_calm setting s.cache s.procs.flatten
        ⟨s.issued, ifn, nexthop, type, len, zeros⟩ s.cache.taken.length calm plain found
        (Nat.le_refl _) spared)
  | arpIn ifn parp found =>
      set told : Cache := { s.cache with heard := s.cache.heard ++ [(ifn, parp)] } with toldEq
      have same : Calm told s.procs.flatten :=
        ⟨calm.apart, calm.fine, calm.idle, calm.waiting, calm.used, calm.log⟩
      exact spawn_calm (arpIn_calm same wellmade found spared)
  | arptimer gran => exact @spawn_calm s (s.cache, [.arptimer 0 gran]) (calm.push rfl)
  | resume proc found =>
      simp only [step] at spared ⊢
      split
      · next frame rest located =>
          rw [located] at spared
          obtain ⟨others, whole, changed⟩ := flatten_set located
          have turned := @turn_calm setting s.cache others frame (calm.perm whole) found (by
            intro index taken worked
            exact spared index taken ((atWork_perm whole index).mpr worked))
          exact turned.perm (changed _).symm
      · exact calm
  | interface ifn up =>
      exact ⟨calm.apart, calm.fine, calm.idle, calm.waiting, calm.used, calm.log⟩

theorem initial_calm : Calm ({} : System).cache ({} : System).procs.flatten := by
  refine ⟨List.nodup_nil, ?_, ?_, ?_, ?_, ?_⟩
  · exact fun _ listed => absurd listed List.not_mem_nil
  · exact fun _ _ => Or.inl rfl
  · exact fun _ _ listed => absurd listed List.not_mem_nil
  · exact fun _ used => absurd rfl used
  · exact fun _ logged => absurd logged List.not_mem_nil

end Systems

/-- Two packets wait for the answer, which comes when both are queued. -/
def awaitedAnswer : List Event :=
  [.netwrite 1 (tenNet 2) eptIp 60 true, .resume 0 true, .resume 0 true,
    .netwrite 1 (tenNet 2) eptIp 60 true, .arpIn 1 (answerOf 2) true, .resume 2 true,
    .resume 2 true]

end MvsXinu.Arp
