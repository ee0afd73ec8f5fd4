import MvsXinu.Arp.Cache

/-!
# Where hardware addresses come from

Entries are handed out again while another process stands in the middle of a call on them. The
addresses of a resolved entry come from one ARP packet all the same, and what is said about the
own addresses is true.
-/

namespace MvsXinu.Arp

set_option autoImplicit false

theorem Same.trans {count : Nat} {one other last : Memory} (first : Same count one other)
    (second : Same count other last) : Same count one last := by
  intro place inside
  exact (first place inside).trans (second place inside)

theorem Same.symm {count : Nat} {one other : Memory} (same : Same count one other) :
    Same count other one := by
  intro place inside
  exact (same place inside).symm

theorem same_memcpy (dst src : Memory) (count : Nat) : Same count src (memcpy dst src count) := by
  intro place inside
  rw [memcpy, if_pos inside]

theorem store_inside (dst src : Memory) (offset count place : Nat) (inside : place < count) :
    store dst offset src count (offset + place) = src place := by
  rw [store, if_pos ⟨Nat.le_add_right _ _, Nat.add_lt_add_left inside _⟩, Nat.add_sub_cancel_left]

theorem store_outside (dst src : Memory) (offset count place : Nat)
    (outside : place < offset ∨ offset + count ≤ place) :
    store dst offset src count place = dst place := by
  rw [store, if_neg]
  omega

theorem arpfind_spec {table : Fin arpTsize → Arpentry} {pra : Memory} {prtype : BitVec 16}
    {pni : Nat} {index : Fin arpTsize} (found : arpfind table pra prtype pni = some index) :
    (table index).state ≠ .free ∧ (table index).prtype = prtype ∧ (table index).pni = pni ∧
      Same (table index).prlen (table index).pra pra := by
  have matched := List.find?_some found
  simp only [Bool.and_eq_true, decide_eq_true_eq, beq_iff_eq] at matched
  exact ⟨matched.1.1.1, matched.1.1.2, matched.1.2, matched.2⟩

/-- An ARP packet that came in on the interface says that `pra` is at `hwa`. -/
def Heard (heard : List (Nat × Arp)) (ifn : Nat) (pra hwa : Memory) : Prop :=
  ∃ parp, (ifn, parp) ∈ heard ∧ Same ipAlen parp.spa pra ∧ Same epAlen parp.sha hwa

/-- The sender of the ARP packet is the interface. -/
def Honest (ni : Netif) (parp : Arp) : Prop :=
  parp.Ethernet ∧ Same ipAlen parp.spa ni.ip ∧ Same epAlen parp.sha ni.hwa

def Arpentry.Sized (pae : Arpentry) : Prop := pae.hwlen = epAlen ∧ pae.prlen = ipAlen

/-- What holds whenever a process may lose the processor. -/
structure Traced (setting : Setting) (s : Cache) : Prop where
  sized : ∀ index, (s.arptable index).state ≠ .free → (s.arptable index).Sized
  resolved : ∀ index, (s.arptable index).state = .resolved →
    Heard s.heard (s.arptable index).pni (s.arptable index).pra (s.arptable index).hwa
  sent : ∀ deed ∈ s.log, ∀ ifn, deed.fate = .sent ifn →
    Heard s.heard ifn deed.pep.nexthop deed.pep.dst
  said : ∀ item ∈ s.said, Honest (setting.nif item.1) item.2

/-- What a frame relies on. -/
def Backed (s : Cache) : Frame → Prop
  | .arpdq _ (some (.arpIn ifn parp)) => (ifn, parp) ∈ s.heard ∧ parp.Ethernet
  | .arpsend index _ => (s.arptable index).Sized
  | .arpqsend _ _ _ parp => parp.Ethernet
  | _ => True

/-- What no turn changes. -/
structure Grown (s after : Cache) : Prop where
  heard : after.heard = s.heard
  sized : ∀ index, (s.arptable index).Sized → (after.arptable index).Sized

structure TracedTurn (setting : Setting) (s : Cache) (turn : Turn) : Prop where
  grown : Grown s turn.1
  traced : Traced setting turn.1
  backed : ∀ frame ∈ turn.2, Backed turn.1 frame

theorem Heard.mono {heard more : List (Nat × Arp)} {ifn : Nat} {pra hwa : Memory}
    (known : Heard heard ifn pra hwa) (grown : ∀ item ∈ heard, item ∈ more) :
    Heard more ifn pra hwa := by
  obtain ⟨parp, came, addresses⟩ := known
  exact ⟨parp, grown _ came, addresses⟩

theorem Grown.refl (s : Cache) : Grown s s := ⟨rfl, fun _ sized => sized⟩

theorem Grown.trans {s mid after : Cache} (first : Grown s mid) (second : Grown mid after) :
    Grown s after :=
  ⟨second.heard.trans first.heard, fun index sized => second.sized index (first.sized index sized)⟩

theorem Backed.of_more {s after : Cache} {frame : Frame} (backed : Backed s frame)
    (more : ∀ item ∈ s.heard, item ∈ after.heard) (table : after.arptable = s.arptable) :
    Backed after frame := by
  cases frame with
  | arpdq index claimant =>
      cases claimant with
      | none => trivial
      | some claimant =>
          cases claimant with
          | netwrite ifn pep => trivial
          | arpIn ifn parp => exact ⟨more _ backed.1, backed.2⟩
  | arpsend index pni =>
      simp only [Backed] at backed ⊢
      rw [table]
      exact backed
  | enqueue index pep => trivial
  | arpqsend index pni ifn parp => exact backed
  | arptimer place gran => trivial

theorem Backed.mono {s after : Cache} {frame : Frame} (backed : Backed s frame)
    (grown : Grown s after) : Backed after frame := by
  cases frame with
  | arpdq index claimant =>
      cases claimant with
      | none => trivial
      | some claimant =>
          cases claimant with
          | netwrite ifn pep => trivial
          | arpIn ifn parp => exact ⟨by rw [grown.heard]; exact backed.1, backed.2⟩
  | arpsend index pni => exact grown.sized index backed
  | enqueue index pep => trivial
  | arpqsend index pni ifn parp => exact backed
  | arptimer place gran => trivial

section Parts

variable {setting : Setting} {s : Cache} {index : Fin arpTsize}

theorem TracedTurn.after {mid : Cache} {turn : Turn} (grown : Grown s mid)
    (later : TracedTurn setting mid turn) : TracedTurn setting s turn :=
  ⟨grown.trans later.grown, later.traced, later.backed⟩

theorem TracedTurn.done {after : Cache} (grown : Grown s after) (traced : Traced setting after) :
    TracedTurn setting s (after, []) :=
  ⟨grown, traced, fun _ listed => absurd listed List.not_mem_nil⟩

/-- A change of one entry. -/
theorem setEntry_grown {pae : Arpentry} (sized : (s.arptable index).Sized → pae.Sized) :
    Grown s (s.setEntry index pae) := by
  refine ⟨rfl, ?_⟩
  intro other before
  by_cases same : other = index
  · subst same
    simpa only [Cache.setEntry, Function.update_self] using sized before
  · simpa only [Cache.setEntry, Function.update_of_ne same] using before

theorem setEntry_traced {pae : Arpentry} (traced : Traced setting s)
    (sized : pae.state ≠ .free → pae.Sized)
    (resolved : pae.state = .resolved → Heard s.heard pae.pni pae.pra pae.hwa) :
    Traced setting (s.setEntry index pae) := by
  refine ⟨?_, ?_, traced.sent, traced.said⟩
  · intro other used
    by_cases same : other = index
    · subst same
      simp only [Cache.setEntry, Function.update_self] at used ⊢
      exact sized used
    · simp only [Cache.setEntry, Function.update_of_ne same] at used ⊢
      exact traced.sized other used
  · intro other used
    by_cases same : other = index
    · subst same
      simp only [Cache.setEntry, Function.update_self] at used ⊢
      exact resolved used
    · simp only [Cache.setEntry, Function.update_of_ne same] at used ⊢
      exact traced.resolved other used

theorem setQueue_grown (queue : Option (Gpq.Queue Packet)) : Grown s (s.setQueue index queue) :=
  setEntry_grown fun sized => sized

theorem setQueue_traced (traced : Traced setting s) (queue : Option (Gpq.Queue Packet)) :
    Traced setting (s.setQueue index queue) :=
  setEntry_traced traced (traced.sized index) (traced.resolved index)

theorem done_grown (pep : Packet) (fate : Fate) : Grown s (s.done pep fate) :=
  ⟨rfl, fun _ sized => sized⟩

theorem done_traced {pep : Packet} {fate : Fate} (traced : Traced setting s)
    (sent : ∀ ifn, fate = .sent ifn → Heard s.heard ifn pep.nexthop pep.dst) :
    Traced setting (s.done pep fate) := by
  refine ⟨traced.sized, traced.resolved, ?_, traced.said⟩
  intro deed logged
  rcases List.mem_append.mp logged with old | new
  · exact traced.sent deed old
  · rw [List.mem_singleton.mp new]
    exact sent

theorem take_traced (traced : Traced setting s) : Traced setting (s.take index) :=
  ⟨traced.sized, traced.resolved, traced.sent, traced.said⟩

theorem take_grown : Grown s (s.take index) := ⟨rfl, fun _ sized => sized⟩

theorem forget_traced (traced : Traced setting s) : Traced setting (s.forget index) := by
  refine ⟨traced.sized, traced.resolved, ?_, traced.said⟩
  intro deed logged ifn sent
  rcases List.mem_append.mp logged with old | new
  · exact traced.sent deed old ifn sent
  · obtain ⟨pep, _, rfl⟩ := List.mem_map.mp new
    cases sent

theorem forget_grown : Grown s (s.forget index) := ⟨rfl, fun _ sized => sized⟩

theorem say_traced {ifn : Nat} {parp : Arp} (traced : Traced setting s)
    (honest : Honest (setting.nif ifn) parp) : Traced setting (s.say ifn parp) := by
  refine ⟨traced.sized, traced.resolved, traced.sent, ?_⟩
  intro item listed
  rcases List.mem_append.mp listed with old | new
  · exact traced.said item old
  · rw [List.mem_singleton.mp new]
    exact honest

/-! ## ARP packets -/

theorem request_honest {pae : Arpentry} (ni : Netif) (sized : pae.Sized) :
    Honest ni (request pae ni) := by
  obtain ⟨hwlen, prlen⟩ := sized
  refine ⟨⟨hwlen, prlen⟩, ?_, ?_⟩
  · intro place inside
    simp only [Arp.spa, request, hwlen, prlen, ipAlen, epAlen] at inside ⊢
    rw [store_outside _ _ _ _ _ (by omega), store_outside _ _ _ _ _ (by omega)]
    exact store_inside _ _ _ _ _ inside
  · intro place inside
    simp only [Arp.sha, request, hwlen, prlen, ipAlen, epAlen] at inside ⊢
    rw [store_outside _ _ _ _ _ (by omega), store_outside _ _ _ _ _ (by omega),
      store_outside _ _ _ _ _ (by omega)]
    simpa only [Nat.zero_add] using store_inside zeros ni.hwa 0 6 place inside

theorem reply_honest {parp : Arp} (ni : Netif) (ethernet : parp.Ethernet) :
    Honest ni (parp.reply ni) := by
  obtain ⟨hwlen, prlen⟩ := ethernet
  refine ⟨⟨hwlen, prlen⟩, ?_, ?_⟩
  · intro place inside
    simp only [Arp.spa, Arp.reply]
    exact store_inside _ _ _ _ _ inside
  · intro place inside
    simp only [Arp.sha, Arp.reply]
    rw [store_outside _ _ _ _ _ (by rw [hwlen]; exact Or.inl inside)]
    simpa only [Nat.zero_add] using store_inside _ ni.hwa 0 epAlen place inside

theorem arpsend_traced (traced : Traced setting s) (sized : (s.arptable index).Sized)
    (pni : Nat) (found : Bool) : Traced setting (s.arpsend setting index pni found) := by
  unfold Cache.arpsend
  split
  · exact say_traced traced (request_honest _ sized)
  · exact traced

theorem arpsend_grown (pni : Nat) (found : Bool) :
    Grown s (s.arpsend setting index pni found) := by
  unfold Cache.arpsend
  split <;> exact ⟨rfl, fun _ sized => sized⟩

theorem answer_traced {parp : Arp} (traced : Traced setting s) (ifn : Nat)
    (ethernet : parp.Ethernet) : Traced setting (s.answer setting ifn parp) := by
  unfold Cache.answer
  split
  · exact say_traced traced (reply_honest _ ethernet)
  · exact traced

theorem answer_grown (ifn : Nat) (parp : Arp) : Grown s (s.answer setting ifn parp) := by
  unfold Cache.answer
  split <;> exact ⟨rfl, fun _ sized => sized⟩

/-! ## Turns -/

theorem grant_traced (traced : Traced setting s) (claimant : Claimant)
    (backed : Backed s (.arpdq index (some claimant))) :
    TracedTurn setting s (s.grant setting index claimant) := by
  cases claimant with
  | netwrite ifn pep =>
      have grown : Grown s (s.pend index ifn pep) :=
        forget_grown.trans (setEntry_grown fun _ => ⟨rfl, rfl⟩)
      refine ⟨grown, ?_, ?_⟩
      · apply setEntry_traced (forget_traced traced)
        · exact fun _ => ⟨rfl, rfl⟩
        · intro resolved
          cases resolved
      · intro frame listed
        simp only [Cache.grant, List.mem_cons, List.not_mem_nil, or_false] at listed
        rcases listed with asks | joins
        · rw [asks]
          simp only [Backed, Cache.grant, Cache.pend, Cache.setEntry, Function.update_self]
          exact ⟨rfl, rfl⟩
        · rw [joins]
          trivial
  | arpIn ifn parp =>
      obtain ⟨came, ethernet⟩ := backed
      have sized : parp.hwlen = epAlen ∧ parp.prlen = ipAlen := ethernet
      have grown : Grown s (s.arpadd index ifn parp) :=
        forget_grown.trans (setEntry_grown fun _ => sized)
      have added : Traced setting (s.arpadd index ifn parp) := by
        apply setEntry_traced (forget_traced traced)
        · exact fun _ => sized
        · intro _
          refine ⟨parp, came, ?_, ?_⟩
          · have copied := same_memcpy (s.arptable index).pra parp.spa parp.prlen
            rwa [sized.2] at copied ⊢
          · have copied := same_memcpy (s.arptable index).hwa parp.sha parp.hwlen
            rwa [sized.1] at copied ⊢
      exact .done (grown.trans (answer_grown ifn parp)) (answer_traced added ifn ethernet)

theorem discarded_not_sent (pae : Arpentry) (ifn : Nat) : pae.discarded setting ≠ .sent ifn := by
  unfold Arpentry.discarded
  split <;> simp

theorem arpdq_traced (traced : Traced setting s) (claimant : Option Claimant)
    (backed : Backed s (.arpdq index claimant)) :
    TracedTurn setting s (s.arpdq setting index claimant) := by
  unfold Cache.arpdq
  dsimp only
  split
  · next pep queue _ =>
      have grown : Grown s ((s.setQueue index (some queue)).done pep _) :=
        (setQueue_grown (some queue)).trans
          (done_grown pep ((s.arptable index).discarded setting))
      refine ⟨grown, ?_, ?_⟩
      · apply done_traced (setQueue_traced traced (some queue))
        intro ifn sent
        exact absurd sent (discarded_not_sent _ ifn)
      · intro frame listed
        rw [List.mem_singleton.mp listed]
        exact backed.mono grown
  · have grown : Grown s (s.setQueue index none) := setQueue_grown none
    have emptied : Traced setting (s.setQueue index none) := setQueue_traced traced none
    cases claimant with
    | none => exact .done grown emptied
    | some claimant => exact .after grown (grant_traced emptied claimant (backed.mono grown))

theorem arpalloc_traced (traced : Traced setting s) (claimant : Claimant)
    (backed : ∀ index, Backed s (.arpdq index (some claimant))) :
    TracedTurn setting s (s.arpalloc setting claimant) := by
  set index := arpScan s.arptable arpTsize s.aenext with indexEq
  set next : Cache := { s with aenext := index + 1 }.take index with nextEq
  have grown : Grown s next := ⟨rfl, fun _ sized => sized⟩
  have same : Traced setting next :=
    ⟨traced.sized, traced.resolved, traced.sent, traced.said⟩
  have ready : Backed next (.arpdq index (some claimant)) := (backed index).mono grown
  unfold Cache.arpalloc
  dsimp only
  rw [← indexEq, ← nextEq]
  split
  · exact .after grown (arpdq_traced same (some claimant) ready)
  · exact .after grown (grant_traced same claimant ready)

theorem enqueue_traced (traced : Traced setting s) (pep : Packet) (found : Bool) :
    Traced setting (s.enqueue index pep found) ∧ Grown s (s.enqueue index pep found) := by
  unfold Cache.enqueue
  split
  · refine ⟨done_traced traced ?_, done_grown pep .freed⟩
    intro ifn sent
    cases sent
  · next queue _ =>
      split
      · refine ⟨done_traced (setQueue_traced traced (some queue)) ?_,
          (setQueue_grown (some queue)).trans (done_grown pep .freed)⟩
        intro ifn sent
        cases sent
      · next queue _ => exact ⟨setQueue_traced traced (some queue), setQueue_grown (some queue)⟩

theorem netwrite_traced (traced : Traced setting s) (ifn : Nat) (pep : Packet) (found : Bool) :
    TracedTurn setting s (s.netwrite setting ifn pep found) := by
  have unsent : ∀ (pep : Packet) (fate : Fate), (∀ ifn, fate ≠ .sent ifn) →
      TracedTurn setting s (s.done pep fate, []) := by
    intro pep fate other
    refine .done (done_grown pep fate) (done_traced traced ?_)
    intro ifn sent
    exact absurd sent (other ifn)
  unfold Cache.netwrite
  split
  · exact unsent _ _ (by simp)
  · split
    · exact unsent _ _ (by simp)
    · split
      · exact unsent _ _ (by simp)
      · split
        · next index located =>
            obtain ⟨used, _, pni, matched⟩ := arpfind_spec located
            dsimp only
            split
            · next resolved =>
                refine .done (done_grown _ _) (done_traced traced ?_)
                intro other sent
                have here : ifn = other := Fate.sent.inj sent
                obtain ⟨hwlen, prlen⟩ := traced.sized index used
                obtain ⟨parp, came, spa, sha⟩ := traced.resolved index resolved
                rw [pni, here] at came
                rw [prlen] at matched
                refine ⟨parp, came, spa.trans matched, sha.trans ?_⟩
                rw [hwlen]
                exact same_memcpy _ _ _
            · split
              · exact unsent _ _ (by simp)
              · have joined := @enqueue_traced _ _ index traced pep found
                exact .done joined.2 joined.1
        · split
          · exact unsent _ _ (by simp)
          · exact arpalloc_traced traced _ fun _ => trivial

theorem arpqsend_traced (traced : Traced setting s) (pni ifn : Nat) {parp : Arp} (found : Bool)
    (ethernet : parp.Ethernet) :
    TracedTurn setting s (s.arpqsend setting index pni ifn parp found) := by
  unfold Cache.arpqsend
  split
  · next pep queue _ =>
      have shortened : Traced setting (s.setQueue index (some queue)) :=
        setQueue_traced traced (some queue)
      have written := netwrite_traced shortened pni pep found
      refine ⟨(setQueue_grown (some queue)).trans written.grown, written.traced, ?_⟩
      intro frame listed
      rcases List.mem_append.mp listed with inner | outer
      · exact written.backed frame inner
      · rw [List.mem_singleton.mp outer]
        exact ethernet
  · have grown : Grown s (s.setQueue index none) := setQueue_grown none
    exact .done (grown.trans (answer_grown ifn parp))
      (answer_traced (setQueue_traced traced none) ifn ethernet)

theorem heard_traced (traced : Traced setting s) (item : Nat × Arp) :
    Traced setting { s with heard := s.heard ++ [item] } := by
  have more : ∀ other ∈ s.heard, other ∈ s.heard ++ [item] :=
    fun other came => List.mem_append_left _ came
  refine ⟨traced.sized, ?_, ?_, traced.said⟩
  · intro index resolved
    exact (traced.resolved index resolved).mono more
  · intro deed logged ifn sent
    exact (traced.sent deed logged ifn sent).mono more

/-- The sender's entry, refreshed, is resolved from this ARP packet. -/
theorem refresh_traced {ifn : Nat} {parp : Arp} (traced : Traced setting s)
    (came : (ifn, parp) ∈ s.heard)
    (located : arpfind s.arptable parp.spa parp.prtype ifn = some index) :
    Traced setting (s.refresh index parp) ∧
      Heard s.heard ((s.refresh index parp).arptable index).pni
        ((s.refresh index parp).arptable index).pra
        ((s.refresh index parp).arptable index).hwa := by
  obtain ⟨used, _, pni, matched⟩ := arpfind_spec located
  obtain ⟨hwlen, prlen⟩ := traced.sized index used
  have known : Heard s.heard (s.arptable index).pni (s.arptable index).pra
      (memcpy (s.arptable index).hwa parp.sha (s.arptable index).hwlen) := by
    rw [prlen] at matched
    refine ⟨parp, ?_, matched.symm, ?_⟩
    · rw [pni]
      exact came
    · rw [hwlen]
      exact same_memcpy _ _ _
  constructor
  · exact setEntry_traced traced (fun _ => ⟨hwlen, prlen⟩) (fun _ => known)
  · simpa only [Cache.refresh, Cache.setEntry, Function.update_self] using known

theorem arpIn_traced (traced : Traced setting s) {ifn : Nat} {parp : Arp} (found : Bool)
    (came : (ifn, parp) ∈ s.heard) (ethernet : parp.Ethernet) :
    TracedTurn setting s (s.arpIn setting ifn parp found) := by
  unfold Cache.arpIn
  dsimp only
  split
  · exact .done (.refl s) traced
  · split
    · split
      · exact arpalloc_traced traced _ fun _ => ⟨came, ethernet⟩
      · exact .done (.refl s) traced
    · next index located =>
        obtain ⟨refreshed, known⟩ := refresh_traced traced came located
        have sized : Grown s (s.refresh index parp) := setEntry_grown fun before => before
        split
        · split
          · next pending =>
              set fresh := s.refresh index parp with freshEq
              have used : (fresh.arptable index).state ≠ .free := by
                rw [pending]
                decide
              have resolved : Traced setting (fresh.resolve index) :=
                setEntry_traced (take_traced refreshed) (fun _ => refreshed.sized index used)
                  (fun _ => known)
              have larger : Grown fresh (fresh.resolve index) :=
                take_grown.trans (setEntry_grown fun before => before)
              exact .after (sized.trans larger)
                (arpqsend_traced resolved _ ifn found ethernet)
          · exact .done (sized.trans (answer_grown ifn parp))
              (answer_traced refreshed ifn ethernet)
        · exact .done sized refreshed

theorem arptimer_traced (traced : Traced setting s) (place : Nat) (gran : Int) :
    TracedTurn setting s (s.arptimer setting place gran) := by
  have rest : ∀ after : Cache, ∀ frame ∈ [Frame.arptimer (place + 1) gran],
      Backed after frame := by
    intro after frame listed
    rw [List.mem_singleton.mp listed]
    trivial
  unfold Cache.arptimer
  split
  · next inside =>
      set index : Fin arpTsize := ⟨place, inside⟩
      dsimp only
      split
      · exact ⟨.refl s, traced, rest s⟩
      · next used =>
          have sized := traced.sized index fun free => used (Or.inl free)
          have free : ∀ pae : Arpentry, pae.Sized → pae.state = .free →
              Traced setting ((s.take index).setEntry index pae) := by
            intro pae fits state
            refine setEntry_traced (take_traced traced) (fun _ => fits) ?_
            intro resolved
            rw [state] at resolved
            cases resolved
          split
          · exact ⟨setEntry_grown fun before => before,
              setEntry_traced traced (fun _ => sized) (traced.resolved index), rest _⟩
          · split
            · exact ⟨take_grown.trans (setEntry_grown fun before => before),
                free _ sized rfl, rest _⟩
            · next unresolved =>
                split
                · set gone : Arpentry := { s.arptable index with
                    ttl := (s.arptable index).ttl - gran
                    state := .free
                    attempts := (s.arptable index).attempts + 1 } with goneEq
                  set given := (s.take index).setEntry index gone with givenEq
                  have grown : Grown s given :=
                    take_grown.trans (setEntry_grown fun before => before)
                  have dropped : TracedTurn setting given (given.arpdq setting index none) :=
                    arpdq_traced (free gone sized rfl) none trivial
                  refine ⟨grown.trans dropped.grown, dropped.traced, ?_⟩
                  intro frame listed
                  rcases List.mem_append.mp listed with inner | outer
                  · exact dropped.backed frame inner
                  · exact rest _ frame outer
                · refine ⟨setEntry_grown fun before => before,
                    setEntry_traced traced (fun _ => sized) ?_, ?_⟩
                  · intro resolved
                    exact absurd resolved unresolved
                  · intro frame listed
                    rcases List.mem_cons.mp listed with asks | outer
                    · rw [asks]
                      simp only [Backed, Cache.setEntry, Function.update_self]
                      exact sized
                    · exact rest _ frame outer
  · exact .done (.refl s) traced

theorem turn_traced (traced : Traced setting s) (found : Bool) {frame : Frame}
    (backed : Backed s frame) : TracedTurn setting s (s.turn setting found frame) := by
  cases frame with
  | arpdq index claimant => exact arpdq_traced traced claimant backed
  | arpsend index pni =>
      exact .done (arpsend_grown pni found) (arpsend_traced traced backed pni found)
  | enqueue index pep =>
      have joined := @enqueue_traced _ _ index traced pep found
      exact .done joined.2 joined.1
  | arpqsend index pni ifn parp => exact arpqsend_traced traced pni ifn found backed
  | arptimer place gran => exact arptimer_traced traced place gran

end Parts

/-! ## Runs -/

/-- ARP packets have the addresses of Ethernet and IP. -/
def Wellmade (_ : System) : Event → Prop
  | .arpIn _ parp _ => parp.Ethernet
  | _ => True

instance (s : System) : ∀ event, Decidable (Wellmade s event)
  | .arpIn _ parp _ => inferInstanceAs (Decidable parp.Ethernet)
  | .netwrite .. | .arptimer _ | .resume .. | .interface .. => .isTrue trivial

structure TracedSystem (setting : Setting) (s : System) : Prop where
  traced : Traced setting s.cache
  backed : ∀ proc ∈ s.procs, ∀ frame ∈ proc, Backed s.cache frame

section Systems

variable {setting : Setting} {s : System}

theorem spawn_traced {turn : Turn} {start : Cache} (kept : TracedTurn setting start turn)
    (inv : TracedSystem setting s) (more : ∀ item ∈ s.cache.heard, item ∈ start.heard)
    (table : start.arptable = s.cache.arptable) : TracedSystem setting (s.spawn turn) := by
  refine ⟨kept.traced, ?_⟩
  intro proc listed frame member
  rcases List.mem_append.mp listed with old | new
  · exact ((inv.backed proc old frame member).of_more more table).mono kept.grown
  · rw [List.mem_singleton.mp new] at member
    exact kept.backed frame member

theorem step_traced (event : Event) (inv : TracedSystem setting s)
    (wellmade : Wellmade s event) : TracedSystem setting (step setting s event) := by
  cases event with
  | netwrite ifn nexthop type len found =>
      have same : TracedSystem setting { s with issued := s.issued + 1 } :=
        ⟨inv.traced, inv.backed⟩
      exact spawn_traced (netwrite_traced inv.traced ifn _ found) same (fun _ came => came) rfl
  | arpIn ifn parp found =>
      have more := heard_traced inv.traced (ifn, parp)
      exact spawn_traced (arpIn_traced more found (by simp) wellmade) inv
        (fun _ came => List.mem_append_left _ came) rfl
  | arptimer gran =>
      refine spawn_traced ⟨.refl _, inv.traced, ?_⟩ inv (fun _ came => came) rfl
      intro frame listed
      rw [List.mem_singleton.mp listed]
      trivial
  | resume proc found =>
      simp only [step]
      split
      · next frame rest located =>
          have member : frame :: rest ∈ s.procs := List.mem_of_getElem? located
          have kept := turn_traced inv.traced found
            (inv.backed _ member frame List.mem_cons_self)
          refine ⟨kept.traced, ?_⟩
          intro other listed place inside
          rcases List.mem_or_eq_of_mem_set listed with old | new
          · exact (inv.backed other old place inside).mono kept.grown
          · rw [new] at inside
            rcases List.mem_append.mp inside with inner | outer
            · exact kept.backed place inner
            · exact (inv.backed _ member place (List.mem_cons_of_mem _ outer)).mono kept.grown
      · exact inv
  | interface ifn up =>
      refine ⟨⟨inv.traced.sized, inv.traced.resolved, inv.traced.sent, inv.traced.said⟩, ?_⟩
      intro proc listed frame member
      exact (inv.backed proc listed frame member).of_more (fun _ came => came) rfl

def Event.came : Event → List (Nat × Arp)
  | .arpIn ifn parp _ => [(ifn, parp)]
  | _ => []

theorem step_heard (event : Event) (inv : TracedSystem setting s) (wellmade : Wellmade s event) :
    (step setting s event).cache.heard = s.cache.heard ++ event.came := by
  cases event with
  | netwrite ifn nexthop type len found =>
      exact (netwrite_traced inv.traced ifn _ found).grown.heard.trans (List.append_nil _).symm
  | arpIn ifn parp found =>
      have more := heard_traced inv.traced (ifn, parp)
      exact (arpIn_traced more found (by simp) wellmade).grown.heard
  | arptimer gran => exact (List.append_nil _).symm
  | resume proc found =>
      simp only [step, Event.came, List.append_nil]
      split
      · next frame rest located =>
          have member : frame :: rest ∈ s.procs := List.mem_of_getElem? located
          exact (turn_traced inv.traced found
            (inv.backed _ member frame List.mem_cons_self)).grown.heard
      · rfl
  | interface ifn up => exact (List.append_nil _).symm

theorem initial_traced : TracedSystem setting {} := by
  refine ⟨⟨?_, ?_, ?_, ?_⟩, ?_⟩ <;> simp

theorem reached_traced (reached : Runs.Reach (step setting) Wellmade {} s) :
    TracedSystem setting s :=
  reached.invariant initial_traced fun _ event inv wellmade => step_traced event inv wellmade

end Systems

/-- However the calls are interleaved, a packet goes out with a hardware address that an ARP
packet on that interface gave for its next hop. -/
theorem sent_as_heard (setting : Setting) (s : System)
    (reached : Runs.Reach (step setting) Wellmade {} s) :
    ∀ deed ∈ s.cache.log, ∀ ifn, deed.fate = .sent ifn →
      Heard s.cache.heard ifn deed.pep.nexthop deed.pep.dst :=
  (reached_traced reached).traced.sent

/-- 10.0.0.`last`. -/
def tenNet (last : Octets.Octet) : Memory :=
  fun place => if place = 0 then 10 else if place = 3 then last else 0

def stationNif (last : Octets.Octet) : Netif where
  hwa := fun _ => last
  hwb := fun _ => 255
  ip := tenNet last
  net := tenNet 0
  subnet := tenNet 0
  brc := tenNet 255
  nbrc := tenNet 255

def station (last : Octets.Octet) : Setting where
  nif := fun _ => stationNif last
  count := 2
  gateway := false

/-- The answer of 10.0.0.`last` to 10.0.0.1. -/
def answerOf (last : Octets.Octet) : Arp where
  op := arReply
  addrs := store (store (store (fun _ => 1) 0 (fun _ => last) 6) 6 (tenNet last) 4) 16 (tenNet 1) 4

/-- The answer comes while the request is being written: the packet is queued behind it, and waits
for good. The next packet is sent at once. -/
def overtakenAnswer : List Event :=
  [.netwrite 1 (tenNet 2) eptIp 60 true, .resume 0 true, .arpIn 1 (answerOf 2) true,
    .resume 0 true, .netwrite 1 (tenNet 2) eptIp 60 true]

theorem overtaken_answer_sent :
    let s := overtakenAnswer.foldl (step (station 1)) {}
    (s.cache.log.map fun deed => (deed.pep.buf, deed.fate)) = [(1, .sent 1)] ∧
      ∀ deed ∈ s.cache.log, ∀ ifn, deed.fate = .sent ifn →
        Heard s.cache.heard ifn deed.pep.nexthop deed.pep.dst := by
  have reached : Runs.Reach (step (station 1)) Wellmade {}
      (overtakenAnswer.foldl (step (station 1)) {}) :=
    Runs.reach_of_permitted overtakenAnswer Runs.Reach.start (by decide)
  exact ⟨by decide, sent_as_heard (station 1) _ reached⟩

end MvsXinu.Arp
