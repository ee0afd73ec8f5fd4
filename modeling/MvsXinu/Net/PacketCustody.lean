import MvsXinu.Net.PacketPaths

/-!
# Every packet buffer has one owner

`Custody s held` is the law while a function runs: each buffer that was issued is in one of
the stocks or among those that the function holds. Every function either keeps the law or
drops a buffer, and which of the two it does can be told before the call.
-/

namespace MvsXinu.Net

open MvsXinu.Octets MvsXinu.Ip MvsXinu.Stocks MvsXinu.Runs

set_option autoImplicit false

structure Custody (s : Stack) (held : List Buf) : Prop where
  settled : Settled s.next (held ++ s.owned)
  arpSize : s.arptable.length = arpTsize
  aenext : s.aenext < arpTsize

theorem owned_count (s : Stack) (pep : Buf) :
    s.owned.count pep = s.freed.count pep + s.hands.count pep + s.mail.count pep +
      (s.tasks.flatMap fun task => [task.pep]).count pep +
      (s.arptable.flatMap Arpentry.held).count pep + (s.ipfqt.flatMap Fragq.held).count pep +
      (s.ports.flatMap Port.msgs).count pep := by
  simp only [Stack.owned, List.count_append]

section Moves

variable {s later : Stack} {held rest : List Buf} {pep : Buf}

/-- The same buffers are held in another way. -/
theorem Custody.moved (custody : Custody s held) (next : later.next = s.next)
    (arpSize : later.arptable.length = s.arptable.length)
    (aenext : later.aenext = s.aenext)
    (counted : ∀ pep, rest.count pep + later.owned.count pep =
      held.count pep + s.owned.count pep) : Custody later rest := by
  refine ⟨?_, arpSize.trans custody.arpSize, aenext ▸ custody.aenext⟩
  rw [next]
  apply custody.settled.of_count
  intro pep
  rw [List.count_append, List.count_append]
  exact counted pep

theorem Custody.swap {others : List Buf} (custody : Custody s held)
    (counted : ∀ pep, others.count pep = held.count pep) : Custody s others :=
  custody.moved rfl rfl rfl (fun pep => by rw [counted pep])

theorem Custody.freeAll {peps : List Buf} (custody : Custody s (peps ++ held)) :
    Custody (s.freeAll peps) held := by
  refine custody.moved rfl rfl rfl ?_
  intro pep
  simp only [owned_count, Stack.freeAll, List.count_append]
  omega

theorem Custody.freebuf (custody : Custody s (pep :: held)) : Custody (s.freebuf pep) held := by
  refine custody.moved rfl rfl rfl ?_
  intro other
  simp only [owned_count, Stack.freebuf, List.count_cons]
  omega

theorem Custody.setEp (custody : Custody s held) (pip : Packet) :
    Custody (s.setEp pep pip) held :=
  custody.moved rfl rfl rfl (fun _ => rfl)

theorem Custody.addressed (custody : Custody s held) (pip : Packet) (nh : IPaddr) :
    Custody (s.addressed pep pip nh) held :=
  custody.moved rfl rfl rfl (fun _ => rfl)

theorem Custody.getbuf (custody : Custody s held) : Custody s.getbuf.2 (s.next :: held) := by
  refine ⟨?_, custody.arpSize, custody.aenext⟩
  exact custody.settled.issue

theorem Custody.mail (custody : Custody s (pep :: held)) :
    Custody { s with mail := pep :: s.mail } held := by
  refine custody.moved rfl rfl rfl ?_
  intro other
  simp only [owned_count, List.count_cons]
  omega

theorem Custody.addTask (custody : Custody s (pep :: held)) {task : Task} (its : task.pep = pep) :
    Custody { s with tasks := s.tasks ++ [task] } held := by
  refine custody.moved rfl rfl rfl ?_
  intro other
  simp only [owned_count, List.flatMap_append, List.flatMap_cons, List.flatMap_nil,
    List.append_nil, List.count_append, List.count_cons, List.count_nil, its]
  omega

theorem Custody.takeTask (custody : Custody s held) {index : Nat} {task : Task}
    (found : s.tasks[index]? = some task) :
    Custody { s with tasks := s.tasks.eraseIdx index } (task.pep :: held) := by
  refine custody.moved rfl rfl rfl ?_
  intro other
  have erased := count_flatMap_eraseIdx (fun task : Task => [task.pep]) found other
  simp only [owned_count, List.count_cons, List.count_nil] at erased ⊢
  omega

theorem Custody.taken (custody : Custody s held) (present : pep ∈ s.hands) :
    Custody (s.taken pep) (pep :: held) := by
  refine custody.moved rfl rfl rfl ?_
  intro other
  have some := List.count_pos_iff.mpr present
  simp only [owned_count, Stack.taken, List.count_cons, List.count_erase]
  by_cases same : pep = other
  · subst same
    simp only [beq_self_eq_true, if_true]
    omega
  · simp only [beq_iff_eq, same, if_false]
    omega

theorem Custody.setPort (custody : Custody s held) {portid : Nat} {old port : Port}
    (found : s.ports[portid]? = some old)
    (counted : ∀ pep, rest.count pep + port.msgs.count pep =
      held.count pep + old.msgs.count pep) : Custody (s.setPort portid port) rest := by
  refine custody.moved rfl rfl rfl ?_
  intro other
  have set := count_flatMap_set port Port.msgs found other
  have balance := counted other
  simp only [owned_count, Stack.setPort] at set ⊢
  omega

theorem Custody.setFragq (custody : Custody s held) {index : Nat} {old iq : Fragq}
    (found : s.ipfqt[index]? = some old)
    (counted : ∀ pep, rest.count pep + iq.held.count pep =
      held.count pep + old.held.count pep) : Custody (s.setFragq index iq) rest := by
  refine custody.moved rfl rfl rfl ?_
  intro other
  have set := count_flatMap_set iq Fragq.held found other
  have balance := counted other
  simp only [owned_count, Stack.setFragq] at set ⊢
  omega

theorem Custody.setArp (custody : Custody s held) {index : Nat} {old pae : Arpentry}
    (found : s.arptable[index]? = some old)
    (counted : ∀ pep, rest.count pep + pae.held.count pep =
      held.count pep + old.held.count pep) : Custody (s.setArp index pae) rest := by
  refine custody.moved rfl ?_ rfl ?_
  · simp [Stack.setArp]
  · intro other
    have set := count_flatMap_set pae Arpentry.held found other
    have balance := counted other
    simp only [owned_count, Stack.setArp] at set ⊢
    omega

end Moves


/-! ## What is told before a call -/

/-- No message leaves the host. -/
def IcmpFrees (s : Stack) (type : Nat) (pa1 : Buf) : Prop :=
  type = ictTimerp ∨ isErrorType type = true ∧ icerrok s.setting.nif (s.ep pa1) = false

/-- The packets of a queue that is destroyed are freed. -/
def DiscardFrees (s : Stack) (peps : List Buf) : Prop :=
  s.setting.gateway = true → ∀ pep ∈ peps, icerrok s.setting.nif (s.ep pep) = false

/-- The entry that `arpalloc` would give out can be given up. -/
def EvictionFrees (s : Stack) : Prop :=
  ∀ pae ∈ s.arptable[arpScan s.arptable arpTsize s.aenext]?, DiscardFrees s pae.held

/-- The datagram has a bad checksum, or its port is there to take it, or it has no port and
may have no message. -/
def UdpInKeeps (s : Stack) (pep : Buf) : Prop :=
  (halfword (s.ep pep) 26 ≠ 0 ∧ udpcksum (s.ep pep) (udpLen (s.ep pep)) ≠ 0) ∨
    (∀ pup ∈ s.udpPort pep, (s.port pup.upXport).isSome = true) ∧
      (s.udpPort pep = none → IcmpFrees s ictDestur pep)

def IcmpInKeeps (s : Stack) (pep : Buf) : Prop :=
  icType (s.ep pep) ≠ ictEchorq ∧ (icType (s.ep pep) = ictMaskrq → s.setting.gateway = false)

def DeliverKeeps (s : Stack) (pep : Buf) : Prop :=
  let proto := ipProto (s.ep pep)
  if proto = iptIcmp then IcmpInKeeps s pep
  else if proto = iptIgmp then True
  else if proto = iptTcp then (s.port s.setting.tcpsIport).isSome = true
  else if proto = iptUdp then UdpInKeeps s pep
  else IcmpFrees s ictDestur pep

/-- What the packet is, or completes, is kept by the handler of its protocol. -/
def LocalOutKeeps (s : Stack) (pep : Buf) : Prop :=
  ∀ done ∈ (s.ipreass pep).1,
    DeliverKeeps ((s.ipreass pep).2.setEp done (ipdstopts ((s.ipreass pep).2.ep done))) done

/-- The interface is not up, or it is the local one and the packet is kept there, or the packet
waits for an address that is not resolved yet. -/
def NetwriteKeeps (s : Stack) (ifn : Nat) (pni : Netif) (pep : Buf) : Prop :=
  pni.niState ≠ NiState.up ∨
    if ifn = niLocal then LocalOutKeeps s pep
    else
      isbrc s.setting.nif (s.nexthop pep) = false ∧ classD (s.nexthop pep) = false ∧
        (∀ found ∈ s.arpfind (s.nexthop pep) ifn, found.2.aeState ≠ AeState.resolved) ∧
          (s.arpfind (s.nexthop pep) ifn = none → EvictionFrees s)

/-! ## `icmp` and the queues that are destroyed -/

section Icmp

variable {s : Stack} {held : List Buf} {pep : Buf} {type : Nat}

theorem Custody.icmpSend (custody : Custody s (pep :: held)) (isError : isErrorType type = true)
    (refused : icerrok s.setting.nif (s.ep pep) = false) (dst : IPaddr) (datalen : Nat) :
    Custody (s.icmpSend type pep dst datalen) held := by
  unfold Stack.icmpSend
  rw [isError, refused]
  exact custody.freebuf

/-- `icmp` with a buffer that it takes over. -/
theorem Custody.icmp (custody : Custody s (pep :: held)) (takes : takesBuffer type = true)
    (frees : IcmpFrees s type pep) (dst : IPaddr) (datalen : Nat) :
    Custody (s.icmp type dst pep datalen) held := by
  have other : type ≠ ictRedirect := by
    rintro rfl
    exact absurd takes (by decide)
  unfold Stack.icmp
  rw [if_neg other]
  rcases frees with isTimerp | ⟨isError, refused⟩
  · subst isTimerp
    exact custody.freebuf
  · rw [if_pos (by rw [isError, Bool.true_or])]
    exact custody.icmpSend isError refused dst datalen

/-- `icmp` with a buffer of its own. -/
theorem Custody.icmp_own (custody : Custody s held) (own : takesBuffer type = false)
    (frees : IcmpFrees s type pep) (dst : IPaddr) (datalen : Nat) :
    Custody (s.icmp type dst pep datalen) held := by
  rcases frees with isTimerp | ⟨isError, refused⟩
  · rw [isTimerp] at own
    exact absurd own (by decide)
  · have isRedirect : type = ictRedirect := by
      unfold isErrorType at isError
      unfold takesBuffer isRequestType at own
      simp only [Bool.or_eq_true, beq_iff_eq] at isError
      rcases isError with (((rfl | rfl) | rfl) | rfl) | rfl
      · exact absurd own (by decide)
      · rfl
      · exact absurd own (by decide)
      · exact absurd own (by decide)
      · exact absurd own (by decide)
    unfold Stack.icmp
    rw [if_pos isRedirect]
    apply (custody.getbuf.setEp (s.ep pep)).icmpSend isError
    simpa [Stack.setEp, Stack.getbuf] using refused

theorem Custody.icmpError (custody : Custody s (pep :: held)) (isError : isErrorType type = true)
    (takes : takesBuffer type = true) (refused : icerrok s.setting.nif (s.ep pep) = false) :
    Custody (s.icmpError type pep) held :=
  custody.icmp takes (Or.inr ⟨isError, refused⟩) _ _

theorem discard_eq (frees : DiscardFrees s [pep]) : s.discard pep = s.freebuf pep := by
  unfold Stack.discard
  split
  · next isGateway =>
      have refused := frees isGateway pep List.mem_cons_self
      unfold Stack.icmpError Stack.icmp Stack.icmpSend
      rw [if_neg (by decide), if_pos (by decide), refused]
      rfl
  · rfl

theorem discards_eq (peps : List Buf) (frees : DiscardFrees s peps) :
    peps.foldl Stack.discard s = s.freeAll peps.reverse := by
  induction peps generalizing s with
  | nil => rfl
  | cons first rest ih =>
      have one : DiscardFrees s [first] := by
        intro isGateway pep member
        rw [List.mem_singleton.mp member]
        exact frees isGateway first List.mem_cons_self
      have others : DiscardFrees (s.freebuf first) rest := by
        intro isGateway pep member
        exact frees isGateway pep (List.mem_cons_of_mem first member)
      rw [List.foldl_cons, discard_eq one, ih others, List.reverse_cons]
      simp [Stack.freeAll, Stack.freebuf]

theorem Custody.discards {peps : List Buf} (custody : Custody s (peps ++ held))
    (frees : DiscardFrees s peps) : Custody (peps.foldl Stack.discard s) held := by
  rw [discards_eq peps frees]
  apply Custody.freeAll
  apply custody.swap
  intro pep
  simp [List.count_append, List.count_reverse]

end Icmp

/-! ## Ports and the input handlers -/

section Input

variable {s : Stack} {held : List Buf} {pep : Buf}

theorem port_found {portid : Int} {port : Port} (found : s.port portid = some port) :
    s.ports[portid.toNat]? = some port ∧ port.alloc = true := by
  unfold Stack.port at found
  split at found
  · obtain ⟨isPort, alloc⟩ := Option.filter_eq_some_iff.mp found
    exact ⟨isPort, alloc⟩
  · cases found

theorem Custody.accept (custody : Custody s (pep :: held)) {portid : Nat} {old port : Port}
    (found : s.ports[portid]? = some old) (msgs : port.msgs = old.msgs) :
    Custody (s.setPort portid (port.accept pep)) held := by
  apply custody.setPort found
  intro other
  simp only [Port.accept, msgs, List.count_append, List.count_cons, List.count_nil]
  omega

theorem Custody.psend (custody : Custody s (pep :: held)) {portid : Int}
    (there : (s.port portid).isSome = true) : Custody (s.psend portid pep) held := by
  obtain ⟨port, found⟩ := Option.isSome_iff_exists.mp there
  have place := (port_found found).1
  unfold Stack.psend
  rw [found]
  dsimp only
  split
  · have waited : Custody (s.setPort portid.toNat { port with scount := port.scount - 1 })
        (pep :: held) := custody.setPort place fun _ => rfl
    exact waited.addTask rfl
  · exact custody.accept place rfl

theorem Custody.tcpIn (custody : Custody s (pep :: held))
    (there : (s.port s.setting.tcpsIport).isSome = true) : Custody (s.tcpIn pep).2 held := by
  unfold Stack.tcpIn
  split
  · exact custody.freebuf
  · exact custody.psend there

theorem Custody.udpIn (custody : Custody s (pep :: held)) (keeps : UdpInKeeps s pep) :
    Custody (s.udpIn pep).2 held := by
  unfold Stack.udpIn
  unfold UdpInKeeps at keeps
  dsimp only
  split
  · exact custody.freebuf
  · next good =>
      have served := keeps.resolve_left good
      split
      · next pup isPup =>
          split
          · exact custody.freebuf
          · exact custody.psend (served.1 pup isPup)
      · next isNone =>
          exact custody.icmp (by decide) (served.2 isNone) _ _

theorem Custody.icmpIn (custody : Custody s (pep :: held)) (keeps : IcmpInKeeps s pep) :
    Custody (s.icmpIn pep).2 held := by
  unfold Stack.icmpIn
  dsimp only
  rw [if_neg keeps.1]
  split
  · next isMask =>
      rw [if_neg (by rw [keeps.2 isMask]; decide)]
      exact custody.freebuf
  · split
    · split
      · exact custody.mail
      · exact custody.freebuf
    · exact custody.freebuf

theorem Custody.deliver (custody : Custody s (pep :: held)) (keeps : DeliverKeeps s pep) :
    Custody (s.deliver pep).2 held := by
  unfold Stack.deliver
  unfold DeliverKeeps at keeps
  dsimp only at keeps ⊢
  split
  · next isIcmp =>
      rw [if_pos isIcmp] at keeps
      exact custody.icmpIn keeps
  · next notIcmp =>
      rw [if_neg notIcmp] at keeps
      split
      · exact custody.freebuf
      · next notIgmp =>
          rw [if_neg notIgmp] at keeps
          split
          · next isTcp =>
              rw [if_pos isTcp] at keeps
              exact custody.tcpIn keeps
          · next notTcp =>
              rw [if_neg notTcp] at keeps
              split
              · next isUdp =>
                  rw [if_pos isUdp] at keeps
                  exact custody.udpIn keeps
              · next notUdp =>
                  rw [if_neg notUdp] at keeps
                  exact custody.icmp (by decide) keeps _ _

end Input

/-! ## Reassembly and `local_out` -/

theorem locate_found {Entry : Type} {table : List Entry} {fits : Entry → Bool} {index : Nat}
    {entry : Entry} (found : locate table fits = some (index, entry)) :
    table[index]? = some entry := by
  unfold locate at found
  obtain ⟨place, _, mapped⟩ := Option.bind_eq_some_iff.mp found
  obtain ⟨other, isOther, pair⟩ := Option.map_eq_some_iff.mp mapped
  obtain ⟨rfl, rfl⟩ := Prod.mk.inj pair
  exact isOther

theorem locate_fits {Entry : Type} {table : List Entry} {fits : Entry → Bool} {index : Nat}
    {entry : Entry} (found : locate table fits = some (index, entry)) : fits entry = true := by
  have isEntry := locate_found found
  unfold locate at found
  obtain ⟨place, isPlace, mapped⟩ := Option.bind_eq_some_iff.mp found
  obtain ⟨other, isOther, pair⟩ := Option.map_eq_some_iff.mp mapped
  obtain ⟨rfl, rfl⟩ := Prod.mk.inj pair
  obtain ⟨bound, fitsThere, _⟩ := List.findIdx?_eq_some_iff_getElem.mp isPlace
  obtain ⟨_, same⟩ := List.getElem?_eq_some_iff.mp isOther
  rw [← same]
  exact fitsThere

section Local

variable {s : Stack} {held : List Buf} {pep : Buf} {index : Nat} {old iq : Fragq}

theorem Fragq.release_held (iq : Fragq) (state : IpfState) : (iq.release state).held = [] := rfl

/-- The packets of the entry are freed and its queue is given back. -/
theorem Custody.releaseFragq (custody : Custody s held) (found : s.ipfqt[index]? = some old)
    (same : iq.held = old.held) (state : IpfState) :
    Custody ((s.freeAll iq.held).setFragq index (iq.release state)) held := by
  have emptied : Custody (s.setFragq index (iq.release state)) (iq.held ++ held) := by
    apply custody.setFragq found
    intro other
    rw [Fragq.release_held, List.count_append, same, List.count_nil]
    omega
  exact emptied.freeAll

theorem Custody.ipfadd (custody : Custody s (pep :: held)) (found : s.ipfqt[index]? = some old)
    (same : iq.held = old.held) :
    Custody (s.ipfadd index iq pep).2 held ∧
      ∀ added ∈ (s.ipfadd index iq pep).1,
        (s.ipfadd index iq pep).2.ipfqt[index]? = some added := by
  unfold Stack.ipfadd
  split
  · exact ⟨custody.freebuf, by simp⟩
  · split
    · refine ⟨?_, by simp⟩
      have freed := custody.freebuf
      exact freed.releaseFragq found same IpfState.bogus
    · next queue accepted =>
        have perm := Gpq.enq_perm accepted
        constructor
        · apply custody.setFragq found
          intro other
          have counted := perm.count_eq other
          rw [List.count_cons] at counted
          rw [← same]
          unfold Fragq.held Fragq.withQueue
          rw [List.count_cons]
          dsimp only
          omega
        · intro added isAdded
          have isNew : iq.withQueue queue = added := Option.some.inj isAdded
          obtain ⟨bound, _⟩ := List.getElem?_eq_some_iff.mp found
          rw [← isNew]
          simp [Stack.setFragq, bound]

theorem Custody.ipfjoin (custody : Custody s held) (found : s.ipfqt[index]? = some iq) :
    Custody (s.ipfjoin index iq).2 ((s.ipfjoin index iq).1.toList ++ held) := by
  unfold Stack.ipfjoin
  split
  · exact custody
  · exact custody.releaseFragq found rfl IpfState.free
  · have got : Custody (s.getbuf.2.setEp s.next
        ((Ip.ipfcons (s.ep s.next) (iq.held.map s.ep)).getD (s.ep s.next))) (s.next :: held) :=
      custody.getbuf.setEp _
    exact got.releaseFragq found rfl IpfState.free

theorem Custody.addAndJoin (custody : Custody s (pep :: held))
    (found : s.ipfqt[index]? = some iq) :
    Custody (s.addAndJoin index iq pep).2 ((s.addAndJoin index iq pep).1.toList ++ held) := by
  have added := custody.ipfadd found rfl
  unfold Stack.addAndJoin
  split
  · next isNone =>
      rw [isNone] at added
      exact added.1
  · next isSome =>
      rw [isSome] at added
      exact added.1.ipfjoin (added.2 _ rfl)

theorem Custody.ipreass (custody : Custody s (pep :: held)) :
    Custody (s.ipreass pep).2 ((s.ipreass pep).1.toList ++ held) := by
  unfold Stack.ipreass
  dsimp only
  split
  · split
    · next keyed => exact custody.addAndJoin (locate_found keyed)
    · split
      · exact custody.freebuf
      · next _ entry isFree =>
          have found := locate_found isFree
          have free : entry.ipfState = IpfState.free := by simpa using locate_fits isFree
          split
          · refine (custody.ipfadd found ?_).1
            unfold Fragq.held Gpq.elements
            rw [entry.idle (by rw [free]; decide)]
            rfl
          · exact custody.freebuf
  · exact custody

theorem Custody.localOut (custody : Custody s (pep :: held)) (keeps : LocalOutKeeps s pep) :
    Custody (s.localOut pep).2 held := by
  have reassembled := custody.ipreass
  unfold LocalOutKeeps at keeps
  unfold Stack.localOut
  split
  · next isNone =>
      rw [isNone] at reassembled
      exact reassembled
  · next isSome =>
      rw [isSome] at reassembled keeps
      exact (reassembled.setEp _).deliver (keeps _ rfl)

end Local

/-! ## The ARP table and `netwrite` -/

section Netwrite

variable {s : Stack} {held : List Buf} {pep : Buf} {index ifn : Nat} {pae old : Arpentry}

theorem Arpentry.pendingFor_held (ifn : Nat) (pra : IPaddr) (queue : Gpq.Queue Buf) :
    (Arpentry.pendingFor ifn pra (some queue)).held = Gpq.elements queue := rfl

/-- The entry is written anew, and the packets that waited for it are freed. -/
theorem Custody.giveUp {new : Arpentry} (custody : Custody s held)
    (found : s.arptable[index]? = some pae) (empty : new.held = [])
    (frees : DiscardFrees s pae.held) :
    Custody (pae.held.foldl Stack.discard (s.setArp index new)) held := by
  have emptied : Custody (s.setArp index new) (pae.held ++ held) := by
    apply custody.setArp found
    intro other
    rw [empty, List.count_append, List.count_nil]
    omega
  exact emptied.discards frees

theorem arpScan_lt (table : List Arpentry) (fuel aenext : Nat) (bound : aenext < arpTsize) :
    arpScan table fuel aenext < arpTsize := by
  induction fuel generalizing aenext with
  | zero => exact bound
  | succ fuel ih =>
      unfold arpScan
      split
      · exact bound
      · exact ih _ (Nat.mod_lt _ (by decide))

/-- The entry that `arpalloc` gives out holds no packets any more. -/
theorem Custody.arpalloc (custody : Custody s held) (frees : EvictionFrees s) :
    Custody s.arpalloc.2 held ∧
      ∃ entry, s.arpalloc.2.arptable[s.arpalloc.1]? = some entry ∧ entry.held = [] := by
  have bound := arpScan_lt s.arptable arpTsize s.aenext custody.aenext
  obtain ⟨entry, found⟩ : ∃ entry,
      s.arptable[arpScan s.arptable arpTsize s.aenext]? = some entry :=
    ⟨_, List.getElem?_eq_getElem (custody.arpSize.symm ▸ bound)⟩
  have freesIt : DiscardFrees s entry.held := frees entry found
  unfold Stack.arpalloc
  dsimp only
  rw [found]
  have advanced : Custody { s with aenext := (arpScan s.arptable arpTsize s.aenext + 1) % arpTsize }
      held := ⟨custody.settled, custody.arpSize, Nat.mod_lt _ (by decide)⟩
  refine ⟨advanced.giveUp found rfl freesIt, entry.dequeued, ?_, rfl⟩
  dsimp only [Stack.arpdq]
  have freesThere : DiscardFrees
      ({ s with aenext := (arpScan s.arptable arpTsize s.aenext + 1) % arpTsize }.setArp
        (arpScan s.arptable arpTsize s.aenext) entry.dequeued) entry.held := freesIt
  rw [discards_eq _ freesThere]
  obtain ⟨inside, _⟩ := List.getElem?_eq_some_iff.mp found
  simp [Stack.freeAll, Stack.setArp, inside]

theorem Custody.arpEnqueue (custody : Custody s (pep :: held))
    (found : s.arptable[index]? = some pae) : Custody (s.arpEnqueue index pae pep) held := by
  have before : ∀ queue,
      pae.aeQueue.or (if s.setting.queues then some (Gpq.newq arpQsize) else none) = some queue →
        Gpq.elements queue = pae.held := by
    intro queue isQueue
    unfold Arpentry.held
    cases waiting : pae.aeQueue with
    | some queued =>
        rw [waiting] at isQueue
        rw [← Option.some.inj isQueue]
        rfl
    | none =>
        rw [waiting, Option.none_or] at isQueue
        split at isQueue
        · rw [← Option.some.inj isQueue]
          rfl
        · cases isQueue
  unfold Stack.arpEnqueue
  split
  · exact custody.freebuf
  · next queue isQueue =>
      have same := before queue isQueue
      split
      · have kept : Custody (s.setArp index (.pendingFor pae.aePni pae.aePra (some queue)))
            (pep :: held) := by
          apply custody.setArp found
          intro other
          rw [Arpentry.pendingFor_held, same]
        exact kept.freebuf
      · next after accepted =>
          have perm := Gpq.enq_perm accepted
          apply custody.setArp found
          intro other
          have counted := perm.count_eq other
          rw [List.count_cons, same] at counted
          rw [Arpentry.pendingFor_held, List.count_cons]
          omega

theorem Custody.netwrite (custody : Custody s (pep :: held)) {pni : Netif}
    (keeps : NetwriteKeeps s ifn pni pep) (len : Int) :
    Custody (s.netwrite ifn pni pep len).2 held := by
  unfold Stack.netwrite
  unfold NetwriteKeeps at keeps
  dsimp only
  split
  · exact custody.freebuf
  · next isUp =>
      have kept := keeps.resolve_left isUp
      split
      · next isLocal =>
          rw [if_pos isLocal] at kept
          exact custody.localOut kept
      · next notLocal =>
          rw [if_neg notLocal] at kept
          obtain ⟨notBrc, notClassD, unresolved, evicted⟩ := kept
          rw [notBrc, notClassD]
          simp only [Bool.false_eq_true, if_false]
          split
          · next isFound =>
              rw [if_neg (unresolved _ isFound)]
              exact custody.arpEnqueue (locate_found isFound)
          · next isNone =>
              obtain ⟨allocated, entry, isEntry, empty⟩ := custody.arpalloc (evicted isNone)
              have written : Custody (s.arpalloc.2.setArp s.arpalloc.1
                  (.pendingFor ifn (s.nexthop pep) none)) (pep :: held) := by
                apply allocated.setArp isEntry
                intro other
                rw [empty]
                rfl
              apply written.arpEnqueue
              obtain ⟨inside, _⟩ := List.getElem?_eq_some_iff.mp isEntry
              simp [Stack.setArp, inside]

end Netwrite

/-! ## The calls and the timers -/

def IpputpKeeps (s : Stack) (ifn : Nat) (pni : Netif) (nh : IPaddr) (pep : Buf) : Prop :=
  pni.niState = NiState.down ∨
    if ipLen (s.ep pep) ≤ pni.niMtu then
      let sent := putHalfword (s.ep pep) 10 0
      NetwriteKeeps (s.addressed pep (putHalfword sent 10 (ipcksum sent)) nh) ifn pni pep
    else dontFragment (s.ep pep) = true → IcmpFrees s ictDestur pep

/-- `netwrite` keeps the fragment that is next. -/
def FragmentKeeps (s : Stack) (ifn : Nat) (pni : Netif) (nh : IPaddr) (pep : Buf)
    (maxdlen tosend offset offindg : Int) : Prop :=
  if maxdlen < tosend then
    NetwriteKeeps (s.getbuf.2.addressed s.next
      (Ip.ipfsend (s.ep s.next) (s.ep pep) offset maxdlen offindg) nh) ifn pni s.next
  else NetwriteKeeps (s.addressed pep (Ip.lastFragment (s.ep pep) offset tosend offindg) nh)
    ifn pni pep

/-- No packet waits for the address, and a new entry for it takes no place of another. -/
def ArpInKeeps (s : Stack) (ifn : Nat) (pni : Netif) (spa : IPaddr) (forUs : Bool) : Prop :=
  forUs = true → (s.arpfind spa ifn = none → EvictionFrees s) ∧
    ∀ found ∈ s.arpfind spa ifn, found.2.held = [] ∨ pni.niState ≠ NiState.up

/-- The fragment that is given up first is freed. -/
def IpfExpireFrees (s : Stack) (iq : Fragq) : Prop :=
  ∀ pep ∈ iq.held.head?, icerrok s.setting.nif (s.ep pep) = false

section Calls

variable {s : Stack} {held : List Buf} {pep : Buf} {ifn : Nat} {pni : Netif}

theorem Custody.ipputp (custody : Custody s (pep :: held)) {nh : IPaddr}
    (keeps : IpputpKeeps s ifn pni nh pep) : Custody (s.ipputp ifn pni nh pep) held := by
  unfold Stack.ipputp
  unfold IpputpKeeps at keeps
  dsimp only at keeps ⊢
  split
  · exact custody.freebuf
  · next notDown =>
      have kept := keeps.resolve_left notDown
      split
      · next fits =>
          rw [if_pos fits] at kept
          exact (custody.addressed _ nh).netwrite kept _
      · next long =>
          rw [if_neg long] at kept
          split
          · next dont => exact custody.icmp (by decide) (kept dont) _ _
          · exact custody.addTask rfl

theorem Custody.fragment (custody : Custody s (pep :: held)) {nh : IPaddr}
    {maxdlen tosend offset offindg : Int}
    (keeps : FragmentKeeps s ifn pni nh pep maxdlen tosend offset offindg) :
    Custody (s.fragment ifn pni nh pep maxdlen tosend offset offindg) held := by
  unfold Stack.fragment
  unfold FragmentKeeps at keeps
  split
  · next more =>
      rw [if_pos more] at keeps
      have sent := (custody.getbuf.addressed _ nh).netwrite keeps
        (epHlen + ipLen (Ip.ipfsend (s.ep s.next) (s.ep pep) offset maxdlen offindg))
      dsimp only [Stack.getbuf] at sent ⊢
      split
      · exact sent.freebuf
      · exact sent.addTask rfl
  · next last =>
      rw [if_neg last] at keeps
      exact (custody.addressed _ nh).netwrite keeps _

/-- Where the interface is not up, `arpqsend` frees the packets. -/
theorem Custody.arpqsend {peps : List Buf} (custody : Custody s (peps ++ held))
    (down : pni.niState ≠ NiState.up) : Custody (s.arpqsend ifn pni peps) held := by
  induction peps generalizing s with
  | nil => exact custody
  | cons first rest ih =>
      have keeps : NetwriteKeeps s ifn pni first := Or.inl down
      exact ih (custody.netwrite keeps (epHlen + ipLen (s.ep first)))

theorem Custody.arpIn (custody : Custody s held) {spa : IPaddr} {forUs : Bool}
    (keeps : ArpInKeeps s ifn pni spa forUs) : Custody (s.arpIn ifn pni spa forUs) held := by
  unfold Stack.arpIn
  split
  · next isForUs =>
      obtain ⟨evicts, waits⟩ := keeps isForUs
      split
      · next isNone =>
          obtain ⟨allocated, entry, isEntry, empty⟩ := custody.arpalloc (evicts isNone)
          apply allocated.setArp isEntry
          intro other
          rw [empty]
          rfl
      · next index pae isFound =>
          split
          · have resolved :
                Custody (s.setArp index (.resolvedFor ifn spa)) (pae.held ++ held) := by
              apply custody.setArp (locate_found isFound)
              intro other
              have none : (Arpentry.resolvedFor ifn spa).held = [] := rfl
              rw [none, List.count_append, List.count_nil]
              omega
            rcases waits _ isFound with empty | down
            · rw [empty] at resolved ⊢
              exact resolved
            · exact resolved.arpqsend down
          · exact custody
  · exact custody

theorem Custody.ipfExpire (custody : Custody s held) {index : Nat} {iq : Fragq}
    (found : s.ipfqt[index]? = some iq) (frees : IpfExpireFrees s iq) :
    Custody (s.ipfExpire index iq) held := by
  have emptied : Custody (s.setFragq index (iq.release IpfState.free)) (iq.held ++ held) := by
    apply custody.setFragq found
    intro other
    rw [Fragq.release_held, List.count_append, List.count_nil]
    omega
  unfold IpfExpireFrees at frees
  unfold Stack.ipfExpire
  dsimp only
  split
  · next isEmpty =>
      rw [isEmpty] at emptied
      exact emptied
  · next first rest isList =>
      rw [isList] at emptied frees
      have refused := frees first rfl
      have first : Custody ((s.setFragq index (iq.release IpfState.free)).icmpError ictTimex first)
          (rest ++ held) := emptied.icmpError (by decide) (by decide) refused
      exact first.freeAll

end Calls

/-! ## Runs -/

/-- Every buffer that was handed out has been freed once, or is in one queue, port, message or
process. -/
def Stack.Conserved (s : Stack) : Prop := Settled s.next s.owned

/-- What has to hold before a step so that no buffer is lost in it. -/
def Keeps (s : Stack) : Event → Prop
  | .ipsend _ pep _ _ => pep ∉ s.hands
  | .ipputp ifn nh pep =>
      pep ∈ s.hands → ∀ pni ∈ s.setting.nif[ifn]?, IpputpKeeps (s.taken pep) ifn pni nh pep
  | .netwrite ifn pep _ =>
      pep ∈ s.hands → ∀ pni ∈ s.setting.nif[ifn]?, NetwriteKeeps (s.taken pep) ifn pni pep
  | .udpIn pep => pep ∈ s.hands → UdpInKeeps (s.taken pep) pep
  | .icmp type _ pa1 _ => (takesBuffer type = true → pa1 ∈ s.hands) → IcmpFrees s type pa1
  | .fragment task =>
      ∀ ifn nh pep maxdlen tosend offset offindg,
        s.tasks[task]? = some (.fragmenting ifn nh pep maxdlen tosend offset offindg) →
          ∀ pni ∈ s.setting.nif[ifn]?,
            FragmentKeeps { s with tasks := s.tasks.eraseIdx task } ifn pni nh pep maxdlen tosend
              offset offindg
  | .resume task =>
      ∀ portid seq pep, s.tasks[task]? = some (.sending portid seq pep) →
        ∃ port, s.ports[portid]? = some port ∧ port.alloc = true ∧ port.ptseq = seq
  | .arpIn ifn spa forUs => ∀ pni ∈ s.setting.nif[ifn]?, ArpInKeeps s ifn pni spa forUs
  | .arpExpire index => ∀ pae ∈ s.arptable[index]?, DiscardFrees s pae.held
  | .ipfExpire index => ∀ iq ∈ s.ipfqt[index]?, IpfExpireFrees s iq
  | _ => True

section Steps

variable {s : Stack}

theorem Custody.call {pep : Buf} {function : Stack → Stack} (custody : Custody s [])
    (keeps : pep ∈ s.hands → Custody (s.taken pep) [pep] →
      Custody (function (s.taken pep)) []) :
    Custody (s.call pep function) [] := by
  unfold Stack.call
  split
  · next present => exact keeps present (custody.taken present)
  · exact custody

theorem Custody.withNetif {ifn : Nat} {function : Netif → Stack} (custody : Custody s [])
    (keeps : ∀ pni ∈ s.setting.nif[ifn]?, Custody (function pni) []) :
    Custody (s.withNetif ifn function) [] := by
  unfold Stack.withNetif
  cases found : s.setting.nif[ifn]? with
  | none => exact custody
  | some pni => exact keeps pni found

/-- What is done to one port. -/
theorem Custody.atPort {portid : Nat} {function : Port → Stack} (custody : Custody s [])
    (keeps : ∀ port, s.ports[portid]? = some port → Custody (function port) []) :
    Custody ((s.ports[portid]?).elim s function) [] := by
  cases found : s.ports[portid]? with
  | none => exact custody
  | some port => exact keeps port found

theorem Custody.resume {portid : Nat} {seq : BitVec 32} {pep : Buf} {port : Port}
    (custody : Custody s [pep]) (found : s.ports[portid]? = some port) (alloc : port.alloc = true)
    (same : port.ptseq = seq) : Custody (s.resume portid seq pep) [] := by
  unfold Stack.resume
  rw [found]
  dsimp only
  rw [if_pos ⟨alloc, same⟩]
  exact custody.accept found rfl

theorem Custody.pclear {portid : Nat} {port : Port} (custody : Custody s [])
    (found : s.ports[portid]? = some port) (alloc : Bool) :
    Custody ((s.freeAll port.msgs).setPort portid (port.emptied alloc)) [] := by
  have emptied : Custody (s.setPort portid (port.emptied alloc)) (port.msgs ++ []) := by
    apply custody.setPort found
    intro other
    have none : (port.emptied alloc).msgs = [] := rfl
    rw [none, List.append_nil, List.count_nil]
    omega
  exact emptied.freeAll

theorem Custody.toHands {pep : Buf} (custody : Custody s [pep]) :
    Custody { s with hands := pep :: s.hands } [] := by
  refine custody.moved rfl rfl rfl ?_
  intro other
  simp only [owned_count, List.count_cons, List.count_nil]
  omega

theorem Custody.preceive {portid : Nat} {port : Port} {pep : Buf} {rest : List Buf}
    (custody : Custody s []) (found : s.ports[portid]? = some port)
    (shape : port.msgs = pep :: rest) :
    Custody { s.setPort portid port.dropHead with hands := pep :: s.hands } [] := by
  have dropped : Custody (s.setPort portid port.dropHead) [pep] := by
    apply custody.setPort found
    intro other
    have tail : port.dropHead.msgs = rest := congrArg List.tail shape
    rw [tail, shape, List.count_cons, List.count_cons, List.count_nil]
    omega
  exact dropped.toHands

theorem Custody.receive {pep : Buf} (custody : Custody s []) (present : pep ∈ s.mail) :
    Custody { s with mail := s.mail.erase pep, hands := pep :: s.hands } [] := by
  refine custody.moved rfl rfl rfl ?_
  intro other
  have some := List.count_pos_iff.mpr present
  simp only [owned_count, List.count_cons, List.count_erase]
  by_cases same : pep = other
  · subst same
    simp only [beq_self_eq_true, if_true]
    omega
  · simp only [beq_iff_eq, same, if_false]
    omega

theorem Custody.step (custody : Custody s []) {event : Event} (keeps : Keeps s event) :
    Custody (step s event) [] := by
  unfold Net.step
  cases event with
  | setting setting => exact custody.moved rfl rfl rfl (fun _ => rfl)
  | getbuf pip nexthop => exact (custody.getbuf.addressed pip nexthop).toHands
  | freebuf pep =>
      apply custody.call
      intro _ taken
      exact taken.freebuf
  | ipsend faddr pep datalen proto =>
      apply custody.call
      intro present _
      exact absurd present keeps
  | ipputp ifn nh pep =>
      apply custody.withNetif
      intro pni found
      apply custody.call
      intro present taken
      exact taken.ipputp (keeps present pni found)
  | netwrite ifn pep len =>
      apply custody.withNetif
      intro pni found
      apply custody.call
      intro present taken
      exact taken.netwrite (keeps present pni found) len
  | udpIn pep =>
      apply custody.call
      intro present taken
      exact taken.udpIn (keeps present)
  | icmp type dst pa1 datalen =>
      dsimp only
      split
      · next takes =>
          apply custody.call
          intro present taken
          exact taken.icmp takes (keeps fun _ => present) dst datalen
      · next own =>
          have frees := keeps fun takes => absurd takes own
          exact custody.icmp_own (Bool.eq_false_iff.mpr own) frees dst datalen
  | fragment task =>
      dsimp only
      split
      · next ifn nh pep maxdlen tosend offset offindg isTask =>
          apply custody.withNetif
          intro pni found
          exact (custody.takeTask isTask).fragment (keeps _ _ _ _ _ _ _ isTask pni found)
      · exact custody
  | resume task =>
      dsimp only
      split
      · next portid seq pep isTask =>
          obtain ⟨port, found, alloc, same⟩ := keeps portid seq pep isTask
          exact (custody.takeTask isTask).resume found alloc same
      · exact custody
  | counts portid rcount scount =>
      apply custody.atPort
      intro port found
      apply custody.setPort found
      intro other
      rfl
  | pcreate portid =>
      apply custody.atPort
      intro port found
      split
      · exact custody
      · next isFree =>
          apply custody.setPort found
          intro other
          rw [port.idle (Bool.eq_false_iff.mpr isFree)]
          rfl
  | pclear portid alloc =>
      apply custody.atPort
      intro port found
      exact custody.pclear found alloc
  | preceive portid =>
      apply custody.atPort
      intro port found
      split
      · exact custody
      · next pep rest shape => exact custody.preceive found shape
  | receive pep =>
      dsimp only
      split
      · next present => exact custody.receive present
      · exact custody
  | arpIn ifn spa forUs =>
      apply custody.withNetif
      intro pni found
      exact custody.arpIn (keeps pni found)
  | arpExpire index =>
      dsimp only
      cases found : s.arptable[index]? with
      | none => exact custody
      | some pae => exact custody.giveUp found rfl (keeps pae found)
  | ipfExpire index =>
      dsimp only
      cases found : s.ipfqt[index]? with
      | none => exact custody
      | some iq => exact custody.ipfExpire found (keeps iq found)

end Steps

theorem start_owned (setting : Setting) (storage : Buf → Packet) :
    (start setting storage).owned = [] := by
  have noArp : arpinit.flatMap Arpentry.held = [] := by
    apply List.flatMap_eq_nil_iff.mpr
    intro pae member
    rw [List.eq_of_mem_replicate member]
    rfl
  have noFragments : ipfinit.flatMap Fragq.held = [] := by
    apply List.flatMap_eq_nil_iff.mpr
    intro iq member
    rw [List.eq_of_mem_replicate member]
    rfl
  have noMessages : (start setting storage).ports.flatMap Port.msgs = [] := by
    apply List.flatMap_eq_nil_iff.mpr
    intro port member
    rw [List.eq_of_mem_replicate member]
  unfold Stack.owned
  rw [noMessages]
  change [] ++ [] ++ [] ++ [] ++ arpinit.flatMap Arpentry.held ++ ipfinit.flatMap Fragq.held ++
    [] = _
  rw [noArp, noFragments]
  rfl

theorem start_custody (setting : Setting) (storage : Buf → Packet) :
    Custody (start setting storage) [] := by
  refine ⟨?_, ?_, ?_⟩
  · intro pep
    rw [start_owned]
    exact (if_neg (Nat.not_lt_zero pep)).symm
  · exact List.length_replicate
  · show 0 < arpTsize
    decide

/-- A host with one interface and a UDP socket for port 7. -/
def smallHost : Setting where
  gateway := false
  nif := [⟨.up, 2000, [127, 0, 0, 0], [127, 0, 0, 0], [127, 255, 255, 255], [127, 255, 255, 255]⟩]
  queues := true
  upqs := [⟨7, 0⟩]
  tcpsIport := 1
  accepts := fun _ => true

/-- A datagram without a checksum for this UDP port. -/
def udpTo (port : Octet) : Packet := memcpy (fun _ => 0) 0
  [0x45, 0, 0, 28, 0, 1, 0, 0, 255, 17, 0, 0, 10, 0, 0, 1, 10, 0, 0, 2, 0, 9, 0, port, 0, 8, 0, 0]

end MvsXinu.Net
