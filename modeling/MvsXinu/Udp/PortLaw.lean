import MvsXinu.Udp.PortSteps

/-!
# The port law along a run

Every step of a device keeps the state sound, and in a sound state a datagram is queued for the
one valid entry that has its port. Two opens that have both checked the same number before
either stores it break the law.
-/

namespace MvsXinu.Datagrams

open MvsXinu.Runs

set_option autoImplicit false

variable {Body : Type*} {s later : Udp Body}

/-! ## Steps that keep every entry with its device -/

/-- Only readers, messages and ports that no entry has may change. -/
structure Kept (s later : Udp Body) : Prop where
  phase : later.phase = s.phase
  dgtab : later.dgtab = s.dgtab
  lastport : later.lastport = s.lastport
  valid : ∀ i, (later.upqs i).valid = (s.upqs i).valid
  port : ∀ i, (later.upqs i).port = (s.upqs i).port
  xport : ∀ i, (later.upqs i).xport = (s.upqs i).xport
  deleting : ∀ dev, later.udpmutex = .deleting dev ↔ s.udpmutex = .deleting dev
  ports : ∀ i < upps, Live s i → s.ports (s.upqs i).xport ≠ none →
    later.ports (s.upqs i).xport ≠ none
  next : 0 ≤ later.ptnextp ∧ later.ptnextp < nports

theorem Kept.live (kept : Kept s later) {i : Nat} (live : Live later i) : Live s i := by
  rcases live with ⟨valid, notDeleted⟩
  rw [kept.valid] at valid
  refine ⟨valid, ?_⟩
  cases mutex : s.udpmutex with
  | deleting dev =>
      rw [(kept.deleting dev).mpr mutex, kept.dgtab] at notDeleted
      exact notDeleted
  | _ => trivial

theorem Kept.owned (kept : Kept s later) (owned : Owned s) : Owned later := by
  apply owned.congr
  · intro other
    exact entryOf_congr (congrFun kept.phase other)
      (congrArg Dgblk.upq (congrFun kept.dgtab other))
  · exact kept.valid
  · intro other isDeleting
    rw [kept.phase, kept.dgtab, kept.port]
    exact owned.deleting other ((kept.deleting other).mp isDeleting)

theorem Kept.numbered (kept : Kept s later) (numbered : Numbered s) : Numbered later where
  ported := by
    intro i isEntry used
    rw [kept.port] at used
    rw [kept.valid]
    exact numbered.ported i isEntry used
  fresh := by
    intro dev lport upi overtaken isAllocated
    rw [kept.phase] at isAllocated
    rw [kept.port]
    exact numbered.fresh dev lport upi overtaken isAllocated
  unique := by
    intro i isI j isJ validI validJ same used
    rw [kept.valid] at validI validJ
    rw [kept.port] at same used
    rw [kept.port] at same
    exact numbered.unique i isI j isJ validI validJ same used
  pending := by
    intro dev lport pending small
    rw [kept.phase] at pending
    rcases numbered.pending dev lport pending small with ⟨notZero, unused⟩
    refine ⟨notZero, ?_⟩
    intro used
    rcases used with ⟨i, isEntry, valid, same⟩
    rw [kept.valid] at valid
    rw [kept.port] at same
    exact unused ⟨i, isEntry, valid, same⟩
  lastport := by
    rw [kept.lastport]
    exact numbered.lastport

theorem Kept.connected (kept : Kept s later) (connected : Connected s) : Connected later where
  allocated := by
    intro i isEntry live natural
    rw [kept.xport] at natural ⊢
    rcases connected.allocated i isEntry (kept.live live) natural with ⟨bound, allocated⟩
    exact ⟨bound, kept.ports i isEntry (kept.live live) allocated⟩
  apart := by
    intro i isI j isJ liveI liveJ natural same
    rw [kept.xport] at natural same
    rw [kept.xport] at same
    exact connected.apart i isI j isJ (kept.live liveI) (kept.live liveJ) natural same
  next := kept.next

theorem Kept.sound (kept : Kept s later) (sound : s.Sound) : later.Sound where
  owned := kept.owned sound.owned
  numbered := kept.numbered sound.numbered
  connected := kept.connected sound.connected

theorem Kept.refl (sound : s.Sound) : Kept s s where
  phase := rfl
  dgtab := rfl
  lastport := rfl
  valid := fun _ => rfl
  port := fun _ => rfl
  xport := fun _ => rfl
  deleting := fun _ => Iff.rfl
  ports := fun _ _ _ allocated => allocated
  next := sound.connected.next

/-- A reader is entered or told. -/
theorem setPid_fields {i : Nat} {pid : Int} (other : Nat) :
    ((s.setUpq i { s.upqs i with pid := pid }).upqs other).valid = (s.upqs other).valid ∧
    ((s.setUpq i { s.upqs i with pid := pid }).upqs other).port = (s.upqs other).port ∧
    ((s.setUpq i { s.upqs i with pid := pid }).upqs other).xport = (s.upqs other).xport := by
  by_cases same : other = i
  · rw [same, setUpq_self]
    exact ⟨rfl, rfl, rfl⟩
  · rw [setUpq_other same]
    exact ⟨rfl, rfl, rfl⟩

theorem update_allocated {ports : Int → Option (List (Datagram Body))} {portid other : Int}
    {msgs : List (Datagram Body)} (allocated : ports other ≠ none) :
    Function.update ports portid (some msgs) other ≠ none := by
  by_cases same : other = portid
  · rw [same, Function.update_self]
    intro impossible
    cases impossible
  · rw [Function.update_of_ne same]
    exact allocated

theorem kept_pcreate (sound : s.Sound) : Kept s (pcreate s).2 := by
  rcases pcreateLoop_rest nports.toNat s with ⟨upqs, dgtab, phase, mutex, lastport⟩
  rcases pcreateLoop_spec nports.toNat s sound.connected.next with ⟨next, created⟩
  constructor
  · exact phase
  · exact dgtab
  · exact lastport
  · intro i
    exact congrArg Upq.valid (congrFun upqs i)
  · intro i
    exact congrArg Upq.port (congrFun upqs i)
  · intro i
    exact congrArg Upq.xport (congrFun upqs i)
  · intro dev
    rw [show (pcreate s).2.udpmutex = s.udpmutex from mutex]
  · intro i isEntry live allocated
    rcases created with failed | made
    · rw [show (pcreate s).2.ports = s.ports from failed.2]
      exact allocated
    · rw [show (pcreate s).2.ports = _ from made.2.2.2]
      exact update_allocated allocated
  · exact next

theorem kept_pdelete (sound : s.Sound) {portid : Int}
    (promised : ∀ i < upps, Live s i → (s.upqs i).xport ≠ portid) :
    Kept s (pdelete s portid) := by
  simp only [pdelete]
  split
  · exact Kept.refl sound
  · have others : ∀ i < upps, Live s i → s.ports (s.upqs i).xport ≠ none →
        Function.update s.ports portid none (s.upqs i).xport ≠ none := by
      intro i isEntry live allocated
      rw [Function.update_of_ne (promised i isEntry live)]
      exact allocated
    exact { Kept.refl sound with ports := others }

theorem kept_setPid (sound : s.Sound) {i : Nat} {pid : Int} :
    Kept s (s.setUpq i { s.upqs i with pid := pid }) :=
  { Kept.refl sound with
    valid := fun other => (setPid_fields other).1
    port := fun other => (setPid_fields other).2.1
    xport := fun other => (setPid_fields other).2.2 }

theorem kept_dgread (sound : s.Sound) {dev : Nat} {pid : Int} : Kept s (dgread s dev pid) := by
  simp only [dgread]
  split
  · exact { Kept.refl sound with ports := fun i isEntry live allocated => update_allocated allocated }
  · split
    · exact kept_setPid sound
    · exact Kept.refl sound

theorem not_deleting_of_ne {dev : Nat} {owner : Owner} (nobody : s.udpmutex = .nobody)
    (isOther : owner ≠ .deleting dev) : owner = .deleting dev ↔ s.udpmutex = .deleting dev := by
  constructor
  · intro isDeleting
    exact absurd isDeleting isOther
  · intro isDeleting
    rw [nobody] at isDeleting
    cases isDeleting

theorem kept_udpIn (sound : s.Sound) (nobody : s.udpmutex = .nobody) {datagram : Datagram Body} :
    Kept s (udpIn s datagram) := by
  simp only [udpIn]
  split
  · rename_i pup queued
    have stays : ∀ i < upps, Live s i → s.ports (s.upqs i).xport ≠ none →
        Function.update s.ports (s.upqs pup).xport
          ((s.ports (s.upqs pup).xport).map fun msgs => msgs ++ [datagram])
          (s.upqs i).xport ≠ none := by
      intro i isEntry live allocated
      by_cases same : (s.upqs i).xport = (s.upqs pup).xport
      · rw [same] at allocated ⊢
        rw [Function.update_self]
        intro isNone
        exact allocated (Option.map_eq_none_iff.mp isNone)
      · rw [Function.update_of_ne same]
        exact allocated
    exact { Kept.refl sound with
            ports := stays
            deleting := fun dev => not_deleting_of_ne nobody (by intro same; cases same) }
  · exact { Kept.refl sound with
            deleting := fun dev => not_deleting_of_ne nobody (by intro same; cases same) }
  · exact Kept.refl sound

theorem kept_sent (sound : s.Sound) {pup : Nat} (delivering : s.udpmutex = .delivering pup) :
    Kept s (sent s pup) := by
  have mutex : ∀ dev, Owner.nobody = .deleting dev ↔ s.udpmutex = .deleting dev := by
    intro dev
    rw [delivering]
    constructor
    · intro same
      cases same
    · intro same
      cases same
  simp only [sent]
  split
  · exact { Kept.refl sound with deleting := mutex }
  · exact { kept_setPid sound with deleting := mutex }

/-! ## One step -/

theorem dgalloc_free {dev : Nat} (found : dgalloc s = some dev) : s.phase dev = .free := by
  have isFree := List.find?_some found
  exact of_decide_eq_true isFree

theorem dgmopen_sound (sound : s.Sound) {dev : Nat} (found : dgalloc s = some dev)
    (lport : BitVec 32) : (s.setPhase dev (.opening lport)).Sound := by
  have isFree := dgalloc_free found
  apply sound.setPhase
  · rw [isFree]
    intro same
    cases same
  · rw [entryOf_setPhase]
    simp only [entryOf, isFree]
  · intro other upi overtaken same
    cases same
  · intro other pending
    cases pending

theorem dgclose_sound (sound : s.Sound) {dev : Nat} (opened : s.phase dev = .opened) :
    (s.setPhase dev .closing).Sound := by
  apply sound.setPhase
  · rw [opened]
    intro same
    cases same
  · rw [entryOf_setPhase]
    simp only [entryOf, opened]
  · intro other upi overtaken same
    cases same
  · intro other pending
    cases pending

theorem Udp.Sound.step (sound : s.Sound) {event : UdpEvent Body} (guarded : Guarded s event) :
    (udpStep s event).Sound := by
  cases event with
  | dgmopen lport =>
      simp only [udpStep]
      split
      · exact sound
      · rename_i dev found
        exact dgmopen_sound sound found lport
  | check dev =>
      simp only [udpStep]
      split
      · rename_i lport isOpening nobody
        exact check_sound sound isOpening
      · exact sound
  | parseFails dev =>
      simp only [udpStep]
      split
      · rename_i lport overtaken isChecked
        apply sound.toFree
        · rw [isChecked]
          intro same
          cases same
        · simp only [entryOf, isChecked]
      · exact sound
  | upalloc dev =>
      simp only [udpStep]
      split
      · rename_i lport overtaken isChecked nobody
        exact upalloc_sound sound isChecked nobody
      · exact sound
  | store dev =>
      simp only [udpStep]
      split
      · rename_i lport upi overtaken isAllocated
        have untangled := guarded.2
        simp only [Untangled, isAllocated] at untangled
        rw [untangled.1] at isAllocated
        exact store_sound sound isAllocated untangled.2
      · exact sound
  | dgclose dev =>
      simp only [udpStep]
      split
      · rename_i opened
        exact dgclose_sound sound opened
      · exact sound
  | delete dev =>
      simp only [udpStep]
      split
      · rename_i closing nobody
        exact deletes_sound sound closing nobody
      · exact sound
  | release =>
      simp only [udpStep]
      split
      · rename_i dev deleting
        exact releases_sound sound deleting
      · exact sound
  | free dev =>
      simp only [udpStep]
      split
      · rename_i freeing
        apply sound.toFree
        · rw [freeing]
          intro same
          cases same
        · simp only [entryOf, freeing]
      · exact sound
  | udpIn datagram =>
      simp only [udpStep]
      split
      · rename_i nobody
        exact (kept_udpIn sound nobody).sound sound
      · exact sound
  | sent =>
      simp only [udpStep]
      split
      · rename_i pup delivering
        exact (kept_sent sound delivering).sound sound
      · exact sound
  | dgread dev pid => exact (kept_dgread sound).sound sound
  | pcreate => exact (kept_pcreate sound).sound sound
  | pdelete portid => exact (kept_pdelete sound guarded.1).sound sound

/-! ## Delivery -/

theorem findUpq_spec {port : BitVec 16} {pup : Nat} (found : findUpq s port = some pup) :
    pup < upps ∧ (s.upqs pup).port = port ∧ ∀ j < pup, (s.upqs j).port ≠ port := by
  rcases List.find?_range_eq_some.mp found with ⟨matched, member, earlier⟩
  refine ⟨List.mem_range.mp member, of_decide_eq_true matched, ?_⟩
  intro j isEarlier same
  have skipped := earlier j isEarlier
  rw [decide_eq_true same] at skipped
  cases skipped

theorem findUpq_none {port : BitVec 16} (missing : findUpq s port = none) {i : Nat}
    (isEntry : i < upps) : (s.upqs i).port ≠ port := by
  have notMatched := List.find?_eq_none.mp missing i (List.mem_range.mpr isEntry)
  intro same
  exact notMatched (decide_eq_true same)

theorem portOf_some {portid : Int} {msgs : List (Datagram Body)}
    (hasMsgs : portOf s portid = some msgs) : 0 ≤ portid ∧ s.ports portid = some msgs := by
  simp only [portOf] at hasMsgs
  split at hasMsgs
  · cases hasMsgs
  · rename_i good
    refine ⟨?_, hasMsgs⟩
    by_contra negative
    exact good (Or.inl (by omega))

/-- An entry whose Xinu port takes a message is valid, and the port is its own. -/
theorem found_entry (sound : s.Sound) (nobody : s.udpmutex = .nobody) {datagram : Datagram Body}
    (untangled : Untangled s (.udpIn datagram)) {pup : Nat}
    (found : findUpq s datagram.dst = some pup) {msgs : List (Datagram Body)}
    (hasMsgs : portOf s (s.upqs pup).xport = some msgs) :
    (s.upqs pup).valid = true ∧
    ∀ i < upps, (s.upqs i).valid = true → (s.upqs i).xport = (s.upqs pup).xport → i = pup := by
  rcases findUpq_spec found with ⟨isEntry, same, first⟩
  have valid : (s.upqs pup).valid = true := by
    by_cases used : (s.upqs pup).port = 0
    · rw [used] at same
      rw [← same] at first
      rcases untangled same.symm pup isEntry used first with valid | missing
      · exact valid
      · rw [missing] at hasMsgs
        cases hasMsgs
    · exact sound.numbered.ported pup isEntry used
  refine ⟨valid, ?_⟩
  intro i isOther validOther sameXport
  exact (sound.connected.apart pup isEntry i isOther (live_of_valid nobody valid)
    (live_of_valid nobody validOther) (portOf_some hasMsgs).1 sameXport.symm).symm

theorem verdict_queued {datagram : Datagram Body} {pup : Nat}
    (queued : verdict s datagram = .queued pup) :
    findUpq s datagram.dst = some pup ∧ ∃ msgs, portOf s (s.upqs pup).xport = some msgs := by
  simp only [verdict] at queued
  split at queued
  · cases queued
  · split at queued
    · cases queued
    · rename_i entry found
      split at queued
      · cases queued
      · rename_i msgs hasMsgs
        split at queued
        · cases queued
        · cases queued
          exact ⟨found, msgs, hasMsgs⟩

theorem verdict_unreachable {datagram : Datagram Body}
    (unreachable : verdict s datagram = .unreachable) : findUpq s datagram.dst = none := by
  simp only [verdict] at unreachable
  split at unreachable
  · cases unreachable
  · split at unreachable
    · rename_i missing
      exact missing
    · split at unreachable
      · cases unreachable
      · split at unreachable
        · cases unreachable
        · cases unreachable

theorem delivered_of_sound (sound : s.Sound) (nobody : s.udpmutex = .nobody)
    {datagram : Datagram Body} (untangled : Untangled s (.udpIn datagram)) :
    Delivered s datagram := by
  cases isVerdict : verdict s datagram with
  | queued pup =>
      rcases verdict_queued isVerdict with ⟨found, msgs, hasMsgs⟩
      rcases found_entry sound nobody untangled found hasMsgs with ⟨valid, alone⟩
      rcases findUpq_spec found with ⟨isEntry, same, first⟩
      have allocated := (portOf_some hasMsgs).2
      simp only [Delivered, isVerdict]
      refine ⟨isEntry, valid, same, alone, msgs, allocated, ?_⟩
      simp only [udpIn, isVerdict, allocated, Option.map_some]
  | unreachable =>
      have missing := verdict_unreachable isVerdict
      simp only [Delivered, isVerdict, udpIn]
      exact ⟨fun i isEntry valid => findUpq_none missing isEntry, trivial⟩
  | _ =>
      simp only [Delivered, isVerdict, udpIn]

/-! ## Along a run -/

theorem sound_along_run (reach : Reach udpStep Guarded udpinit s) : s.Sound := by
  apply reach.invariant udpinit_sound
  intro before event sound guarded
  exact sound.step guarded

theorem udp_ports_along_run {event : UdpEvent Body} (reach : Reach udpStep Guarded udpinit s)
    (guarded : Guarded s event) : UdpLaw s event where
  unique := ((sound_along_run reach).step guarded).numbered.unique
  delivered := by
    intro datagram isIn nobody
    rw [isIn] at guarded
    exact delivered_of_sound (sound_along_run reach) nobody guarded.2

/-- A port is opened, and a datagram for it is queued, received and told to its reader. -/
def openAndReceive : List (UdpEvent Unit) :=
  [.dgmopen 5000, .check 0, .upalloc 0, .store 0, .dgread 0 7,
    .udpIn { dst := 5000, intact := true, body := () }, .sent]

theorem open_and_receive_law :
    UdpLaw (openAndReceive.foldl udpStep udpinit)
      (.udpIn { dst := 5000, intact := true, body := () }) := by
  have permitted : Permitted udpStep Guarded udpinit openAndReceive := by
    simp only [openAndReceive, Permitted]
    decide +kernel
  apply udp_ports_along_run (reach_of_permitted openAndReceive Reach.start permitted)
  decide +kernel

/-- Both opens check the port before either stores it. -/
def opensRace : List (UdpEvent Unit) :=
  [.dgmopen 5000, .check 0, .dgmopen 5000, .check 1, .upalloc 0, .store 0, .upalloc 1]

theorem port_opened_twice :
    ¬ ∀ (s : Udp Unit) (event : UdpEvent Unit), Reach udpStep Promised udpinit s →
      Promised s event → UdpLaw s event := by
  intro law
  have permitted : Permitted udpStep Promised udpinit opensRace := by
    simp only [opensRace, Permitted]
    decide +kernel
  have broken := (law _ (.store 1) (reach_of_permitted opensRace Reach.start permitted)
    (by decide +kernel)).unique 0 (by decide) 1 (by decide)
  have both : ((udpStep (opensRace.foldl udpStep udpinit) (.store 1)).upqs 0).valid = true ∧
      ((udpStep (opensRace.foldl udpStep udpinit) (.store 1)).upqs 1).valid = true ∧
      ((udpStep (opensRace.foldl udpStep udpinit) (.store 1)).upqs 0).port = 5000 ∧
      ((udpStep (opensRace.foldl udpStep udpinit) (.store 1)).upqs 1).port = 5000 := by
    decide +kernel
  rcases both with ⟨validFirst, validSecond, portFirst, portSecond⟩
  have used : ((udpStep (opensRace.foldl udpStep udpinit) (.store 1)).upqs 0).port ≠ 0 := by
    rw [portFirst]
    decide
  have same := broken validFirst validSecond (portFirst.trans portSecond.symm) used
  cases same

end MvsXinu.Datagrams
