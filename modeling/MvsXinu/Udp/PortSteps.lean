import Mathlib.Data.Fintype.Card
import MvsXinu.Lib.Tokens
import MvsXinu.Udp.Ports

/-!
# Every step of an open or a close keeps the entries apart

A valid entry belongs to the device whose open has allocated it, until the close of the device
has cleared it. As long as no other open stores the same number in between, what the check has
found still holds at the store.
-/

namespace MvsXinu.Datagrams

open MvsXinu.Runs MvsXinu.Tokens

set_option autoImplicit false

variable {Body : Type*}

/-- The entry of a device. -/
def entryOf (s : Udp Body) (dev : Nat) : Option Nat :=
  match s.phase dev with
  | .allocated _ upi _ => some upi
  | .opened | .closing => some (s.dgtab dev).upq
  | _ => none

/-- The number that an open will store, if nobody has overtaken it. -/
def Phase.pending : Phase → Option (BitVec 32)
  | .checked lport false => some lport
  | .allocated lport _ false => some lport
  | _ => none

/-- Who has which entry. -/
structure Owned (s : Udp Body) : Prop where
  sole : Sole (entryOf s)
  held : ∀ dev upi, entryOf s dev = some upi → upi < upps ∧ (s.upqs upi).valid = true
  deleting : ∀ dev, s.udpmutex = .deleting dev →
    s.phase dev = .closing ∧ (s.upqs (s.dgtab dev).upq).port = 0

/-- Which entry has which number. -/
structure Numbered (s : Udp Body) : Prop where
  ported : ∀ i < upps, (s.upqs i).port ≠ 0 → (s.upqs i).valid = true
  fresh : ∀ dev lport upi overtaken, s.phase dev = .allocated lport upi overtaken →
    (s.upqs upi).port = 0
  unique : Unique s
  pending : ∀ dev lport, (s.phase dev).pending = some lport → lport.toNat < 2 ^ 16 →
    lport ≠ 0 ∧ ¬ inuse s (lport.setWidth 16)
  lastport : 2050 ≤ s.lastport.toNat

/-- Which entry has which Xinu port. -/
structure Connected (s : Udp Body) : Prop where
  allocated : ∀ i < upps, Live s i → 0 ≤ (s.upqs i).xport →
    (s.upqs i).xport < nports ∧ s.ports (s.upqs i).xport ≠ none
  apart : ∀ i < upps, ∀ j < upps, Live s i → Live s j → 0 ≤ (s.upqs i).xport →
    (s.upqs i).xport = (s.upqs j).xport → i = j
  next : 0 ≤ s.ptnextp ∧ s.ptnextp < nports

structure Udp.Sound (s : Udp Body) : Prop where
  owned : Owned s
  numbered : Numbered s
  connected : Connected s

theorem udpinit_sound : (udpinit : Udp Body).Sound where
  owned := by
    constructor
    · intro first second upi has
      cases has
    · intro dev upi has
      cases has
    · intro dev isDeleting
      cases isDeleting
  numbered := by
    constructor
    · intro i isEntry used
      exact absurd rfl used
    · intro dev lport upi overtaken phase
      cases phase
    · intro i isEntry j isOther valid
      cases valid
    · intro dev lport pending
      cases pending
    · show 2050 ≤ ulport.toNat
      decide
  connected := by
    constructor
    · intro i isEntry live
      cases live.1
    · intro i isEntry j isOther live
      cases live.1
    · show 0 ≤ nports - 1 ∧ nports - 1 < nports
      decide

/-! ## `udpnxtp` finds a number that is not in use -/

section Search

variable {s : Udp Body}

theorem nextport_nat {port : BitVec 16} (high : 2050 ≤ port.toNat) :
    (nextport port).toNat = if port.toNat + 1 = 65536 then 2050 else port.toNat + 1 := by
  have bound := port.isLt
  have sum : (port + 1).toNat = (port.toNat + 1) % 65536 := by
    rw [BitVec.toNat_add]
    rfl
  simp only [nextport]
  by_cases last : port.toNat + 1 = 65536
  · have zero : port + 1 = 0 := by
      apply BitVec.eq_of_toNat_eq
      rw [sum, last]
      rfl
    rw [if_pos zero, if_pos last]
    rfl
  · have notZero : port + 1 ≠ 0 := by
      intro zero
      rw [zero] at sum
      have zeroNat : (0 : BitVec 16).toNat = 0 := rfl
      omega
    rw [if_neg notZero, if_neg last, sum]
    omega

/-- The ports that the loop looks at, one after the other. -/
def portAfter (port : BitVec 16) : Nat → BitVec 16
  | 0 => port
  | count + 1 => nextport (portAfter port count)

theorem portAfter_nat {port : BitVec 16} (high : 2050 ≤ port.toNat) (count : Nat) :
    (portAfter port count).toNat = 2050 + (port.toNat - 2050 + count) % 63486 := by
  have bound := port.isLt
  induction count with
  | zero =>
      simp only [portAfter]
      omega
  | succ count ih =>
      have highNow : 2050 ≤ (portAfter port count).toNat := by omega
      simp only [portAfter]
      rw [nextport_nat highNow]
      split
      · omega
      · omega

theorem nextport_portAfter (port : BitVec 16) (count : Nat) :
    portAfter (nextport port) count = portAfter port (count + 1) := by
  induction count with
  | zero => rfl
  | succ count ih => exact congrArg nextport ih

/-- There are more numbers than entries. -/
theorem some_unused {port : BitVec 16} (high : 2050 ≤ port.toNat) :
    ∃ count, count < upps + 1 ∧ ¬ inuse s (portAfter port (count + 1)) := by
  by_contra all
  have taken : ∀ count : Fin (upps + 1), ∃ i : Fin upps,
      (s.upqs i).port = portAfter port (count + 1) := by
    intro count
    by_contra free
    apply all
    refine ⟨count, count.isLt, ?_⟩
    intro used
    rcases used with ⟨i, isEntry, valid, same⟩
    exact free ⟨⟨i, isEntry⟩, same⟩
  choose entry isPort using taken
  have injective : Function.Injective entry := by
    intro first second same
    have ports : portAfter port (first + 1) = portAfter port (second + 1) := by
      rw [← isPort first, ← isPort second, same]
    have numbers := congrArg BitVec.toNat ports
    rw [portAfter_nat high, portAfter_nat high] at numbers
    have firstBound := first.isLt
    have secondBound := second.isLt
    unfold upps ndg at firstBound secondBound
    apply Fin.ext
    omega
  have small := Fintype.card_le_of_injective entry injective
  simp only [Fintype.card_fin] at small
  omega

theorem udpnxtp_unused (passes : Nat) : ∀ {port : BitVec 16}, 2050 ≤ port.toNat →
    (∃ count, count < passes ∧ ¬ inuse s (portAfter port (count + 1))) →
    ¬ inuse s (udpnxtp s passes port) ∧ 2050 ≤ (udpnxtp s passes port).toNat := by
  induction passes with
  | zero =>
      intro port high found
      rcases found with ⟨count, impossible, unused⟩
      omega
  | succ passes ih =>
      intro port high found
      have highNext : 2050 ≤ (nextport port).toNat := by
        rw [nextport_nat high]
        split
        · omega
        · omega
      simp only [udpnxtp]
      split
      · rename_i used
        apply ih highNext
        rcases found with ⟨count, isPass, unused⟩
        cases count with
        | zero => exact absurd used unused
        | succ count =>
            refine ⟨count, by omega, ?_⟩
            rw [nextport_portAfter]
            exact unused
      · rename_i unused
        exact ⟨unused, highNext⟩

/-! ## `pcreate` -/

theorem pcreateLoop_rest (tries : Nat) : ∀ s : Udp Body,
    (pcreateLoop tries s).2.upqs = s.upqs ∧ (pcreateLoop tries s).2.dgtab = s.dgtab ∧
    (pcreateLoop tries s).2.phase = s.phase ∧ (pcreateLoop tries s).2.udpmutex = s.udpmutex ∧
    (pcreateLoop tries s).2.lastport = s.lastport := by
  induction tries with
  | zero =>
      intro s
      exact ⟨rfl, rfl, rfl, rfl, rfl⟩
  | succ tries ih =>
      intro s
      simp only [pcreateLoop]
      split
      · exact ⟨rfl, rfl, rfl, rfl, rfl⟩
      · exact ih { s with ptnextp := if s.ptnextp ≤ 0 then nports - 1 else s.ptnextp - 1 }

/-- The port that `pcreate` returns was free, and no other one changes. -/
theorem pcreateLoop_spec (tries : Nat) : ∀ s : Udp Body, 0 ≤ s.ptnextp ∧ s.ptnextp < nports →
    (0 ≤ (pcreateLoop tries s).2.ptnextp ∧ (pcreateLoop tries s).2.ptnextp < nports) ∧
    (((pcreateLoop tries s).1 = syserr ∧ (pcreateLoop tries s).2.ports = s.ports) ∨
      (0 ≤ (pcreateLoop tries s).1 ∧ (pcreateLoop tries s).1 < nports ∧
        s.ports (pcreateLoop tries s).1 = none ∧ (pcreateLoop tries s).2.ports =
          Function.update s.ports (pcreateLoop tries s).1 (some []))) := by
  induction tries with
  | zero =>
      intro s next
      exact ⟨next, Or.inl ⟨rfl, rfl⟩⟩
  | succ tries ih =>
      intro s next
      have passed : 0 ≤ (if s.ptnextp ≤ 0 then nports - 1 else s.ptnextp - 1) ∧
          (if s.ptnextp ≤ 0 then nports - 1 else s.ptnextp - 1) < nports := by
        unfold nports at next ⊢
        split
        · omega
        · omega
      simp only [pcreateLoop]
      split
      · rename_i isFree
        exact ⟨passed, Or.inr ⟨next.1, next.2, isFree, rfl⟩⟩
      · exact ih { s with ptnextp := if s.ptnextp ≤ 0 then nports - 1 else s.ptnextp - 1 } passed

end Search

/-! ## Steps that leave the entries alone -/

section Phases

variable {s later : Udp Body} {dev : Nat} {phase : Phase}

theorem setPhase_self : (s.setPhase dev phase).phase dev = phase := Function.update_self _ _ _

theorem setPhase_other {other : Nat} (away : other ≠ dev) :
    (s.setPhase dev phase).phase other = s.phase other := Function.update_of_ne away _ _

theorem entryOf_congr {other : Nat} (samePhase : later.phase other = s.phase other)
    (sameUpq : (later.dgtab other).upq = (s.dgtab other).upq) :
    entryOf later other = entryOf s other := by
  simp only [entryOf, samePhase, sameUpq]

theorem Owned.congr (owned : Owned s) (entries : ∀ other, entryOf later other = entryOf s other)
    (valid : ∀ i, (later.upqs i).valid = (s.upqs i).valid)
    (deleting : ∀ other, later.udpmutex = .deleting other →
      later.phase other = .closing ∧ (later.upqs (later.dgtab other).upq).port = 0) :
    Owned later where
  sole := by
    apply owned.sole.drop
    intro other upi has
    rw [entries] at has
    exact has
  held := by
    intro other upi has
    rw [entries] at has
    rw [valid]
    exact owned.held other upi has
  deleting := deleting

/-- The mutex is not with a process that deletes. -/
theorem Owned.calm (owned : Owned s) (entries : ∀ other, entryOf later other = entryOf s other)
    (valid : ∀ i, (later.upqs i).valid = (s.upqs i).valid)
    (calm : ∀ other, later.udpmutex ≠ .deleting other) : Owned later :=
  owned.congr entries valid (fun other isDeleting => absurd isDeleting (calm other))

theorem Owned.setPhase (owned : Owned s) (notClosing : s.phase dev ≠ .closing)
    (entry : entryOf (s.setPhase dev phase) dev = entryOf s dev) :
    Owned (s.setPhase dev phase) := by
  apply owned.congr
  · intro other
    by_cases same : other = dev
    · rw [same, entry]
    · exact entryOf_congr (setPhase_other same) rfl
  · intro i
    rfl
  · intro other isDeleting
    have before := owned.deleting other isDeleting
    have away : other ≠ dev := by
      intro same
      rw [same] at before
      exact notClosing before.1
    rw [setPhase_other away]
    exact before

theorem Numbered.setPhase (numbered : Numbered s)
    (notAllocated : ∀ lport upi overtaken, phase ≠ .allocated lport upi overtaken)
    (pending : ∀ lport, phase.pending = some lport → lport.toNat < 2 ^ 16 →
      lport ≠ 0 ∧ ¬ inuse s (lport.setWidth 16)) : Numbered (s.setPhase dev phase) where
  ported := numbered.ported
  fresh := by
    intro other lport upi overtaken isAllocated
    by_cases same : other = dev
    · rw [same, setPhase_self] at isAllocated
      exact absurd isAllocated (notAllocated lport upi overtaken)
    · rw [setPhase_other same] at isAllocated
      exact numbered.fresh other lport upi overtaken isAllocated
  unique := numbered.unique
  pending := by
    intro other lport isPending small
    by_cases same : other = dev
    · rw [same, setPhase_self] at isPending
      exact pending lport isPending small
    · rw [setPhase_other same] at isPending
      exact numbered.pending other lport isPending small
  lastport := numbered.lastport

/-- A device goes from one phase without an entry to another, or is closed. -/
theorem Udp.Sound.setPhase (sound : s.Sound) (notClosing : s.phase dev ≠ .closing)
    (entry : entryOf (s.setPhase dev phase) dev = entryOf s dev)
    (notAllocated : ∀ lport upi overtaken, phase ≠ .allocated lport upi overtaken)
    (pending : ∀ lport, phase.pending = some lport → lport.toNat < 2 ^ 16 →
      lport ≠ 0 ∧ ¬ inuse s (lport.setWidth 16)) : (s.setPhase dev phase).Sound where
  owned := sound.owned.setPhase notClosing entry
  numbered := sound.numbered.setPhase notAllocated pending
  connected := { sound.connected with }

theorem entryOf_setPhase :
    entryOf (s.setPhase dev phase) dev =
      match phase with
      | .allocated _ upi _ => some upi
      | .opened | .closing => some (s.dgtab dev).upq
      | _ => none := by
  simp only [entryOf, setPhase_self]
  rfl

theorem Udp.Sound.toFree (sound : s.Sound) (notClosing : s.phase dev ≠ .closing)
    (none : entryOf s dev = none) : (s.setPhase dev .free).Sound := by
  apply sound.setPhase notClosing
  · rw [entryOf_setPhase, none]
  · intro lport upi overtaken same
    cases same
  · intro lport pending
    cases pending

theorem check_sound (sound : s.Sound) {lport : BitVec 32}
    (isOpening : s.phase dev = .opening lport) : (check s dev lport).Sound := by
  have notClosing : s.phase dev ≠ .closing := by
    rw [isOpening]
    intro same
    cases same
  have none : entryOf s dev = none := by
    simp only [entryOf, isOpening]
  simp only [check]
  split
  · have found := udpnxtp_unused (upps + 1) sound.numbered.lastport
      (some_unused (s := s) sound.numbered.lastport)
    have checked : (s.setPhase dev
        (.checked ((udpnxtp s (upps + 1) s.lastport).setWidth 32) false)).Sound := by
      apply sound.setPhase notClosing
      · rw [entryOf_setPhase, none]
      · intro lport upi overtaken same
        cases same
      · intro lport pending small
        cases pending
        have width : ((udpnxtp s (upps + 1) s.lastport).setWidth 32).setWidth 16 =
            udpnxtp s (upps + 1) s.lastport := by
          apply BitVec.eq_of_toNat_eq
          simp only [BitVec.toNat_setWidth]
          have bound := (udpnxtp s (upps + 1) s.lastport).isLt
          omega
        rw [width]
        refine ⟨?_, found.1⟩
        intro zero
        have zeroNat := congrArg BitVec.toNat zero
        have zeroWide : (0 : BitVec 32).toNat = 0 := rfl
        rw [zeroWide, BitVec.toNat_setWidth] at zeroNat
        have bound := (udpnxtp s (upps + 1) s.lastport).isLt
        omega
    exact ⟨{ checked.owned with }, { checked.numbered with lastport := found.2 },
      { checked.connected with }⟩
  · rename_i explicit
    split
    · exact sound.toFree notClosing none
    · rename_i unused
      apply sound.setPhase notClosing
      · rw [entryOf_setPhase, none]
      · intro lport upi overtaken same
        cases same
      · intro other pending small
        cases pending
        refine ⟨explicit, ?_⟩
        intro used
        apply unused
        rcases used with ⟨i, isEntry, valid, same⟩
        refine ⟨i, isEntry, valid, ?_⟩
        apply BitVec.eq_of_toNat_eq
        rw [same]
        simp only [BitVec.toNat_setWidth]
        omega

end Phases

/-! ## Allocating and storing -/

section Entries

variable {s : Udp Body} {dev : Nat}

theorem setUpq_self {i : Nat} {entry : Upq} : (s.setUpq i entry).upqs i = entry :=
  Function.update_self _ _ _

theorem setUpq_other {i other : Nat} {entry : Upq} (away : other ≠ i) :
    (s.setUpq i entry).upqs other = s.upqs other := Function.update_of_ne away _ _

theorem setWidth_ne_zero {lport : BitVec 32} (small : lport.toNat < 2 ^ 16) (notZero : lport ≠ 0) :
    lport.setWidth 16 ≠ 0 := by
  intro zero
  apply notZero
  apply BitVec.eq_of_toNat_eq
  have zeroNat := congrArg BitVec.toNat zero
  have zeroShort : (0 : BitVec 16).toNat = 0 := rfl
  have zeroWide : (0 : BitVec 32).toNat = 0 := rfl
  rw [zeroShort, BitVec.toNat_setWidth] at zeroNat
  rw [zeroWide]
  omega

theorem freeUpq_spec {i : Nat} (found : freeUpq s = some i) :
    i < upps ∧ (s.upqs i).valid = false := by
  have isFree := List.find?_some found
  have member := List.mem_of_find?_eq_some found
  exact ⟨List.mem_range.mp member, by simpa using isFree⟩

theorem live_of_valid {i : Nat} (nobody : s.udpmutex = .nobody) (valid : (s.upqs i).valid = true) :
    Live s i := by
  simp only [Live, nobody]
  exact ⟨valid, trivial⟩

/-- No number is stored, and no open is given one. -/
theorem Numbered.fewer {later : Udp Body} (numbered : Numbered s)
    (back : ∀ i < upps, (later.upqs i).port ≠ 0 → (later.upqs i).valid = true →
      later.upqs i = s.upqs i)
    (ported : ∀ i < upps, (later.upqs i).port ≠ 0 → (later.upqs i).valid = true)
    (fresh : ∀ dev lport upi overtaken, later.phase dev = .allocated lport upi overtaken →
      (later.upqs upi).port = 0)
    (pending : ∀ dev lport, (later.phase dev).pending = some lport →
      (s.phase dev).pending = some lport)
    (lastport : later.lastport = s.lastport) : Numbered later where
  ported := ported
  fresh := fresh
  unique := by
    intro i isI j isJ validI validJ same used
    have usedJ : (later.upqs j).port ≠ 0 := by
      rw [← same]
      exact used
    have keepI := back i isI used validI
    have keepJ := back j isJ usedJ validJ
    rw [keepI] at validI same used
    rw [keepJ] at validJ same
    exact numbered.unique i isI j isJ validI validJ same used
  pending := by
    intro dev lport isPending small
    rcases numbered.pending dev lport (pending dev lport isPending) small with ⟨notZero, unused⟩
    refine ⟨notZero, ?_⟩
    rintro ⟨i, isI, valid, same⟩
    have used : (later.upqs i).port ≠ 0 := by
      rw [same]
      exact setWidth_ne_zero small notZero
    have keep := back i isI used valid
    rw [keep] at valid same
    exact unused ⟨i, isI, valid, same⟩
  lastport := by
    rw [lastport]
    exact numbered.lastport

/-- No entry is given a Xinu port. -/
theorem Connected.fewer {later : Udp Body} (connected : Connected s)
    (back : ∀ i < upps, Live later i → Live s i ∧ (later.upqs i).xport = (s.upqs i).xport)
    (ports : ∀ i < upps, Live later i → 0 ≤ (s.upqs i).xport →
      later.ports (s.upqs i).xport = s.ports (s.upqs i).xport)
    (next : later.ptnextp = s.ptnextp) : Connected later where
  allocated := by
    intro i isI live natural
    rcases back i isI live with ⟨before, same⟩
    rw [same] at natural ⊢
    rw [ports i isI live natural]
    exact connected.allocated i isI before natural
  apart := by
    intro i isI j isJ liveI liveJ natural same
    rcases back i isI liveI with ⟨beforeI, sameI⟩
    rcases back j isJ liveJ with ⟨beforeJ, sameJ⟩
    rw [sameI] at natural same
    rw [sameJ] at same
    exact connected.apart i isI j isJ beforeI beforeJ natural same
  next := by
    rw [next]
    exact connected.next

/-- An open has entry `i` to itself, with the port that `pcreate` has returned. -/
structure Allocates (s : Udp Body) (dev i : Nat) (lport : BitVec 32) (overtaken : Bool)
    (later : Udp Body) : Prop where
  inside : i < upps
  invalid : (s.upqs i).valid = false
  own : later.upqs i = freshUpq (pcreate s).1
  others : ∀ other, other ≠ i → later.upqs other = s.upqs other
  ownPhase : later.phase dev = .allocated lport i overtaken
  otherPhase : ∀ other, other ≠ dev → later.phase other = s.phase other
  dgtab : later.dgtab = s.dgtab
  nobody : later.udpmutex = .nobody
  lastport : later.lastport = s.lastport
  ports : later.ports = (pcreate s).2.ports
  next : later.ptnextp = (pcreate s).2.ptnextp

theorem upalloc_allocates {i : Nat} {lport : BitVec 32} {overtaken : Bool}
    (nobody : s.udpmutex = .nobody) (found : freeUpq s = some i) :
    Allocates s dev i lport overtaken (upalloc s dev lport overtaken) := by
  rcases pcreateLoop_rest nports.toNat s with ⟨upqs, dgtab, phases, mutex, lastport⟩
  rcases freeUpq_spec found with ⟨inside, invalid⟩
  rw [upalloc, found]
  constructor
  · exact inside
  · exact invalid
  · exact Function.update_self _ _ _
  · intro other away
    exact (Function.update_of_ne away _ _).trans (congrFun upqs other)
  · exact Function.update_self _ _ _
  · intro other away
    exact (Function.update_of_ne away _ _).trans (congrFun phases other)
  · exact dgtab
  · exact mutex.trans nobody
  · exact lastport
  · rfl
  · rfl

section Allocation

variable {later : Udp Body} {i : Nat} {lport : BitVec 32} {overtaken : Bool}

theorem Allocates.entry (allocates : Allocates s dev i lport overtaken later) :
    entryOf later dev = some i := by
  simp only [entryOf, allocates.ownPhase]

theorem Allocates.entries (allocates : Allocates s dev i lport overtaken later) {other : Nat}
    (away : other ≠ dev) : entryOf later other = entryOf s other :=
  entryOf_congr (allocates.otherPhase other away)
    (congrArg Dgblk.upq (congrFun allocates.dgtab other))

/-- Nobody had the entry. -/
theorem Allocates.unheld (allocates : Allocates s dev i lport overtaken later) (owned : Owned s)
    {other upi : Nat} (has : entryOf s other = some upi) : upi ≠ i := by
  intro same
  have valid := (owned.held other upi has).2
  rw [same, allocates.invalid] at valid
  cases valid

theorem Allocates.owned (allocates : Allocates s dev i lport overtaken later) (owned : Owned s) :
    Owned later where
  sole := by
    apply owned.sole.gain allocates.entry
    intro other away upi has
    rw [allocates.entries away] at has
    exact ⟨has, allocates.unheld owned has⟩
  held := by
    intro other upi has
    by_cases isDev : other = dev
    · rw [isDev, allocates.entry] at has
      rw [← Option.some.inj has, allocates.own]
      exact ⟨allocates.inside, rfl⟩
    · rw [allocates.entries isDev] at has
      rw [allocates.others upi (allocates.unheld owned has)]
      exact owned.held other upi has
  deleting := by
    intro other isDeleting
    rw [allocates.nobody] at isDeleting
    cases isDeleting

theorem Allocates.numbered (allocates : Allocates s dev i lport overtaken later)
    (owned : Owned s) (numbered : Numbered s)
    (isChecked : s.phase dev = .checked lport overtaken) : Numbered later := by
  have back : ∀ j, (later.upqs j).port ≠ 0 → later.upqs j = s.upqs j := by
    intro j used
    apply allocates.others
    intro isNew
    rw [isNew, allocates.own] at used
    exact used rfl
  apply numbered.fewer
  · intro j _ used _
    exact back j used
  · intro j isJ used
    have keep := back j used
    rw [keep] at used ⊢
    exact numbered.ported j isJ used
  · intro other otherPort upi otherOvertaken isAllocated
    by_cases isDev : other = dev
    · rw [isDev, allocates.ownPhase] at isAllocated
      cases isAllocated
      rw [allocates.own]
      rfl
    · rw [allocates.otherPhase other isDev] at isAllocated
      have has : entryOf s other = some upi := by
        simp only [entryOf, isAllocated]
      rw [allocates.others upi (allocates.unheld owned has)]
      exact numbered.fresh other otherPort upi otherOvertaken isAllocated
  · intro other otherPort pending
    by_cases isDev : other = dev
    · rw [isDev, allocates.ownPhase] at pending
      rw [isDev, isChecked]
      cases overtaken with
      | _ => exact pending
    · rw [allocates.otherPhase other isDev] at pending
      exact pending
  · exact allocates.lastport

/-- The port of the new entry was free, so no other entry has it. -/
theorem Allocates.connected (allocates : Allocates s dev i lport overtaken later)
    (connected : Connected s) (nobody : s.udpmutex = .nobody) : Connected later := by
  rcases pcreateLoop_spec nports.toNat s connected.next with ⟨next, created⟩
  change (pcreate s).1 = syserr ∧ (pcreate s).2.ports = s.ports ∨ 0 ≤ (pcreate s).1 ∧
    (pcreate s).1 < nports ∧ s.ports (pcreate s).1 = none ∧
      (pcreate s).2.ports = Function.update s.ports (pcreate s).1 (some []) at created
  have ownPort : (later.upqs i).xport = (pcreate s).1 := by
    rw [allocates.own]
    rfl
  have liveBack : ∀ j, j ≠ i → Live later j → Live s j := by
    intro j away live
    rw [Live, allocates.others j away] at live
    exact live_of_valid nobody live.1
  have kept : ∀ portid, s.ports portid ≠ none → later.ports portid ≠ none := by
    intro portid some
    rw [allocates.ports]
    rcases created with ⟨_, same⟩ | ⟨_, _, _, made⟩
    · rw [same]
      exact some
    · rw [made]
      by_cases isNew : portid = (pcreate s).1
      · rw [isNew, Function.update_self]
        exact Option.some_ne_none _
      · rw [Function.update_of_ne isNew]
        exact some
  have distinct : ∀ j < upps, j ≠ i → Live later j → 0 ≤ (later.upqs j).xport →
      (later.upqs j).xport ≠ (later.upqs i).xport := by
    intro j isJ away live natural same
    have before := liveBack j away live
    rw [ownPort] at same
    rw [allocates.others j away] at natural same
    rcases created with ⟨failed, _⟩ | ⟨_, _, isFree, _⟩
    · rw [same, failed] at natural
      exact absurd natural (by decide)
    · have allocated := (connected.allocated j isJ before natural).2
      rw [same] at allocated
      exact allocated isFree
  constructor
  · intro j isJ live natural
    by_cases isNew : j = i
    · rw [isNew, ownPort] at natural ⊢
      rcases created with ⟨failed, _⟩ | ⟨_, bound, _, made⟩
      · rw [failed] at natural
        exact absurd natural (by decide)
      · rw [allocates.ports, made, Function.update_self]
        exact ⟨bound, Option.some_ne_none _⟩
    · have before := liveBack j isNew live
      rw [allocates.others j isNew] at natural ⊢
      rcases connected.allocated j isJ before natural with ⟨bound, allocated⟩
      exact ⟨bound, kept _ allocated⟩
  · intro j isJ l isL liveJ liveL natural same
    by_cases isNewJ : j = i
    · by_contra apart
      have awayL : l ≠ i := fun isNewL => apart (isNewJ.trans isNewL.symm)
      rw [same] at natural
      rw [isNewJ] at same
      exact distinct l isL awayL liveL natural same.symm
    · by_cases isNewL : l = i
      · rw [isNewL] at same
        exact absurd same (distinct j isJ isNewJ liveJ natural)
      · have before := liveBack j isNewJ liveJ
        rw [allocates.others j isNewJ] at natural same
        rw [allocates.others l isNewL] at same
        exact connected.apart j isJ l isL before (liveBack l isNewL liveL) natural same
  · rw [allocates.next]
    exact next

end Allocation

theorem upalloc_sound (sound : s.Sound) {lport : BitVec 32} {overtaken : Bool}
    (isChecked : s.phase dev = .checked lport overtaken) (nobody : s.udpmutex = .nobody) :
    (upalloc s dev lport overtaken).Sound := by
  cases found : freeUpq s with
  | none =>
      have notClosing : s.phase dev ≠ .closing := by
        rw [isChecked]
        intro same
        cases same
      have none : entryOf s dev = none := by
        simp only [entryOf, isChecked]
      rw [upalloc, found]
      exact sound.toFree notClosing none
  | some i =>
      have allocates : Allocates s dev i lport overtaken _ := upalloc_allocates nobody found
      exact ⟨allocates.owned sound.owned, allocates.numbered sound.owned sound.numbered isChecked,
        allocates.connected sound.connected nobody⟩

theorem overtake_entry (port : BitVec 16) {other : Nat} (later : Udp Body)
    (phase : later.phase other = (s.phase other).overtake port)
    (upq : (later.dgtab other).upq = (s.dgtab other).upq) :
    entryOf later other = entryOf s other := by
  simp only [entryOf, phase, upq]
  cases s.phase other with
  | _ => rfl

theorem overtake_allocated {port : BitVec 16} {phase : Phase} {lport : BitVec 32} {upi : Nat}
    {overtaken : Bool} (isAllocated : phase.overtake port = .allocated lport upi overtaken) :
    ∃ before, phase = .allocated lport upi before := by
  cases phase with
  | allocated ownPort ownUpi before =>
      simp only [Phase.overtake, Phase.allocated.injEq] at isAllocated
      rw [isAllocated.1, isAllocated.2.1]
      exact ⟨before, rfl⟩
  | _ => cases isAllocated

/-- An open that is still not overtaken has another number. -/
theorem overtake_pending {port : BitVec 16} {phase : Phase} {lport : BitVec 32}
    (pending : (phase.overtake port).pending = some lport) :
    phase.pending = some lport ∧ lport.setWidth 16 ≠ port := by
  cases phase with
  | checked ownPort overtaken =>
      cases overtaken with
      | true => cases pending
      | false =>
          by_cases same : ownPort.setWidth 16 = port
          · simp only [Phase.overtake, same, decide_true, Bool.false_or, Phase.pending] at pending
            cases pending
          · simp only [Phase.overtake, same, decide_false, Bool.false_or, Phase.pending] at pending
            cases pending
            exact ⟨rfl, same⟩
  | allocated ownPort upi overtaken =>
      cases overtaken with
      | true => cases pending
      | false =>
          by_cases same : ownPort.setWidth 16 = port
          · simp only [Phase.overtake, same, decide_true, Bool.false_or, Phase.pending] at pending
            cases pending
          · simp only [Phase.overtake, same, decide_false, Bool.false_or, Phase.pending] at pending
            cases pending
            exact ⟨rfl, same⟩
  | _ => cases pending

theorem overtake_closing {port : BitVec 16} {phase : Phase} (closing : phase = .closing) :
    phase.overtake port = .closing := by
  rw [closing]
  rfl

theorem store_sound (sound : s.Sound) {lport : BitVec 32} {upi : Nat}
    (isAllocated : s.phase dev = .allocated lport upi false) (small : lport.toNat < 2 ^ 16) :
    (store s dev lport upi).Sound := by
  have has : entryOf s dev = some upi := by
    simp only [entryOf, isAllocated]
  rcases sound.owned.held dev upi has with ⟨isEntry, valid⟩
  have pendingHere : (s.phase dev).pending = some lport := by
    rw [isAllocated]
    rfl
  rcases sound.numbered.pending dev lport pendingHere small with ⟨notZero, unused⟩
  have portNotZero := setWidth_ne_zero small notZero
  set later := store s dev lport upi with isLater
  have ownEntry : later.upqs upi = { s.upqs upi with port := lport.setWidth 16 } :=
    Function.update_self _ _ _
  have otherEntry : ∀ i, i ≠ upi → later.upqs i = s.upqs i :=
    fun i away => Function.update_of_ne away _ _
  have phases : later.phase = Function.update
      (fun other => (s.phase other).overtake (lport.setWidth 16)) dev .opened := rfl
  have ownPhase : later.phase dev = .opened := by
    rw [phases, Function.update_self]
  have otherPhase : ∀ other, other ≠ dev →
      later.phase other = (s.phase other).overtake (lport.setWidth 16) := by
    intro other away
    rw [phases, Function.update_of_ne away]
  have ownUpq : (later.dgtab dev).upq = upi :=
    congrArg Dgblk.upq (Function.update_self dev _ s.dgtab)
  have otherUpq : ∀ other, other ≠ dev → later.dgtab other = s.dgtab other :=
    fun other away => Function.update_of_ne away _ _
  have validSame : ∀ i, (later.upqs i).valid = (s.upqs i).valid := by
    intro i
    by_cases same : i = upi
    · rw [same, ownEntry]
    · rw [otherEntry i same]
  have xportSame : ∀ i, (later.upqs i).xport = (s.upqs i).xport := by
    intro i
    by_cases same : i = upi
    · rw [same, ownEntry]
    · rw [otherEntry i same]
  have entries : ∀ other, entryOf later other = entryOf s other := by
    intro other
    by_cases same : other = dev
    · rw [same, has]
      simp only [entryOf, ownPhase, ownUpq]
    · exact overtake_entry (lport.setWidth 16) later (otherPhase other same)
        (congrArg Dgblk.upq (otherUpq other same))
  have deletingOther : ∀ other, s.udpmutex = .deleting other → other ≠ dev := by
    intro other isDeleting same
    have closing := (sound.owned.deleting other isDeleting).1
    rw [same, isAllocated] at closing
    cases closing
  refine ⟨?_, ⟨?_, ?_, ?_, ?_, sound.numbered.lastport⟩, ?_⟩
  · apply sound.owned.congr entries validSame
    intro other isDeleting
    have away := deletingOther other isDeleting
    rcases sound.owned.deleting other isDeleting with ⟨closing, zero⟩
    refine ⟨(otherPhase other away).trans (overtake_closing closing), ?_⟩
    have hasOther : entryOf s other = some (s.dgtab other).upq := by
      simp only [entryOf, closing]
    have entryAway : (s.dgtab other).upq ≠ upi := by
      intro same
      rw [same] at hasOther
      exact away (sound.owned.sole other dev upi hasOther has)
    rw [otherUpq other away, otherEntry _ entryAway]
    exact zero
  · intro i isI used
    rw [validSame]
    by_cases same : i = upi
    · rw [same]
      exact valid
    · rw [otherEntry i same] at used
      exact sound.numbered.ported i isI used
  · intro other otherPort otherUpi overtaken isOther
    by_cases isDev : other = dev
    · rw [isDev, ownPhase] at isOther
      cases isOther
    · rw [otherPhase other isDev] at isOther
      rcases overtake_allocated isOther with ⟨before, phase⟩
      have hasOther : entryOf s other = some otherUpi := by
        simp only [entryOf, phase]
      have away : otherUpi ≠ upi := by
        intro same
        rw [same] at hasOther
        exact isDev (sound.owned.sole other dev upi hasOther has)
      rw [otherEntry otherUpi away]
      exact sound.numbered.fresh other otherPort otherUpi before phase
  · have alone : ∀ i < upps, i ≠ upi → (s.upqs i).valid = true →
        (s.upqs i).port ≠ lport.setWidth 16 :=
      fun i isI _ validI same => unused ⟨i, isI, validI, same⟩
    intro i isI j isJ validI validJ same used
    rw [validSame] at validI validJ
    by_cases isOwn : i = upi
    · by_contra apart
      have away : j ≠ upi := fun isUpi => apart (isOwn.trans isUpi.symm)
      rw [isOwn, ownEntry, otherEntry j away] at same
      exact alone j isJ away validJ same.symm
    · rw [otherEntry i isOwn] at same used
      by_cases isOther : j = upi
      · rw [isOther, ownEntry] at same
        exact absurd same (alone i isI isOwn validI)
      · rw [otherEntry j isOther] at same
        exact sound.numbered.unique i isI j isJ validI validJ same used
  · intro other otherPort pending otherSmall
    by_cases isDev : other = dev
    · rw [isDev, ownPhase] at pending
      cases pending
    · rw [otherPhase other isDev] at pending
      rcases overtake_pending pending with ⟨before, apart⟩
      rcases sound.numbered.pending other otherPort before otherSmall with ⟨otherNotZero, free⟩
      refine ⟨otherNotZero, ?_⟩
      intro used
      rcases used with ⟨i, isI, validI, same⟩
      rw [validSame] at validI
      by_cases isOwn : i = upi
      · rw [isOwn, ownEntry] at same
        exact apart same.symm
      · rw [otherEntry i isOwn] at same
        exact free ⟨i, isI, validI, same⟩
  · have liveBack : ∀ i, Live later i → Live s i := by
      intro i live
      rw [Live, validSame] at live
      refine ⟨live.1, ?_⟩
      have behind := live.2
      rw [show later.udpmutex = s.udpmutex from rfl] at behind
      cases mutex : s.udpmutex with
      | deleting other =>
          rw [mutex] at behind
          simp only at behind ⊢
          rw [otherUpq other (deletingOther other mutex)] at behind
          exact behind
      | _ => trivial
    apply sound.connected.fewer
    · intro i _ live
      exact ⟨liveBack i live, xportSame i⟩
    · intro i _ _ _
      rfl
    · rfl

/-! ## Closing -/

theorem deletes_sound (sound : s.Sound) (closing : s.phase dev = .closing)
    (nobody : s.udpmutex = .nobody) : (deletes s dev).Sound := by
  have has : entryOf s dev = some (s.dgtab dev).upq := by
    simp only [entryOf, closing]
  rcases sound.owned.held dev _ has with ⟨isEntry, valid⟩
  set pup := (s.dgtab dev).upq with isPup
  set later := deletes s dev with isLater
  have entries : later.upqs = Function.update s.upqs pup { s.upqs pup with port := 0 } := by
    simp only [isLater, deletes, ← isPup]
    split
    · simp only [pdelete]
      split
      · rfl
      · rfl
    · rfl
  have rest : later.phase = s.phase ∧ later.dgtab = s.dgtab ∧ later.lastport = s.lastport ∧
      later.ptnextp = s.ptnextp := by
    simp only [isLater, deletes, ← isPup]
    split
    · simp only [pdelete]
      split
      · exact ⟨rfl, rfl, rfl, rfl⟩
      · exact ⟨rfl, rfl, rfl, rfl⟩
    · exact ⟨rfl, rfl, rfl, rfl⟩
  have mutex : later.udpmutex = .deleting dev := rfl
  have otherPorts : ∀ portid, portid ≠ (s.upqs pup).xport →
      later.ports portid = s.ports portid := by
    intro portid away
    simp only [isLater, deletes, ← isPup]
    split
    · simp only [pdelete]
      split
      · rfl
      · exact Function.update_of_ne away _ _
    · rfl
  have ownEntry : later.upqs pup = { s.upqs pup with port := 0 } := by
    rw [entries]
    exact Function.update_self _ _ _
  have otherEntry : ∀ i, i ≠ pup → later.upqs i = s.upqs i := by
    intro i away
    rw [entries]
    exact Function.update_of_ne away _ _
  have validSame : ∀ i, (later.upqs i).valid = (s.upqs i).valid := by
    intro i
    by_cases same : i = pup
    · rw [same, ownEntry]
    · rw [otherEntry i same]
  have portBack : ∀ i, (later.upqs i).port ≠ 0 → later.upqs i = s.upqs i := by
    intro i used
    apply otherEntry
    intro same
    rw [same, ownEntry] at used
    exact used rfl
  constructor
  · apply sound.owned.congr
    · intro other
      exact entryOf_congr (congrFun rest.1 other) (congrArg Dgblk.upq (congrFun rest.2.1 other))
    · exact validSame
    · intro other isDeleting
      rw [mutex] at isDeleting
      cases isDeleting
      rw [rest.1, rest.2.1]
      refine ⟨closing, ?_⟩
      rw [← isPup, ownEntry]
  · apply sound.numbered.fewer
    · intro i _ used _
      exact portBack i used
    · intro i isI used
      have keep := portBack i used
      rw [keep] at used ⊢
      exact sound.numbered.ported i isI used
    · intro other lport upi overtaken isAllocated
      rw [rest.1] at isAllocated
      by_cases same : upi = pup
      · rw [same, ownEntry]
      · rw [otherEntry upi same]
        exact sound.numbered.fresh other lport upi overtaken isAllocated
    · intro other lport pending
      rw [rest.1] at pending
      exact pending
    · exact rest.2.2.1
  · have liveBack : ∀ i, Live later i → i ≠ pup ∧ Live s i := by
      intro i live
      rw [Live, validSame, mutex, rest.2.1] at live
      exact ⟨fun same => live.2 same.symm, live_of_valid nobody live.1⟩
    apply sound.connected.fewer
    · intro i _ live
      rcases liveBack i live with ⟨away, before⟩
      rw [otherEntry i away]
      exact ⟨before, rfl⟩
    · intro i isI live natural
      rcases liveBack i live with ⟨away, before⟩
      apply otherPorts
      intro same
      exact away (sound.connected.apart i isI pup isEntry before (live_of_valid nobody valid)
        natural same)
    · exact rest.2.2.2

theorem releases_sound (sound : s.Sound) (deleting : s.udpmutex = .deleting dev) :
    (releases s dev).Sound := by
  rcases sound.owned.deleting dev deleting with ⟨closing, zero⟩
  have has : entryOf s dev = some (s.dgtab dev).upq := by
    simp only [entryOf, closing]
  set pup := (s.dgtab dev).upq with isPup
  set later := releases s dev with isLater
  have ownEntry : later.upqs pup = { s.upqs pup with valid := false } := Function.update_self _ _ _
  have otherEntry : ∀ i, i ≠ pup → later.upqs i = s.upqs i :=
    fun i away => Function.update_of_ne away _ _
  have ownPhase : later.phase dev = .freeing := Function.update_self _ _ _
  have otherPhase : ∀ other, other ≠ dev → later.phase other = s.phase other :=
    fun other away => Function.update_of_ne away _ _
  have portSame : ∀ i, (later.upqs i).port = (s.upqs i).port := by
    intro i
    by_cases same : i = pup
    · rw [same, ownEntry]
    · rw [otherEntry i same]
  have validBack : ∀ i, (later.upqs i).valid = true → i ≠ pup ∧ later.upqs i = s.upqs i := by
    intro i valid
    have away : i ≠ pup := by
      intro same
      rw [same, ownEntry] at valid
      cases valid
    exact ⟨away, otherEntry i away⟩
  have others : ∀ other upi, entryOf later other = some upi →
      other ≠ dev ∧ entryOf s other = some upi := by
    intro other upi hasLater
    have away : other ≠ dev := by
      intro same
      rw [same] at hasLater
      simp only [entryOf, ownPhase] at hasLater
      cases hasLater
    rw [entryOf_congr (otherPhase other away) rfl] at hasLater
    exact ⟨away, hasLater⟩
  constructor
  · constructor
    · apply sound.owned.sole.drop
      intro other upi hasLater
      exact (others other upi hasLater).2
    · intro other upi hasLater
      rcases others other upi hasLater with ⟨away, before⟩
      have entryAway : upi ≠ pup := by
        intro same
        rw [same] at before
        exact away (sound.owned.sole other dev pup before has)
      rw [otherEntry upi entryAway]
      exact sound.owned.held other upi before
    · intro other isDeleting
      cases isDeleting
  · apply sound.numbered.fewer
    · intro i _ _ valid
      exact (validBack i valid).2
    · intro i isI used
      rw [portSame] at used
      have away : i ≠ pup := by
        intro same
        rw [same] at used
        exact used zero
      rw [otherEntry i away]
      exact sound.numbered.ported i isI used
    · intro other lport upi overtaken isAllocated
      rw [portSame]
      by_cases isDev : other = dev
      · rw [isDev, ownPhase] at isAllocated
        cases isAllocated
      · rw [otherPhase other isDev] at isAllocated
        exact sound.numbered.fresh other lport upi overtaken isAllocated
    · intro other lport pending
      by_cases isDev : other = dev
      · rw [isDev, ownPhase] at pending
        cases pending
      · rw [otherPhase other isDev] at pending
        exact pending
    · rfl
  · apply sound.connected.fewer
    · intro i _ live
      rcases validBack i live.1 with ⟨away, same⟩
      have valid : (later.upqs i).valid = true := live.1
      rw [same] at valid ⊢
      refine ⟨?_, rfl⟩
      rw [Live, deleting]
      exact ⟨valid, fun isOwn => away isOwn.symm⟩
    · intro i _ _ _
      rfl
    · rfl

end Entries

end MvsXinu.Datagrams
