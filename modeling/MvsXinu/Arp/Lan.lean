import MvsXinu.Arp.Provenance

/-!
# Hosts on one network

Each host has one interface on the network. What it says there reaches the others any number of
times and in any order, or not at all; nobody else speaks ARP on it.
-/

namespace MvsXinu.Arp

set_option autoImplicit false

structure Lan (Host : Type*) where
  setting : Host → Setting
  port : Host → Nat

inductive LanEvent (Host : Type*) where
  | own (host : Host) (event : Event)
  /-- What `source` said as number `place` arrives at `target`. -/
  | arrive (source target : Host) (place : Nat) (found : Bool)

variable {Host : Type*} [DecidableEq Host] (lan : Lan Host)

/-- The interface on the network. -/
def Lan.netif (host : Host) : Netif := (lan.setting host).nif (lan.port host)

def Lan.step (net : Host → System) : LanEvent Host → Host → System
  | .own host event =>
      Function.update net host (Arp.step (lan.setting host) (net host) event)
  | .arrive source target place found =>
      match (net source).cache.said[place]? with
      | some (ifn, parp) =>
          if ifn = lan.port source then
            Function.update net target
              (Arp.step (lan.setting target) (net target) (.arpIn (lan.port target) parp found))
          else net
      | none => net

/-- No ARP packets come from this network by another way. -/
def Lan.Allowed (net : Host → System) : LanEvent Host → Prop
  | .own host event =>
      Wellmade (net host) event ∧ ∀ item ∈ event.came, item.1 ≠ lan.port host
  | .arrive .. => True

instance (net : Host → System) : ∀ event, Decidable (lan.Allowed net event)
  | .own _ _ => inferInstanceAs (Decidable (_ ∧ _))
  | .arrive .. => .isTrue trivial

/-- A host has heard on the network only what an owner of the address said. -/
structure LanTraced (net : Host → System) : Prop where
  traced : ∀ host, TracedSystem (lan.setting host) (net host)
  heard : ∀ host parp, (lan.port host, parp) ∈ (net host).cache.heard →
    ∃ owner, Honest (lan.netif owner) parp

section Runs

variable {lan} {net : Host → System}

/-- One host makes a step. -/
theorem update_traced {host : Host} {event : Event} (inv : LanTraced lan net)
    (wellmade : Wellmade (net host) event)
    (told : ∀ parp, (lan.port host, parp) ∈ event.came → ∃ owner, Honest (lan.netif owner) parp) :
    LanTraced lan
      (Function.update net host (Arp.step (lan.setting host) (net host) event)) := by
  refine ⟨?_, ?_⟩
  · intro other
    by_cases same : other = host
    · subst same
      rw [Function.update_self]
      exact step_traced event (inv.traced other) wellmade
    · rw [Function.update_of_ne same]
      exact inv.traced other
  · intro other parp came
    by_cases same : other = host
    · subst same
      rw [Function.update_self, step_heard event (inv.traced other) wellmade] at came
      rcases List.mem_append.mp came with old | new
      · exact inv.heard other parp old
      · exact told parp new
    · rw [Function.update_of_ne same] at came
      exact inv.heard other parp came

theorem lan_step_traced (event : LanEvent Host) (inv : LanTraced lan net)
    (allowed : lan.Allowed net event) : LanTraced lan (lan.step net event) := by
  cases event with
  | own host event =>
      refine update_traced inv allowed.1 ?_
      intro parp came
      exact absurd rfl (allowed.2 _ came)
  | arrive source target place found =>
      rw [Lan.step]
      split
      · next ifn parp located =>
          split
          · next here =>
              have said := (inv.traced source).traced.said _ (List.mem_of_getElem? located)
              have honest : Honest (lan.netif source) parp := by
                rw [Lan.netif, ← here]
                exact said
              refine update_traced inv honest.1 ?_
              intro other came
              have same : other = parp := (Prod.mk.inj (List.mem_singleton.mp came)).2
              rw [same]
              exact ⟨source, honest⟩
          · exact inv
      · exact inv

end Runs

/-- A packet for a next hop on the network goes to the hardware address of a host that has the
address. -/
theorem lan_resolved (net : Host → System)
    (reached : Runs.Reach lan.step lan.Allowed (fun _ => {}) net) (host : Host) :
    ∀ deed ∈ (net host).cache.log, deed.fate = .sent (lan.port host) →
      ∃ owner, Same ipAlen (lan.netif owner).ip deed.pep.nexthop ∧
        Same epAlen (lan.netif owner).hwa deed.pep.dst := by
  have initial : LanTraced lan (fun _ => {}) :=
    ⟨fun _ => initial_traced, fun _ _ came => absurd came List.not_mem_nil⟩
  have inv := reached.invariant initial fun _ event inv allowed =>
    lan_step_traced event inv allowed
  intro deed logged sent
  obtain ⟨parp, came, spa, sha⟩ := (inv.traced host).traced.sent deed logged _ sent
  obtain ⟨owner, _, ip, hwa⟩ := inv.heard host parp came
  exact ⟨owner, ip.symm.trans spa, hwa.symm.trans sha⟩

/-- Two hosts, 10.0.0.1 and 10.0.0.2. -/
def pairLan : Lan Bool where
  setting := fun host => station (if host then 1 else 2)
  port := fun _ => 1

def pingRun : List (LanEvent Bool) :=
  [.own true (.netwrite 1 (tenNet 2) eptIp 60 true), .own true (.resume 0 true),
    .arrive true false 0 true, .own true (.resume 0 true), .arrive false true 0 true]

theorem ping_resolved :
    let net := pingRun.foldl pairLan.step fun _ => {}
    ((net true).cache.log.map fun deed => (deed.fate, deed.pep.dst 0)) = [(.sent 1, 2)] ∧
      ∀ deed ∈ (net true).cache.log, deed.fate = .sent 1 →
        ∃ owner, Same ipAlen (pairLan.netif owner).ip deed.pep.nexthop ∧
          Same epAlen (pairLan.netif owner).hwa deed.pep.dst := by
  have reached : Runs.Reach pairLan.step pairLan.Allowed (fun _ => {})
      (pingRun.foldl pairLan.step fun _ => {}) :=
    Runs.reach_of_permitted pingRun Runs.Reach.start (by decide)
  exact ⟨by decide, lan_resolved pairLan _ reached true⟩

end MvsXinu.Arp
