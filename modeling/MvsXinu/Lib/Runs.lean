import Mathlib.Data.List.Basic

/-!
# Runs of a step function

A run is a sequence of events from a start state. `Reach step allowed start` holds of
the states that events reach when each of them is allowed in the state it happens in;
what the environment promises, and what it is kept from doing, are two such guards.
-/

namespace MvsXinu.Runs

set_option autoImplicit false

variable {State Event : Type*}

inductive Reach (step : State → Event → State) (allowed : State → Event → Prop)
    (start : State) : State → Prop where
  | start : Reach step allowed start start
  | step {state : State} (event : Event) (before : Reach step allowed start state)
      (permitted : allowed state event) : Reach step allowed start (step state event)

variable {step : State → Event → State} {allowed stricter : State → Event → Prop}
  {start state : State}

/-- What holds at the start and is kept by every allowed event holds in every state
that is reached. -/
theorem Reach.invariant {Inv : State → Prop} (reached : Reach step allowed start state)
    (initial : Inv start)
    (kept : ∀ before event, Inv before → allowed before event → Inv (step before event)) :
    Inv state := by
  induction reached with
  | start => exact initial
  | step event _ permitted ih => exact kept _ event ih permitted

/-- The guards of a run, checked event by event. -/
def Permitted (step : State → Event → State) (allowed : State → Event → Prop) :
    State → List Event → Prop
  | _, [] => True
  | state, event :: rest => allowed state event ∧ Permitted step allowed (step state event) rest

instance decidablePermitted [∀ state event, Decidable (allowed state event)] :
    ∀ (state : State) (events : List Event), Decidable (Permitted step allowed state events)
  | _, [] => .isTrue trivial
  | state, event :: rest =>
      have := decidablePermitted (step state event) rest
      inferInstanceAs (Decidable (_ ∧ _))

theorem reach_of_permitted {origin : State} (events : List Event)
    (reached : Reach step allowed origin start) (permitted : Permitted step allowed start events) :
    Reach step allowed origin (events.foldl step start) := by
  induction events generalizing start with
  | nil => exact reached
  | cons event rest ih => exact ih (Reach.step event reached permitted.1) permitted.2

theorem unguarded_permitted (events : List Event) (start : State) :
    Permitted step (fun _ _ => True) start events := by
  induction events generalizing start with
  | nil => trivial
  | cons event rest ih => exact ⟨trivial, ih (step start event)⟩

/-- Two guards that agree wherever an invariant holds permit the same runs. -/
theorem permitted_congr {Inv : State → Prop} (events : List Event) (initial : Inv start)
    (kept : ∀ before event, Inv before → Inv (step before event))
    (agree : ∀ before event, Inv before → (allowed before event ↔ stricter before event)) :
    Permitted step allowed start events ↔ Permitted step stricter start events := by
  induction events generalizing start with
  | nil => exact Iff.rfl
  | cons event rest ih =>
      have next := kept start event initial
      exact and_congr (agree start event initial) (ih next)

/-- Where the guard says exactly which of the events that were promised keep a property, the
property holds after every event of a run exactly if every event of the run is allowed. -/
theorem promised_throughout_iff {Inv Good : State → Prop} {promised : State → Event → Prop}
    (events : List Event) (promises : Permitted step promised start events) (initial : Inv start)
    (good : ∀ before, Inv before → Good before)
    (kept : ∀ before event, Inv before → promised before event → allowed before event →
      Inv (step before event))
    (exact : ∀ before event, Inv before → promised before event → Good (step before event) →
      allowed before event) :
    (∀ count, Good ((events.take count).foldl step start)) ↔
      Permitted step allowed start events := by
  induction events generalizing start with
  | nil =>
      constructor
      · intro _
        trivial
      · intro _ count
        rw [List.take_nil]
        exact good start initial
  | cons event rest ih =>
      constructor
      · intro throughout
        have permitted : allowed start event :=
          exact start event initial promises.1 (throughout 1)
        have next := kept start event initial promises.1 permitted
        refine ⟨permitted, (ih promises.2 next).mp ?_⟩
        intro count
        exact throughout (count + 1)
      · rintro ⟨permitted, others⟩ count
        cases count with
        | zero => exact good start initial
        | succ count =>
            have next := kept start event initial promises.1 permitted
            exact (ih promises.2 next).mpr others count

/-- The same when nothing is promised. -/
theorem throughout_iff_permitted {Inv Good : State → Prop} (events : List Event)
    (initial : Inv start) (good : ∀ before, Inv before → Good before)
    (kept : ∀ before event, Inv before → allowed before event → Inv (step before event))
    (exact : ∀ before event, Inv before → Good (step before event) → allowed before event) :
    (∀ count, Good ((events.take count).foldl step start)) ↔
      Permitted step allowed start events :=
  promised_throughout_iff events (unguarded_permitted events start) initial good
    (fun before event holds _ => kept before event holds)
    (fun before event holds _ => exact before event holds)

end MvsXinu.Runs
