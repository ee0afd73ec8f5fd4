import Mathlib.Logic.Function.Basic

/-!
# Things that have one holder

Each holder has one thing or none. Nothing has two holders if holders only drop what they
have, or come to hold what nobody else does.
-/

namespace MvsXinu.Tokens

set_option autoImplicit false

variable {Holder Thing : Type*}

def Sole (held : Holder → Option Thing) : Prop :=
  ∀ first second thing, held first = some thing → held second = some thing → first = second

variable {held later : Holder → Option Thing}

theorem Sole.drop (sole : Sole held)
    (kept : ∀ holder thing, later holder = some thing → held holder = some thing) :
    Sole later := by
  intro first second thing hasFirst hasSecond
  exact sole first second thing (kept first thing hasFirst) (kept second thing hasSecond)

/-- One holder gets a thing that none of the others keeps. -/
theorem Sole.gain (sole : Sole held) {owner : Holder} {gained : Thing}
    (gets : later owner = some gained)
    (kept : ∀ holder, holder ≠ owner → ∀ thing, later holder = some thing →
      held holder = some thing ∧ thing ≠ gained) : Sole later := by
  intro first second thing hasFirst hasSecond
  by_cases isFirst : first = owner
  · rw [isFirst, gets] at hasFirst
    by_contra other
    have isOther : second ≠ owner := by
      intro same
      rw [isFirst, same] at other
      exact other rfl
    exact (kept second isOther thing hasSecond).2 (Option.some.inj hasFirst).symm
  · by_cases isSecond : second = owner
    · rw [isSecond, gets] at hasSecond
      exact absurd (Option.some.inj hasSecond).symm (kept first isFirst thing hasFirst).2
    · exact sole first second thing (kept first isFirst thing hasFirst).1
        (kept second isSecond thing hasSecond).1

end MvsXinu.Tokens
