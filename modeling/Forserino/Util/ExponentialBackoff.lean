import Mathlib.Algebra.Group.Nat.Defs
import Mathlib.Algebra.Group.Int.Defs
import Mathlib.Algebra.Ring.Int.Defs

/-! Delays that are doubled from one attempt to the next, up to a last one. Times are in milliseconds.
-/

set_option autoImplicit false

namespace Forserino.Util

structure ExponentialBackoff (maxSteps : Nat) where
  start : Int
  step : Nat
  deriving DecidableEq, Repr

namespace ExponentialBackoff

variable {maxSteps : Nat}

def new (start : Int) : ExponentialBackoff maxSteps := ⟨start, 1⟩

/-- The current number of the progression, and the backoff behind the call. -/
def next (backoff : ExponentialBackoff maxSteps) : Int × ExponentialBackoff maxSteps :=
  let next := backoff.start * 2 ^ (backoff.step - 1)
  let step := backoff.step + 1
  (next, { backoff with step := if maxSteps ≤ step then maxSteps else step })

def reset (backoff : ExponentialBackoff maxSteps) : ExponentialBackoff maxSteps := { backoff with step := 1 }

/-- The backoff when it was asked so many times since it was made or reset. -/
def asked (start : Int) (calls : Nat) : ExponentialBackoff maxSteps := ⟨start, min (calls + 1) maxSteps⟩

theorem new_eq_asked (several : 1 < maxSteps) (start : Int) : (new start : ExponentialBackoff maxSteps) = asked start 0 := by
  have first : min (0 + 1) maxSteps = 1 := Nat.min_eq_left (Nat.le_of_lt several)
  rw [new, asked, first]

theorem reset_asked (several : 1 < maxSteps) (start : Int) (calls : Nat) :
    (asked start calls : ExponentialBackoff maxSteps).reset = asked start 0 :=
  new_eq_asked several start

theorem next_asked (several : 1 < maxSteps) (start : Int) (calls : Nat) :
    (asked start calls : ExponentialBackoff maxSteps).next =
      (start * 2 ^ min calls (maxSteps - 1), asked start (calls + 1)) := by
  have exponent : min (calls + 1) maxSteps - 1 = min calls (maxSteps - 1) := by omega
  unfold next asked
  simp only [exponent, Prod.mk.injEq, ExponentialBackoff.mk.injEq, true_and]
  split <;> omega

end ExponentialBackoff

end Forserino.Util
