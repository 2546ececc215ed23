import Mathlib.Data.List.Count
import Mathlib.Data.List.Induction

/-! How many of the times of a list lie in a window: if at every time only so many of the
times until then are near it, no window holds more than these.
-/

set_option autoImplicit false

namespace Forserino.Foundation

universe u

variable {T : Type u}

/-- When a time is added, at most so many of the times until then are near it, itself among them. -/
def Limited (near : T → T → Bool) (most : Nat) (times : List T) : Prop :=
  ∀ front t, front ++ [t] <+: times → (front ++ [t]).countP (near · t) ≤ most

variable {near : T → T → Bool} {most : Nat} {times : List T}

theorem limited_nil : Limited near most [] := by
  intro front t isPrefix
  exact absurd (List.prefix_nil.mp isPrefix) (List.append_ne_nil_of_right_ne_nil _ (List.cons_ne_nil _ _))

theorem Limited.of_prefix {front : List T} (limited : Limited near most times) (isPrefix : front <+: times) :
    Limited near most front := fun _ _ inside => limited _ _ (inside.trans isPrefix)

theorem Limited.concat (limited : Limited near most times) {t : T}
    (few : (times ++ [t]).countP (near · t) ≤ most) : Limited near most (times ++ [t]) := by
  intro front last isPrefix
  rcases List.prefix_concat_iff.mp isPrefix with whole | inside
  · obtain ⟨-, same⟩ := List.append_inj' whole rfl
    rw [whole, List.singleton_inj.mp same]
    exact few
  · exact limited front last inside

/-- If whatever lies in the window is near everything later in it, the window holds at most so many times. -/
theorem Limited.window {order : T → T → Prop} (refl : ∀ t, order t t) (limited : Limited near most times)
    (sorted : times.Pairwise order) (inside : T → Bool)
    (close : ∀ t u, inside t → inside u → order t u → near t u) : times.countP inside ≤ most := by
  induction times using List.reverseRecOn with
  | nil => exact Nat.zero_le most
  | append_singleton front t ih =>
    obtain ⟨sortedFront, -, last⟩ := List.pairwise_append.mp sorted
    by_cases holds : inside t
    · have among : (front ++ [t]).countP inside ≤ (front ++ [t]).countP (near · t) := by
        apply List.countP_mono_left
        intro u member isInside
        rcases List.mem_append.mp member with earlier | same
        · exact close u t isInside holds (last u earlier t List.mem_cons_self)
        · rw [List.mem_singleton.mp same]
          exact close t t holds holds (refl t)
      exact Nat.le_trans among (limited front t List.prefix_rfl)
    · rw [List.countP_append, List.countP_singleton, if_neg holds, Nat.add_zero]
      exact ih (limited.of_prefix (List.prefix_append front [t])) sortedFront

end Forserino.Foundation
