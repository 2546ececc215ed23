import Mathlib.Data.List.Infix

/-! Histories, to which a machine appends what it does, and what each of their
entries owes to the entries before it.
-/

set_option autoImplicit false

namespace Forserino.Foundation

universe u

variable {α : Type u} {suits : List α → α → Prop} {history : List α}

/-- Every entry suits what stands before it. -/
def Throughout (suits : List α → α → Prop) (history : List α) : Prop :=
  ∀ before x behind, history = before ++ x :: behind → suits before x

theorem throughout_nil : Throughout suits [] := by
  intro before x behind split
  exact absurd split.symm (List.append_ne_nil_of_right_ne_nil before (List.cons_ne_nil x behind))

theorem throughout_concat {x : α} : Throughout suits (history ++ [x]) ↔ Throughout suits history ∧ suits history x := by
  constructor
  · intro holds
    constructor
    · intro before y behind split
      exact holds before y (behind ++ [x]) (by rw [split, List.append_assoc, List.cons_append])
    · exact holds history x [] rfl
  · rintro ⟨holds, last⟩ before y behind split
    -- the entry is either the last one or stands in the history
    rcases List.eq_nil_or_concat behind with rfl | ⟨front, z, rfl⟩
    · obtain ⟨rfl, same⟩ := List.append_inj' split rfl
      obtain rfl := List.singleton_inj.mp same
      exact last
    · rw [List.concat_eq_append, ← List.cons_append, ← List.append_assoc] at split
      exact holds before y front (List.append_inj' split rfl).1

theorem Throughout.concat {x : α} (holds : Throughout suits history) (last : suits history x) :
    Throughout suits (history ++ [x]) :=
  throughout_concat.mpr ⟨holds, last⟩

/-- Entries that suit whatever stands before them can be appended at will. -/
theorem Throughout.append {more : List α} (holds : Throughout suits history)
    (free : ∀ before, ∀ x ∈ more, suits before x) : Throughout suits (history ++ more) := by
  induction more generalizing history with
  | nil => rwa [List.append_nil]
  | cons x more ih =>
    rw [List.append_cons]
    exact ih (holds.concat (free history x List.mem_cons_self))
      fun before y member => free before y (List.mem_cons_of_mem x member)

end Forserino.Foundation
