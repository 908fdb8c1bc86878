import Mathlib

/-!
# Peeling `Except` computations

The modelled Go functions return an error or a value; in Lean they are `Except` do-blocks.
These lemmas take a successful run apart one bind at a time, so that the spec lemma of a
function cites the spec lemmas of the functions it calls and never unfolds them.
-/

namespace GoFdo

variable {ε ε' α β : Type}

theorem except_bind_eq_ok {x : Except ε α} {f : α → Except ε β} {b : β} :
    x >>= f = .ok b ↔ ∃ a, x = .ok a ∧ f a = .ok b := by
  cases x <;> simp [bind, Except.bind]

theorem except_mapError_eq_ok {x : Except ε α} {f : ε → ε'} {a : α} :
    x.mapError f = .ok a ↔ x = .ok a := by
  cases x <;> simp [Except.mapError]

theorem except_pure_eq_ok {a b : α} : (pure a : Except ε α) = .ok b ↔ a = b := by
  simp [pure, Except.pure]

/-- A step that returns nothing returns `()`. -/
theorem exists_unit {p : Unit → Prop} : (∃ u, p u) ↔ p () :=
  ⟨fun ⟨(), h⟩ => h, fun h => ⟨(), h⟩⟩

theorem except_error_ne_ok {e : ε} {a : α} : (Except.error e : Except ε α) ≠ .ok a := by
  simp

end GoFdo
