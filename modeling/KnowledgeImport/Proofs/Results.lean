import Mathlib.Init

/-!
# Results and errors

When a computation that may fail succeeds, for each way to put computations together.
-/

namespace KnowledgeImport

variable {ε ε' α β : Type} {x : Except ε α} {a a' : α} {b : β}

theorem bind_eq_ok_iff {f : α → Except ε β} :
    x >>= f = .ok b ↔ ∃ a, x = .ok a ∧ f a = .ok b := by
  cases x <;> simp [bind, Except.bind]

theorem pure_eq_ok_iff : (pure a : Except ε α) = .ok a' ↔ a = a' := by
  simp [pure, Except.pure]

theorem throw_ne_ok {e : ε} : (throw e : Except ε α) ≠ .ok a := by
  simp [throw, throwThe, MonadExceptOf.throw]

/-- What would follow an error does not. -/
theorem throw_bind_ne_ok {e : ε} {f : α → Except ε β} : throw e >>= f ≠ .ok b := by
  intro h
  obtain ⟨_, hthrow, -⟩ := bind_eq_ok_iff.mp h
  exact throw_ne_ok hthrow

theorem map_eq_ok_iff {f : α → β} : x.map f = .ok b ↔ ∃ a, x = .ok a ∧ f a = b := by
  cases x <;> simp [Except.map]

theorem mapError_eq_ok_iff {f : ε → ε'} : x.mapError f = .ok a ↔ x = .ok a := by
  cases x with
  | error e => exact iff_of_false throw_ne_ok throw_ne_ok
  | ok b =>
    show (Except.ok b : Except ε' α) = .ok a ↔ _
    rw [Except.ok.injEq, Except.ok.injEq]

end KnowledgeImport
