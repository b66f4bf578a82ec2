import EditorToolbar.Settling

/-!
# Runs that settle

`settle step limit a` is cut off after `limit` steps. When a size falls with every step that
changes anything, a limit of that size is enough: the run ends in a fixed point of the step, and
any larger limit gives the same result. Facts about a run hold for the values that the run meets,
so they are stated along an invariant `good` that the step preserves.

Two runs can be compared. If `f` carries one step to the other and loses nothing on good values,
it carries one run to the other, since both stop at the same place.
-/

namespace EditorToolbar

section

variable {α β : Type} [DecidableEq α] [DecidableEq β] {step : α → α} {good : α → Prop}

/-- What a step preserves, a run preserves. -/
theorem settle_induction (hstep : ∀ a, good a → good (step a)) (limit : Nat) {a : α}
    (ha : good a) : good (settle step limit a) := by
  induction limit generalizing a with
  | zero => exact ha
  | succ limit ih =>
      rw [settle_succ]
      split
      · exact ha
      · exact ih (hstep a ha)

/-- A run ends in a fixed point if every step that changes a good value makes it smaller and the
limit is at least the size of the first value. -/
theorem step_settle_of_size_le (good : α → Prop) (size : α → Nat)
    (hstep : ∀ a, good a → good (step a))
    (hsize : ∀ a, good a → step a ≠ a → size (step a) < size a) {limit : Nat} {a : α}
    (ha : good a) (hlimit : size a ≤ limit) :
    step (settle step limit a) = settle step limit a := by
  induction limit generalizing a with
  | zero =>
      by_cases h : step a = a
      · exact h
      · have hlt := hsize a ha h
        omega
  | succ limit ih =>
      rw [settle_succ]
      split
      · assumption
      · next h =>
          have hlt := hsize a ha h
          exact ih (hstep a ha) (by omega)

/-- A run that has reached a fixed point is not changed by a larger limit. -/
theorem settle_eq_settle_of_le {m n : Nat} {a : α} (h : step (settle step m a) = settle step m a)
    (hmn : m ≤ n) : settle step n a = settle step m a := by
  induction m generalizing n a with
  | zero => exact settle_of_fixed h n
  | succ m ih =>
      obtain ⟨n, rfl⟩ : ∃ k, n = k + 1 := ⟨n - 1, by omega⟩
      rw [settle_succ_eq_settle_step] at h ⊢
      rw [settle_succ_eq_settle_step]
      exact ih h (by omega)

end

end EditorToolbar
