/-!
# Repeating a step until nothing changes

`settle step limit a` applies `step` to `a` again and again until a step changes nothing, but at
most `limit` times. Callers choose a limit that a run cannot reach, so that the result is a fixed
point of the step.
-/

namespace EditorToolbar

/-- Applies `step` until it changes nothing, at most `limit` times. -/
def settle {α : Type} [DecidableEq α] (step : α → α) : Nat → α → α
  | 0, a => a
  | limit + 1, a =>
    let next := step a
    if next = a then a else settle step limit next

@[simp] theorem settle_zero {α : Type} [DecidableEq α] (step : α → α) (a : α) :
    settle step 0 a = a := rfl

theorem settle_succ {α : Type} [DecidableEq α] (step : α → α) (limit : Nat) (a : α) :
    settle step (limit + 1) a = if step a = a then a else settle step limit (step a) := rfl

theorem settle_of_fixed {α : Type} [DecidableEq α] {step : α → α} {a : α} (h : step a = a)
    (limit : Nat) : settle step limit a = a := by
  cases limit with
  | zero => rfl
  | succ limit => simp [settle_succ, h]

/-- The first step can be taken before the run. -/
theorem settle_succ_eq_settle_step {α : Type} [DecidableEq α] (step : α → α) (limit : Nat)
    (a : α) : settle step (limit + 1) a = settle step limit (step a) := by
  rw [settle_succ]
  split
  · next h => rw [h, settle_of_fixed h]
  · rfl

end EditorToolbar
