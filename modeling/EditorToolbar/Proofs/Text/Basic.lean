import EditorToolbar.Text.Basic

/-!
# Lengths of texts

A text has at least as many bytes as characters, and texts that are not empty have together at least
as many characters as there are texts.
-/

namespace EditorToolbar.Text

theorem length_le_utf8Length (s : Text) : s.length ≤ s.utf8Length := by
  induction s with
  | nil => exact Nat.le_refl _
  | cons c s ih =>
      rw [List.length_cons, utf8Length_cons, Nat.add_comm]
      exact Nat.add_le_add c.utf8Size_pos ih

theorem length_le_length_flatten {parts : List Text} (h : ∀ part ∈ parts, part ≠ []) :
    parts.length ≤ parts.flatten.length := by
  induction parts with
  | nil => exact Nat.le_refl _
  | cons part parts ih =>
      have hpart := List.length_pos_iff.mpr (h part (by simp))
      have htail := ih fun x hx => h x (List.mem_cons_of_mem _ hx)
      rw [List.length_cons, List.flatten_cons, List.length_append, Nat.add_comm]
      exact Nat.add_le_add hpart htail

end EditorToolbar.Text
