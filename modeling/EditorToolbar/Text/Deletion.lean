import EditorToolbar.Text.Basic

/-!
# Deleting the occurrences of a word

`deleteWhere fits w s` reads `s` from the left and deletes each occurrence of `w` whose
neighbours `fits` accepts; after a deletion it goes on behind the deleted occurrence, so
occurrences do not overlap. The neighbours are those in `s` itself, whatever has been deleted
before. `delete w s` deletes every occurrence.

The reader carries the character it has just passed and the number of characters of the current
occurrence that are still to be passed over, so it is a recursion on the text.
-/

namespace EditorToolbar.Text

/-- The reader behind `deleteWhere`: `before` is the character just passed and `pending` the number
of characters still to be dropped. -/
def deleteFrom (fits : Option Char → Option Char → Bool) (w : Text) :
    Option Char → Nat → Text → Text
  | _, _, [] => []
  | _, pending + 1, c :: r => deleteFrom fits w (some c) pending r
  | before, 0, c :: r =>
    if w.isPrefixOf (c :: r) && fits before ((c :: r).drop w.length).head? then
      deleteFrom fits w (some c) (w.length - 1) r
    else c :: deleteFrom fits w (some c) 0 r

/-- Deletes the occurrences of the non-empty word `w` whose neighbours `fits` accepts. -/
def deleteWhere (fits : Option Char → Option Char → Bool) (w s : Text) : Text :=
  deleteFrom fits w none 0 s

/-- Deletes the occurrences of the non-empty word `w`. -/
def delete (w s : Text) : Text := deleteWhere (fun _ _ => true) w s

@[simp] theorem deleteFrom_nil (fits : Option Char → Option Char → Bool) (w : Text)
    (before : Option Char) (pending : Nat) : deleteFrom fits w before pending [] = [] := by
  cases pending <;> rfl

@[simp] theorem deleteWhere_nil (fits : Option Char → Option Char → Bool) (w : Text) :
    deleteWhere fits w [] = [] := by
  simp [deleteWhere]

theorem length_deleteFrom_le (fits : Option Char → Option Char → Bool) (w : Text)
    (before : Option Char) (pending : Nat) (s : Text) :
    (deleteFrom fits w before pending s).length ≤ s.length := by
  induction s generalizing before pending with
  | nil => simp
  | cons c r ih =>
    cases pending with
    | succ n => exact Nat.le_succ_of_le (ih (some c) n)
    | zero =>
      rw [deleteFrom]
      split
      · exact Nat.le_succ_of_le (ih (some c) _)
      · simpa using ih (some c) 0

theorem length_deleteWhere_le (fits : Option Char → Option Char → Bool) (w s : Text) :
    (deleteWhere fits w s).length ≤ s.length :=
  length_deleteFrom_le fits w none 0 s

end EditorToolbar.Text
