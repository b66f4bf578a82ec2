import EditorToolbar.Text.Deletion
import EditorToolbar.Proofs.Text.Runs

/-!
# What deleting a word does

The reader behind `deleteWhere` carries a number of characters still to be dropped. The lemmas here
speak about it only between two words, where that number is zero: `deleteFrom_append_of_fits` passes
over an occurrence as a whole, `deleteFrom_cons_of_not_isPrefix` and `deleteFrom_cons_of_not_fits`
keep a character, and `deleteFrom_cases` says that there is no third possibility.

For `delete`, which accepts every occurrence, this settles when anything is deleted at all: exactly
when the word occurs. And since a word does not reach across a character that it does not have, such
a character parts a text into two that are treated separately.
-/

namespace EditorToolbar.Text

variable {fits : Option Char → Option Char → Bool} {w : Text}

/-- Characters that are to be dropped are passed over, whatever they are. -/
theorem deleteFrom_length_append (before : Option Char) (u rest : Text) :
    deleteFrom fits w before u.length (u ++ rest) =
      deleteFrom fits w (u.getLast?.or before) 0 rest := by
  induction u generalizing before with
  | nil => simp
  | cons c u ih =>
      rw [List.length_cons, List.cons_append, deleteFrom, ih, List.getLast?_cons]
      cases u.getLast? <;> rfl

theorem deleteFrom_append_of_fits {before : Option Char} {rest : Text} (hw : w ≠ [])
    (hfits : fits before rest.head? = true) :
    deleteFrom fits w before 0 (w ++ rest) = deleteFrom fits w w.getLast? 0 rest := by
  cases w with
  | nil => exact absurd rfl hw
  | cons c w =>
      have hmatch : ((c :: w).isPrefixOf (c :: (w ++ rest)) &&
          fits before ((c :: (w ++ rest)).drop (c :: w).length).head?) = true := by
        simp [hfits]
      rw [List.cons_append, deleteFrom, if_pos hmatch, List.length_cons, Nat.add_sub_cancel,
        deleteFrom_length_append, List.getLast?_cons]
      cases w.getLast? <;> rfl

theorem deleteFrom_cons_of_not_isPrefix {before : Option Char} {c : Char} {r : Text}
    (h : ¬ w <+: c :: r) :
    deleteFrom fits w before 0 (c :: r) = c :: deleteFrom fits w (some c) 0 r := by
  simp [deleteFrom, List.isPrefixOf_iff_prefix, h]

theorem deleteFrom_cons_of_not_fits {before : Option Char} {c : Char} {r : Text}
    (h : fits before ((c :: r).drop w.length).head? = false) :
    deleteFrom fits w before 0 (c :: r) = c :: deleteFrom fits w (some c) 0 r := by
  rw [deleteFrom, h, Bool.and_false, if_neg Bool.false_ne_true]

/-- The reader either passes over an occurrence or keeps a character. -/
theorem deleteFrom_cases (fits : Option Char → Option Char → Bool) (hw : w ≠ [])
    (before : Option Char) (c : Char) (r : Text) :
    (∃ rest, c :: r = w ++ rest ∧ fits before rest.head? = true ∧
      deleteFrom fits w before 0 (c :: r) = deleteFrom fits w w.getLast? 0 rest) ∨
    deleteFrom fits w before 0 (c :: r) = c :: deleteFrom fits w (some c) 0 r := by
  by_cases hpre : w <+: c :: r
  · obtain ⟨rest, hrest⟩ := hpre
    have hdrop : (c :: r).drop w.length = rest := by rw [← hrest, List.drop_left]
    cases hfits : fits before rest.head? with
    | false => exact .inr (deleteFrom_cons_of_not_fits (by rw [hdrop, hfits]))
    | true =>
        refine .inl ⟨rest, hrest.symm, hfits, ?_⟩
        rw [← hrest, deleteFrom_append_of_fits hw hfits]
  · exact .inr (deleteFrom_cons_of_not_isPrefix hpre)

/-- Follows the reader through a text: to its end, over an occurrence, and over a character that is
kept. -/
theorem deleteFrom_induction {motive : Option Char → Text → Text → Prop} (hw : w ≠ [])
    (nil : ∀ before, motive before [] [])
    (cut : ∀ before rest, fits before rest.head? = true →
      motive w.getLast? rest (deleteFrom fits w w.getLast? 0 rest) →
      motive before (w ++ rest) (deleteFrom fits w w.getLast? 0 rest))
    (keep : ∀ before c r, motive (some c) r (deleteFrom fits w (some c) 0 r) →
      motive before (c :: r) (c :: deleteFrom fits w (some c) 0 r))
    (before : Option Char) (s : Text) : motive before s (deleteFrom fits w before 0 s) := by
  induction hn : s.length using Nat.strongRecOn generalizing before s with
  | ind n ih =>
      subst hn
      cases s with
      | nil => simpa using nil before
      | cons c r =>
          rcases deleteFrom_cases fits hw before c r with ⟨rest, hrest, hfits, heq⟩ | heq
          · have hlt : rest.length < (c :: r).length := by
              have hpos := List.length_pos_iff.mpr hw
              rw [hrest, List.length_append]
              omega
            rw [heq, hrest]
            exact cut before rest hfits (ih _ hlt _ rest rfl)
          · rw [heq]
            exact keep before c r (ih _ (by simp) (some c) r rfl)

/-- If nothing is deleted from a text, nothing is deleted from what stands at its end. -/
theorem deleteFrom_eq_self_of_append (hw : w ≠ []) {before : Option Char} {u r : Text}
    (h : deleteFrom fits w before 0 (u ++ r) = u ++ r) :
    deleteFrom fits w (u.getLast?.or before) 0 r = r := by
  induction u generalizing before with
  | nil => exact h
  | cons c u ih =>
      rw [List.cons_append] at h
      rcases deleteFrom_cases fits hw before c (u ++ r) with ⟨rest, hrest, -, heq⟩ | heq
      · -- a deletion would have made the text shorter
        have hle := length_deleteFrom_le fits w w.getLast? 0 rest
        rw [← heq, h, hrest, List.length_append] at hle
        have hpos := List.length_pos_iff.mpr hw
        omega
      · have htail := ih (List.cons_eq_cons.mp (heq.symm.trans h)).2
        rw [List.getLast?_cons]
        cases hlast : u.getLast? <;> simpa [hlast] using htail

theorem deleteFrom_eq_self {before : Option Char} {s : Text} (h : ¬ w <:+: s) :
    deleteFrom fits w before 0 s = s := by
  induction s generalizing before with
  | nil => rw [deleteFrom_nil]
  | cons c r ih =>
      rw [List.infix_cons_iff, not_or] at h
      rw [deleteFrom_cons_of_not_isPrefix h.1, ih h.2]

theorem deleteWhere_eq_self {s : Text} (h : ¬ w <:+: s) : deleteWhere fits w s = s :=
  deleteFrom_eq_self h

theorem delete_eq_self {s : Text} (h : ¬ w <:+: s) : delete w s = s :=
  deleteWhere_eq_self h

/-- Deleting a word that occurs makes a text shorter. -/
theorem length_deleteFrom_lt (hw : w ≠ []) (hfits : ∀ a b, fits a b = true) {before : Option Char}
    {s : Text} (h : w <:+: s) : (deleteFrom fits w before 0 s).length < s.length := by
  induction s generalizing before with
  | nil => exact absurd (List.eq_nil_of_infix_nil h) hw
  | cons c r ih =>
      rcases List.infix_cons_iff.mp h with ⟨rest, hrest⟩ | hinf
      · rw [← hrest, deleteFrom_append_of_fits hw (hfits _ _)]
        have hle := length_deleteFrom_le fits w w.getLast? 0 rest
        have hpos := List.length_pos_iff.mpr hw
        simp only [List.length_append]
        omega
      · rcases deleteFrom_cases fits hw before c r with ⟨rest, hrest, -, heq⟩ | heq
        · rw [heq, hrest]
          have hle := length_deleteFrom_le fits w w.getLast? 0 rest
          have hpos := List.length_pos_iff.mpr hw
          simp only [List.length_append]
          omega
        · rw [heq]
          simpa using ih hinf

theorem length_delete_lt {s : Text} (hw : w ≠ []) (h : w <:+: s) :
    (delete w s).length < s.length :=
  length_deleteFrom_lt hw (fun _ _ => rfl) h

theorem deleteFrom_sublist (before : Option Char) (pending : Nat) (s : Text) :
    (deleteFrom fits w before pending s).Sublist s := by
  induction s generalizing before pending with
  | nil => simp
  | cons c r ih =>
      cases pending with
      | succ n => exact (ih (some c) n).cons c
      | zero =>
          rw [deleteFrom]
          split
          · exact (ih (some c) _).cons c
          · exact (ih (some c) 0).cons_cons c

theorem delete_sublist (w s : Text) : (delete w s).Sublist s :=
  deleteFrom_sublist none 0 s

/-! ### Deleting every occurrence -/

theorem delete_word_append (hw : w ≠ []) (r : Text) : delete w (w ++ r) = delete w r := by
  rw [delete, deleteWhere, deleteFrom_append_of_fits hw rfl]
  -- the character before a text makes no difference
  cases r <;> rfl

theorem delete_cons {c : Char} {r : Text} (h : ¬ w <+: c :: r) :
    delete w (c :: r) = c :: delete w r := by
  rw [delete, deleteWhere, deleteFrom_cons_of_not_isPrefix h]
  cases r <;> rfl

/-- No occurrence reaches across a character that the word does not have. -/
theorem delete_append_cons (hw : w ≠ []) {c : Char} (hc : c ∉ w) (u v : Text) :
    delete w (u ++ c :: v) = delete w u ++ c :: delete w v := by
  have hall : ∀ d ∈ w, (d != c) = true := fun d hd => bne_iff_ne.mpr fun h => hc (h ▸ hd)
  have hnot : (c :: v).head?.any (· != c) = false := by simp
  induction hn : u.length using Nat.strongRecOn generalizing u with
  | ind n ih =>
      subst hn
      cases u with
      | nil =>
          have hprefix : ¬ w <+: c :: v := not_isPrefix_of_head? hw hall hnot
          rw [List.nil_append, delete_cons hprefix]
          rfl
      | cons x r =>
          by_cases hprefix : w <+: x :: r
          · obtain ⟨rest, hrest⟩ := hprefix
            have hlt : rest.length < (x :: r).length := by
              have hpos := List.length_pos_iff.mpr hw
              rw [← hrest, List.length_append]
              omega
            rw [← hrest, List.append_assoc, delete_word_append hw, delete_word_append hw,
              ih _ hlt rest rfl]
          · have hlonger : ¬ w <+: x :: (r ++ c :: v) := fun h =>
              hprefix (isPrefix_of_isPrefix_append hall hnot h)
            rw [List.cons_append, delete_cons hlonger, delete_cons hprefix, ih _ (by simp) r rfl,
              List.cons_append]

end EditorToolbar.Text
