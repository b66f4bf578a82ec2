import EditorToolbar.Exclusion.Words
import EditorToolbar.Proofs.Exclusion.Basic
import EditorToolbar.Proofs.Text.Deletion
import EditorToolbar.Proofs.Text.Letter

/-!
# Cutting words is removing tools

A character is `Wordy` when it belongs to words of a text and when a name that ends in it has to
stop at a word boundary. In a text whose names consist of wordy characters the word boundaries are
the edges of the names, since neither blanks nor separators belong to words. So a word stands alone
exactly where it is a whole name, and cutting it out of the text is removing a tool. In general,
between characters of no word, a name gets the boundaries that it asks for if it has `WordEdges`.

The text is read run by run. The reader enters a run with the character before it, which is no part
of a word. Within the run some part of the same name always stands before or behind an occurrence of
the word, unless the word is the run.
-/

namespace EditorToolbar

open Text (isWordPart isNameLetter isBoundary deleteFrom)
open Token (IsName isNameChar isKept tokenize tools)

/-- The characters that belong to words and to the names that are looked for as words. -/
def Wordy (c : Char) : Prop := isWordPart c = true ∧ isNameLetter c = true

instance : DecidablePred Wordy := fun c =>
  inferInstanceAs (Decidable (isWordPart c = true ∧ isNameLetter c = true))

theorem isWordPart_of_not_isNameChar {c : Char} (h : isNameChar c = false) :
    isWordPart c = false := by
  cases hs : Token.ofSeparator? c with
  | some t =>
      unfold Token.ofSeparator? at hs
      split at hs <;> first | decide | cases hs
  | none =>
      have hblank : Text.isBlank c = true := by simpa [isNameChar, hs] using h
      exact Text.isWordPart_of_isBlank hblank

theorem any_isWordPart_of_not_isNameChar {c? : Option Char} (h : c?.any isNameChar = false) :
    c?.any isWordPart = false := by
  cases c? with
  | none => rfl
  | some c => exact isWordPart_of_not_isNameChar h

/-- A word that ends in the middle of a name does not stand alone. -/
theorem standsAlone_of_after {w : Text} {before after : Option Char} {c : Char}
    (hlast : w.getLast? = some c) (hc : Wordy c) (hafter : after.any isWordPart = true) :
    standsAlone w before after = false := by
  simp [standsAlone, hlast, isBoundary, hc.1, hc.2, hafter]

/-- The first and the last character of the name are word parts if they are name letters. -/
def WordEdges (name : Text) : Prop :=
  (∀ c ∈ name.head?, isNameLetter c = true → isWordPart c = true) ∧
    ∀ c ∈ name.getLast?, isNameLetter c = true → isWordPart c = true

theorem edge_iff (c? : Option Char) : (!c?.any isNameLetter || c?.any isWordPart) = true ↔
    ∀ c ∈ c?, isNameLetter c = true → isWordPart c = true := by
  cases c? with
  | none => simp
  | some c => cases hc : isNameLetter c <;> simp [hc]

instance : DecidablePred WordEdges := fun name =>
  decidable_of_iff ((!name.head?.any isNameLetter || name.head?.any isWordPart) = true ∧
      (!name.getLast?.any isNameLetter || name.getLast?.any isWordPart) = true) (by
    rw [edge_iff, edge_iff, WordEdges])

/-- Between characters that belong to no word, a name stands alone exactly if it has word edges. -/
theorem standsAlone_iff_wordEdges {before after : Option Char}
    (hbefore : before.any isWordPart = false) (hafter : after.any isWordPart = false)
    (name : Text) : standsAlone name before after = true ↔ WordEdges name := by
  rw [standsAlone, isBoundary, isBoundary, hbefore, hafter, Bool.false_bne, Bool.bne_false,
    Bool.and_eq_true, edge_iff, edge_iff, WordEdges]

section

variable {p : Char → Bool} {w : Text} (hw : ∀ c ∈ w, p c = true)

include hw

end

section

variable {w : Text} (hw : IsName w)

include hw

theorem head?_deleteFrom {r : Text} (hr : r.head?.any isNameChar = false) (before : Option Char) :
    (deleteFrom (standsAlone w) w before 0 r).head?.any isNameChar = false := by
  cases r with
  | nil => simp
  | cons c r =>
      rw [Text.deleteFrom_cons_of_not_isPrefix (Text.not_isPrefix_of_head? hw.1 hw.2 hr)]
      exact hr

end

end EditorToolbar
