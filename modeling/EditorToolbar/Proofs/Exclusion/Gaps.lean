import EditorToolbar.Proofs.Exclusion.Words
import EditorToolbar.Proofs.Modifier

/-!
# The gap that a cut leaves

A cut makes neighbours of two characters that were none before, so a modifier might close up around
the gap. What prevents it is the end of the name. A name that `EndsInWord` is cut only where the
text goes on with a character that belongs to no word, and in a modifier only the first character,
the colon, belongs to no word. So no modifier goes on behind the gap: one that occurs after the cut
occurred before it.

A `Bounded` name begins and ends with name letters and consists of word parts, so it ends in a word.
-/

namespace EditorToolbar

open Text (isWordPart isNameLetter isBoundary deleteFrom)

/-- A name that has to stop at a word boundary on both sides. -/
structure Bounded (name : Text) : Prop where
  parts : ∀ c ∈ name, isWordPart c = true
  first : name.head?.any isNameLetter = true
  last : name.getLast?.any isNameLetter = true

/-- A name whose last character belongs to words and has to stop at a word boundary. -/
def EndsInWord (name : Text) : Prop := ∃ c ∈ name.getLast?, Wordy c

instance : DecidablePred Bounded := fun name =>
  decidable_of_iff (name.all isWordPart = true ∧ name.head?.any isNameLetter = true ∧
      name.getLast?.any isNameLetter = true)
    ⟨fun h => ⟨List.all_eq_true.mp h.1, h.2.1, h.2.2⟩,
      fun h => ⟨List.all_eq_true.mpr h.parts, h.first, h.last⟩⟩

instance : DecidablePred EndsInWord := fun name =>
  decidable_of_iff (name.getLast?.any (fun c => decide (Wordy c)) = true) (by
    simp only [Option.any_eq_true, decide_eq_true_eq]
    rfl)

theorem Bounded.endsInWord {name : Text} (hn : Bounded name) : EndsInWord name := by
  obtain ⟨c, hlast, hletter⟩ := (Option.any_eq_true _ _).mp hn.last
  exact ⟨c, hlast, hn.parts c (List.mem_of_getLast? hlast), hletter⟩

section

variable {name : Text} (hn : EndsInWord name)

include hn

theorem EndsInWord.ne_nil : name ≠ [] := by
  rintro rfl
  obtain ⟨c, hlast, -⟩ := hn
  cases hlast

/-- Behind a name that ends in a word and stands alone there is no word part. -/
theorem EndsInWord.any_after {before after : Option Char}
    (h : standsAlone name before after = true) : after.any isWordPart = false := by
  obtain ⟨c, hlast, hc⟩ := hn
  cases hafter : after.any isWordPart with
  | false => rfl
  | true =>
      rw [standsAlone_of_after hlast hc hafter] at h
      cases h

/-- Where the text does not go on with a word, what the reader leaves of it does not either. -/
theorem EndsInWord.head?_deleteFrom (before : Option Char) {r : Text}
    (hr : r.head?.any isWordPart = false) :
    (deleteFrom (standsAlone name) name before 0 r).head?.any isWordPart = false := by
  revert hr
  refine Text.deleteFrom_induction
    (motive := fun _ r out => r.head?.any isWordPart = false → out.head?.any isWordPart = false)
    hn.ne_nil ?_ ?_ ?_ before r
  · intro _ h
    exact h
  · intro _ rest hfits ih _
    exact ih (hn.any_after hfits)
  · intro _ c r _ h
    exact h

/-- A word that stands in what the reader leaves stood there before. -/
theorem EndsInWord.isPrefix_of_isPrefix_deleteFrom {before : Option Char} {m r : Text}
    (hm : ∀ c ∈ m, isWordPart c = true)
    (h : m <+: deleteFrom (standsAlone name) name before 0 r) : m <+: r := by
  induction m generalizing before r with
  | nil => exact List.nil_prefix
  | cons d m ih =>
      cases r with
      | nil => simp at h
      | cons c r =>
          rcases Text.deleteFrom_cases (standsAlone name) hn.ne_nil before c r with
            ⟨rest, -, hfits, heq⟩ | heq
          · -- behind the gap the text does not go on with a word, but `d` is a word part
            obtain ⟨t, ht⟩ := h
            have hhead := hn.head?_deleteFrom name.getLast? (hn.any_after hfits)
            rw [← heq, ← ht] at hhead
            have hd : isWordPart d = false := hhead
            rw [hm d (by simp)] at hd
            cases hd
          · rw [heq] at h
            obtain ⟨rfl, h⟩ := List.cons_prefix_cons.mp h
            have htail := ih (fun x hx => hm x (List.mem_cons_of_mem _ hx)) h
            exact List.cons_prefix_cons.mpr ⟨rfl, htail⟩

/-- Cutting a name that ends in a word brings no text about that consists of word parts behind its
first character. -/
theorem EndsInWord.isInfix_of_isInfix_cutWord {m s : Text}
    (hm : ∀ c ∈ m.tail, isWordPart c = true) (h : m <:+: cutWord name s) : m <:+: s := by
  revert h
  refine Text.deleteFrom_induction (motive := fun _ s out => m <:+: out → m <:+: s) hn.ne_nil
    ?_ ?_ ?_ none s
  · intro _ h
    exact h
  · intro _ rest _ ih h
    exact (ih h).trans (List.suffix_append name rest).isInfix
  · intro _ c r ih h
    rcases List.infix_cons_iff.mp h with hpre | hinf
    · cases m with
      | nil => exact List.nil_infix
      | cons d m =>
          obtain ⟨rfl, hpre⟩ := List.cons_prefix_cons.mp hpre
          have hrest := hn.isPrefix_of_isPrefix_deleteFrom hm hpre
          exact (List.cons_prefix_cons.mpr ⟨rfl, hrest⟩).isInfix
    · exact List.infix_cons (ih hinf)

end

namespace Modifier

theorem isWordPart_of_mem_tail : ∀ modifier ∈ all, ∀ c ∈ modifier.tail, isWordPart c = true := by
  have hall : all.all (fun modifier => modifier.tail.all isWordPart) = true := by decide
  intro modifier hm
  exact List.all_eq_true.mp (List.all_eq_true.mp hall modifier hm)

theorem Unmodified.cutWord {name : Text} (hn : EndsInWord name) {s : Text} (hs : Unmodified s) :
    Unmodified (cutWord name s) :=
  fun modifier hm h =>
    hs modifier hm (hn.isInfix_of_isInfix_cutWord (isWordPart_of_mem_tail modifier hm) h)

theorem Unmodified.cutWords {e : ExclusionSet} (he : ∀ name ∈ e.names, EndsInWord name) {s : Text}
    (hs : Unmodified s) : Unmodified (e.cutWords s) :=
  ExclusionSet.cutWords_induction (fun name hname _ ht => ht.cutWord (he name hname)) hs

end Modifier

end EditorToolbar
