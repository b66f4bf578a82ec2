import EditorToolbar.Proofs.Normalization.Letters
import EditorToolbar.Proofs.Normalization.Textual

/-!
# Normal forms without modifiers

Modifiers are stripped once, before anything is removed. The structural strategy brings none back,
since it removes whole tools, and mending makes parts of names or words in small letters. The
textual strategy cuts names out of the text, and there the two sides of a gap can close up to a
modifier, as in `:tog-gle` when the name `-` is cut. They cannot if the name ends in a word, nor if
there is no colon in the text to begin with.
-/

namespace EditorToolbar.Normalizer

open Modifier (Unmodified)

variable {minRun : Nat} {e : ExclusionSet}

theorem unmodified_toText_settledToolbar (minRun : Nat) (e : ExclusionSet) (text : Text) :
    Unmodified (settledToolbar minRun e (Modifier.strip text)).toText :=
  Toolbar.unmodified_toText (wellFormed_settledToolbar minRun e _)
    (unmodified_of_mem_settledToolbar (Modifier.unmodified_strip text))

theorem unmodified_settledText (he : ∀ name ∈ e.names, EndsInWord name) (text : Text) :
    Unmodified (settledText minRun e (Modifier.strip text)) :=
  settledText_induction (fun _ ht => unmodified_repairText minRun (ht.cutWords he))
    (Modifier.unmodified_strip text)

/-- A normal form holds no modifier under the structural strategy, whatever is excluded, and under
the textual one if every excluded name ends in a word. -/
theorem unmodified_normalize (n : Normalizer) (e : ExclusionSet)
    (he : n.strategy = .textual → ∀ name ∈ e.names, EndsInWord name) (text : Text) :
    Unmodified (n.normalize e text) := by
  unfold normalize
  cases hstrategy : n.strategy with
  | structural => exact unmodified_toText_settledToolbar n.minRun e text
  | textual => exact unmodified_settledText (he hstrategy) text

theorem unmodified_normalize_of_colon_notMem (n : Normalizer) (e : ExclusionSet) {text : Text}
    (h : ':' ∉ Modifier.strip text) : Unmodified (n.normalize e text) := by
  apply Modifier.unmodified_of_colon_notMem
  intro hmem
  have hletter : ':' ∈ Token.letters (n.normalize e text) :=
    List.mem_filter.mpr ⟨hmem, by decide⟩
  exact h (List.mem_filter.mp ((letters_normalize_sublist n e text).subset hletter)).1

/-- The first `-bold` is cut. The second one then stands before a word and keeps the colon from it,
though the name begins with a character that is no letter. -/
theorem unmodified_normalize_colon_bold_toggle :
    let n : Normalizer := ⟨.textual, 3, []⟩
    let e := ExclusionSet.ofNames ["-bold:toggle".toList]
    let text := "italic:-bold-boldtoggle".toList
    (∀ name ∈ e.names, EndsInWord name) ∧ n.normalize e text = "italic:-boldtoggle".toList ∧
      Unmodified (n.normalize e text) := by
  intro n e text
  have he : ∀ name ∈ e.names, EndsInWord name := by decide +kernel
  have hout : n.normalize e text = "italic:-boldtoggle".toList := by decide +kernel
  exact ⟨he, hout, unmodified_normalize n e (fun _ => he) text⟩

/-- Cutting a hyphen puts a modifier together, which stripping would take away. -/
theorem modified_normalize_textual_hyphen :
    let n : Normalizer := ⟨.textual, 3, []⟩
    let e := ExclusionSet.ofNames ["-".toList]
    let text := "bold:tog-gle,italic".toList
    n.normalize e text = "bold:toggle,italic".toList ∧ ¬ Unmodified (n.normalize e text) ∧
      n.normalize e (n.normalize e text) = "bold,italic".toList := by
  intro n e text
  have hout : n.normalize e text = "bold:toggle,italic".toList := by decide +kernel
  have hmodifier : ":toggle".toList <:+: n.normalize e text := by
    rw [hout]
    decide +kernel
  refine ⟨hout, fun h => h _ (by decide) hmodifier, ?_⟩
  rw [hout]
  decide +kernel

end EditorToolbar.Normalizer
