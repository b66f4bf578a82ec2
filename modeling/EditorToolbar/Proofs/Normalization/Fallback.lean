import EditorToolbar.Proofs.Normalization.Canonical
import EditorToolbar.Proofs.Normalization.Letters
import EditorToolbar.Proofs.Normalization.Presets
import EditorToolbar.Settings.Basic

/-!
# Falling back

If nothing is left of a toolbar, the normal form of the fallback takes its place. That nothing is
left is seen from the normal form being empty, and this says what it should: a normal form is
written of a toolbar, so it is empty only if it has no tool. Without exclusions no letter gets lost
under either strategy, whatever is rejoined or split on the way; so the normal form is empty exactly
if the stripped text has nothing but separators and blanks.

What is handed out in the end is a normal form in either case. It is empty only if the fallback has
no tool either, and the fallback that settings ask for is a preset, which has.
-/

namespace EditorToolbar

open Token (letters isNameChar)

theorem Token.isNameChar_eq_false_iff (c : Char) :
    isNameChar c = false ↔ (ofSeparator? c).isSome = true ∨ Text.isBlank c = true := by
  rw [isNameChar, Bool.and_eq_false_iff]
  simp

theorem Token.letters_eq_nil_iff (s : Text) :
    letters s = [] ↔ ∀ c ∈ s, (ofSeparator? c).isSome = true ∨ Text.isBlank c = true := by
  simp only [letters, List.filter_eq_nil_iff, Bool.not_eq_true, isNameChar_eq_false_iff]

theorem Toolbar.tools_ofText_eq_nil_iff (s : Text) : (ofText s).tools = [] ↔ letters s = [] := by
  rw [← flatten_tools_ofText]
  constructor
  · intro h
    rw [h]
    rfl
  · intro h
    refine List.eq_nil_iff_forall_not_mem.mpr fun name hname => ?_
    have hempty : name = [] := List.flatten_eq_nil_iff.mp h name hname
    exact ((wellFormed_ofText s).names name hname).1 hempty

namespace Normalizer

variable (n : Normalizer) {e : ExclusionSet} {text : Text}

/-- A normal form without letters is empty: it has no separators that separate nothing. -/
theorem normalize_eq_nil_iff_letters (e : ExclusionSet) (text : Text) :
    n.normalize e text = [] ↔ letters (n.normalize e text) = [] := by
  rw [← Toolbar.tools_ofText_eq_nil_iff, ← Toolbar.toText_eq_nil_iff (Toolbar.wellFormed_ofText _),
    toText_ofText_normalize]

theorem normalize_empty_eq_nil_iff (text : Text) :
    n.normalize {} text = [] ↔ (Toolbar.ofText (Modifier.strip text)).tools = [] := by
  rw [normalize_eq_nil_iff_letters, normalize_empty, letters_repairText,
    Toolbar.tools_ofText_eq_nil_iff]

/-- Without exclusions a text that has tools does not come out empty. -/
theorem normalize_empty_ne_nil (h : (Toolbar.ofText (Modifier.strip text)).tools ≠ []) :
    n.normalize {} text ≠ [] :=
  (n.normalize_empty_eq_nil_iff text).not.mpr h

theorem normalizeOrFallback_of_eq_nil (h : n.normalize e text = []) :
    n.normalizeOrFallback e text = n.normalize {} n.fallback := by
  rw [normalizeOrFallback, h]
  rfl

theorem normalizeOrFallback_of_ne_nil (h : n.normalize e text ≠ []) :
    n.normalizeOrFallback e text = n.normalize e text := by
  simp [normalizeOrFallback, h]

/-- What holds of both normal forms holds of the one that is handed out. -/
theorem normalizeOrFallback_induction {P : Text → Prop} (htext : P (n.normalize e text))
    (hfallback : P (n.normalize {} n.fallback)) : P (n.normalizeOrFallback e text) := by
  by_cases h : n.normalize e text = []
  · rw [normalizeOrFallback_of_eq_nil n h]
    exact hfallback
  · rw [normalizeOrFallback_of_ne_nil n h]
    exact htext

theorem toText_ofText_normalizeOrFallback (e : ExclusionSet) (text : Text) :
    (Toolbar.ofText (n.normalizeOrFallback e text)).toText = n.normalizeOrFallback e text :=
  normalizeOrFallback_induction n (P := fun s => (Toolbar.ofText s).toText = s)
    (toText_ofText_normalize n e text) (toText_ofText_normalize n {} n.fallback)

theorem normalizeOrFallback_eq_nil_iff (e : ExclusionSet) (text : Text) :
    n.normalizeOrFallback e text = [] ↔
      n.normalize e text = [] ∧ (Toolbar.ofText (Modifier.strip n.fallback)).tools = [] := by
  by_cases h : n.normalize e text = []
  · rw [normalizeOrFallback_of_eq_nil n h, normalize_empty_eq_nil_iff, and_iff_right h]
  · rw [normalizeOrFallback_of_ne_nil n h]
    exact ⟨fun hnil => absurd hnil h, fun hnil => hnil.1⟩

theorem normalizeOrFallback_ne_nil (h : (Toolbar.ofText (Modifier.strip n.fallback)).tools ≠ [])
    (e : ExclusionSet) (text : Text) : n.normalizeOrFallback e text ≠ [] :=
  fun hnil => h ((n.normalizeOrFallback_eq_nil_iff e text).mp hnil).2

theorem normalizeOrFallback_ofSettings_ne_nil (s : NormalizeSettings) (e : ExclusionSet)
    (text : Text) : (ofSettings s).normalizeOrFallback e text ≠ [] :=
  normalizeOrFallback_ne_nil (ofSettings s) s.fallbackPreset.tools_ne_nil e text

/-- Without exclusions a normal form is empty exactly if the stripped text has only separators and
blanks. The normal form of the fallback takes the place of an empty one, and only of an empty one;
so what is handed out is empty exactly if the normal form is and the stripped fallback has no tool,
and never if the fallback is the one that settings ask for. -/
theorem normalize_nil_and_fallback (n : Normalizer) (e : ExclusionSet) (text : Text) :
    (n.normalize {} text = [] ↔ ∀ c ∈ Modifier.strip text,
        (Token.ofSeparator? c).isSome = true ∨ Text.isBlank c = true) ∧
      (n.normalize e text ≠ [] → n.normalizeOrFallback e text = n.normalize e text) ∧
      (n.normalize e text = [] → n.normalizeOrFallback e text = n.normalize {} n.fallback) ∧
      (n.normalizeOrFallback e text = [] ↔
        n.normalize e text = [] ∧ (Toolbar.ofText (Modifier.strip n.fallback)).tools = []) ∧
      ∀ s : NormalizeSettings, (ofSettings s).normalizeOrFallback e text ≠ [] := by
  refine ⟨?_, n.normalizeOrFallback_of_ne_nil, n.normalizeOrFallback_of_eq_nil,
    n.normalizeOrFallback_eq_nil_iff e text,
    fun s => normalizeOrFallback_ofSettings_ne_nil s e text⟩
  rw [normalize_empty_eq_nil_iff, Toolbar.tools_ofText_eq_nil_iff, Token.letters_eq_nil_iff]

/-- Of the first text nothing is left once the excluded name has been rejoined. The fallback is all
separators and blanks once its nested modifiers are stripped. -/
theorem normalizeOrFallback_spelled_bold :
    let n : Normalizer := ⟨.textual, 3, ":tog:togglegle | \x7b\x7d".toList⟩
    let e := ExclusionSet.ofNames ["bold".toList]
    let gone := "b,o\x7b\x7dl,d".toList
    let left := "bold,code".toList
    n.normalize e gone = [] ∧ n.normalizeOrFallback e gone = n.normalize {} n.fallback ∧
      n.normalizeOrFallback e gone = [] ∧
      n.normalize e left = "code".toList ∧ n.normalizeOrFallback e left = "code".toList := by
  intro n e gone left
  have hgone : n.normalize e gone = [] := by decide +kernel
  have hleft : n.normalize e left = "code".toList := by decide +kernel
  have hfallback : (Toolbar.ofText (Modifier.strip n.fallback)).tools = [] := by decide +kernel
  have hne : n.normalize e left ≠ [] := by
    rw [hleft]
    decide
  obtain ⟨-, -, hempty, hnil, -⟩ := normalize_nil_and_fallback n e gone
  obtain ⟨-, hnormal, -⟩ := normalize_nil_and_fallback n e left
  exact ⟨hgone, hempty hgone, hnil.mpr ⟨hgone, hfallback⟩, hleft, (hnormal hne).trans hleft⟩

end Normalizer

end EditorToolbar
