import EditorToolbar.Proofs.Normalization.Undamaged
import EditorToolbar.Proofs.Normalization.Unmodified

/-!
# Normalizing the presets

The presets are undamaged toolbars. So removing the excluded tools from a preset is all that the
structural strategy does, whatever the limit for runs is, and the result is empty exactly if every
tool is excluded. A stripped preset has no colon, so neither strategy can bring a modifier into it,
whatever the excluded names are.
-/

namespace EditorToolbar

open Modifier (strip)

namespace Preset

/-- The tools of a preset, without their modifiers. -/
def tools (p : Preset) : List ToolName := (Toolbar.ofText (strip p.toolbar)).tools

theorem undamaged_and_plain (p : Preset) :
    (Toolbar.ofText (strip p.toolbar)).Undamaged ∧ ':' ∉ strip p.toolbar ∧ p.tools ≠ [] := by
  unfold tools
  cases p
  all_goals
    unfold toolbar
    dsimp only
    -- evaluating the strings themselves would take most of the time
    repeat rw [String.toList_ofList]
    decide +kernel

theorem undamaged (p : Preset) : (Toolbar.ofText (strip p.toolbar)).Undamaged :=
  p.undamaged_and_plain.1

theorem colon_notMem (p : Preset) : ':' ∉ strip p.toolbar := p.undamaged_and_plain.2.1

theorem tools_ne_nil (p : Preset) : p.tools ≠ [] := p.undamaged_and_plain.2.2

end Preset

namespace Normalizer

theorem unmodified_normalize_preset (n : Normalizer) (e : ExclusionSet) (p : Preset) :
    Modifier.Unmodified (n.normalize e p.toolbar) :=
  unmodified_normalize_of_colon_notMem n e p.colon_notMem

section

variable (minRun : Nat) (fallback : Text) (e : ExclusionSet) (p : Preset)

/-- A preset only loses the excluded tools. -/
theorem normalize_preset : (⟨.structural, minRun, fallback⟩ : Normalizer).normalize e p.toolbar =
    (e.apply (Toolbar.ofText (strip p.toolbar))).toText :=
  toText_settledToolbar_of_undamaged p.undamaged minRun e

theorem tools_normalize_preset :
    (Toolbar.ofText ((⟨.structural, minRun, fallback⟩ : Normalizer).normalize e p.toolbar)).tools =
      p.tools.filter fun name => !e.contains name := by
  rw [normalize_preset, tools_ofText_toText_apply, Preset.tools]

theorem normalize_preset_eq_nil_iff :
    (⟨.structural, minRun, fallback⟩ : Normalizer).normalize e p.toolbar = [] ↔
      ∀ name ∈ p.tools, e.contains name = true := by
  rw [normalize_preset, Toolbar.toText_eq_nil_iff, ExclusionSet.tools_apply, List.filter_eq_nil_iff]
  · simp [Preset.tools]
  · exact ExclusionSet.wellFormed_apply (Toolbar.wellFormed_ofText _) e

theorem normalize_preset_ne_nil_iff :
    (⟨.structural, minRun, fallback⟩ : Normalizer).normalize e p.toolbar ≠ [] ↔
      ∃ name ∈ p.tools, e.contains name = false := by
  simp only [Ne, normalize_preset_eq_nil_iff, not_forall, Bool.not_eq_true, exists_prop]

end

end Normalizer

end EditorToolbar
