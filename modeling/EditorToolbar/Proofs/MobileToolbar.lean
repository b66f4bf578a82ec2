import EditorToolbar.Proofs.Exclusion.Names
import EditorToolbar.Proofs.Normalization.Fallback
import EditorToolbar.Proofs.Normalization.Presets
import EditorToolbar.Settings.Basic

/-!
# Deriving the mobile toolbar

Under the structural strategy a preset only loses the excluded tools, and nothing is left of it
exactly if every tool is excluded. Only then, or without a preset, the default takes its place, and
the default has tools after normalizing if it had some before.

The tools of the basic toolbar and those of the caller are combined into one set. The caller's names
are cleaned once more on the way, which does not change a name that a tool can have.
-/

namespace EditorToolbar

open Modifier (strip)
open Text (IsCanonical)
open Token (IsName)

/-- What a combined set does not exclude, neither of its parts excludes. -/
theorem ExclusionSet.contains_eq_false_of_chain {e other : ExclusionSet} (hother : other.Built)
    {name : ToolName} (hname : IsName name) (h : (e.chain other).contains name = false) :
    e.contains name = false ∧ other.contains name = false := by
  rw [← Bool.not_eq_true, contains_iff, chain, mem_names_foldl_insert, not_or] at h
  rw [← Bool.not_eq_true, ← Bool.not_eq_true, contains_iff, contains_iff]
  refine ⟨h.1, fun hmem => h.2 ⟨hname.1, name, hmem, ?_⟩⟩
  exact clean_of_isName hname (hother.unmodified name hmem)

namespace MobileToolbar

variable (m : MobileToolbar) (n : Normalizer) {p : Preset} {e : ExclusionSet}

theorem derive_of_eq_nil (h : n.normalize (m.basicTools.chain e) p.toolbar = []) :
    m.derive n (some p) e = n.normalize {} m.default := by
  rw [derive, h]
  rfl

theorem derive_of_ne_nil (h : n.normalize (m.basicTools.chain e) p.toolbar ≠ []) :
    m.derive n (some p) e = n.normalize (m.basicTools.chain e) p.toolbar := by
  simp [derive, h]

/-- If the default has a tool, nothing empty is ever shown. -/
theorem derive_ne_nil (h : (Toolbar.ofText (strip m.default)).tools ≠ []) (preset : Option Preset) :
    m.derive n preset e ≠ [] := by
  have hdefault : n.normalize {} m.default ≠ [] := n.normalize_empty_ne_nil h
  cases preset with
  | none => exact hdefault
  | some p =>
      by_cases hnil : n.normalize (m.basicTools.chain e) p.toolbar = []
      · rwa [derive_of_eq_nil m n hnil]
      · rwa [derive_of_ne_nil m n hnil]

/-- Without a preset, or if every tool of the preset is excluded, the default toolbar is shown, in
normal form. Otherwise what is shown is canonical, its tools are those of the preset that are not
excluded, and none of them is a tool of the basic toolbar or excluded by the caller. If the default
has a tool, nothing empty is ever shown. -/
theorem derive_structural (s : MobileSettings) (minRun : Nat) (fallback : Text)
    (preset : Option Preset) {e : ExclusionSet} (he : e.Built) :
    let m := MobileToolbar.ofSettings s
    let n : Normalizer := ⟨.structural, minRun, fallback⟩
    let x := m.basicTools.chain e
    let out := m.derive n preset e
    ((preset = none ∨ ∃ p, preset = some p ∧ ∀ name ∈ p.tools, x.contains name = true) →
        out = n.normalize {} s.defaultToolbar) ∧
      (∀ p, preset = some p → (∃ name ∈ p.tools, x.contains name = false) →
        out ≠ [] ∧ IsCanonical out ∧
          (Toolbar.ofText out).tools = p.tools.filter (fun name => !x.contains name) ∧
          ∀ name ∈ (Toolbar.ofText out).tools,
            m.basicTools.contains name = false ∧ e.contains name = false) ∧
      ((Toolbar.ofText (strip s.defaultToolbar)).tools ≠ [] → out ≠ []) := by
  intro m n x out
  refine ⟨?_, ?_, fun h => derive_ne_nil m n h preset⟩
  · rintro (rfl | ⟨p, rfl, hall⟩)
    · rfl
    · exact derive_of_eq_nil m n ((Normalizer.normalize_preset_eq_nil_iff ..).mpr hall)
  · rintro p rfl hleft
    have hne : n.normalize x p.toolbar ≠ [] := (Normalizer.normalize_preset_ne_nil_iff ..).mpr hleft
    have hout : out = n.normalize x p.toolbar := derive_of_ne_nil m n hne
    have htools : (Toolbar.ofText out).tools = p.tools.filter fun name => !x.contains name := by
      rw [hout, Normalizer.tools_normalize_preset]
    refine ⟨hout ▸ hne, hout ▸ Normalizer.canonical_normalize .., htools, ?_⟩
    intro name hname
    have hisName : IsName name := (Toolbar.wellFormed_ofText out).names name hname
    rw [htools, List.mem_filter, Bool.not_eq_true'] at hname
    exact ExclusionSet.contains_eq_false_of_chain he hisName hname.2

/-- Two tools are left of the preset. -/
theorem derive_structural_minimal :
    let s : MobileSettings := ⟨["bold".toList, "fontsize:toggle".toList], "help".toList⟩
    let e := ExclusionSet.ofNames [" removeformat ".toList]
    let out := (MobileToolbar.ofSettings s).derive ⟨.structural, 3, []⟩ (some .minimal) e
    e.Built ∧ IsCanonical out ∧
      (Toolbar.ofText out).tools = ["italic".toList, "forecolor".toList] := by
  intro s e out
  have he : e.Built := .ofNames _
  have hleft : ∃ name ∈ Preset.minimal.tools,
      ((MobileToolbar.ofSettings s).basicTools.chain e).contains name = false :=
    ⟨"italic".toList, by decide +kernel⟩
  obtain ⟨-, hcanonical, htools, -⟩ :=
    (derive_structural s 3 [] (some .minimal) he).2.1 .minimal rfl hleft
  refine ⟨he, hcanonical, htools.trans ?_⟩
  decide +kernel

end MobileToolbar

end EditorToolbar
