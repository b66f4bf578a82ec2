import EditorToolbar.EditorConfig
import EditorToolbar.Proofs.Normalization.Fallback
import EditorToolbar.Proofs.Normalization.Presets

/-!
# The main toolbar of an editor configuration

There is a main toolbar of its own exactly if a preset is given. Without exclusions it is the preset
as it stands, in whatever form that is written. Otherwise it is a normal form, that of the preset
or, if nothing is left of the preset, that of the fallback. Since the fallback is a preset too, the
result is never empty, and no modifier comes back under either strategy.
-/

namespace EditorToolbar.EditorConfig

open Modifier (Unmodified)

namespace Builder

theorem custom_of_isEmpty (b : Builder) {e : ExclusionSet} (h : e.isEmpty = true) (p : Preset) :
    b.custom e p = p.toolbar := by
  rw [custom, if_pos h]

theorem custom_of_not_isEmpty (b : Builder) {e : ExclusionSet} (h : e.isEmpty = false)
    (p : Preset) : b.custom e p = b.normalizer.normalizeOrFallback e p.toolbar := by
  rw [custom, h, if_neg Bool.false_ne_true]

end Builder

section

variable (s : NormalizeSettings) (e : ExclusionSet) (p : Preset)

theorem normalizeOrFallback_preset_ne_nil :
    (Normalizer.ofSettings s).normalizeOrFallback e p.toolbar ≠ [] :=
  Normalizer.normalizeOrFallback_ofSettings_ne_nil s e p.toolbar

theorem unmodified_normalizeOrFallback_preset :
    Unmodified ((Normalizer.ofSettings s).normalizeOrFallback e p.toolbar) :=
  Normalizer.normalizeOrFallback_induction _ (Normalizer.unmodified_normalize_preset _ e p)
    (Normalizer.unmodified_normalize_preset _ {} s.fallbackPreset)

/-- Under the structural strategy the fallback takes the place of a preset exactly if every tool of
it is excluded. -/
theorem normalizeOrFallback_preset_structural (hs : s.strategy = .structural) :
    let n := Normalizer.ofSettings s
    ((∀ name ∈ p.tools, e.contains name = true) →
        n.normalizeOrFallback e p.toolbar = n.normalize {} s.fallbackPreset.toolbar) ∧
      ((∃ name ∈ p.tools, e.contains name = false) →
        (Toolbar.ofText (n.normalizeOrFallback e p.toolbar)).tools =
          p.tools.filter fun name => !e.contains name) := by
  intro n
  have hn : n = ⟨.structural, s.minFragmentRun, s.fallbackPreset.toolbar⟩ := by
    rw [← hs]
    rfl
  constructor
  · intro hall
    apply Normalizer.normalizeOrFallback_of_eq_nil n
    rwa [hn, Normalizer.normalize_preset_eq_nil_iff]
  · intro hleft
    have hne : n.normalize e p.toolbar ≠ [] := by
      rwa [hn, Normalizer.normalize_preset_ne_nil_iff]
    rw [Normalizer.normalizeOrFallback_of_ne_nil n hne, hn, Normalizer.tools_normalize_preset]

end

/-- There is a main toolbar of its own exactly if a preset is given. If no names are excluded it is
the preset as it stands. Otherwise it is not empty, reading it and writing it again leaves it alone,
and it has no modifier; and under the structural strategy it is the normal form of the fallback if
every tool of the preset is excluded, and else has the tools of the preset that are not. -/
theorem build_toolbarCustom (s : Settings) (options : ToolbarOptions) :
    let c := (Builder.ofSettings s).build options
    let n := Normalizer.ofSettings s.normalize
    let e := ExclusionSet.ofNames options.excluded
    c.toolbar.isSome = options.preset.isSome ∧ c.toolbarCustom.isSome = options.preset.isSome ∧
      ∀ p, options.preset = some p → ∃ text, c.toolbarCustom = some text ∧
        (e.isEmpty = true → text = p.toolbar) ∧
        (e.isEmpty = false →
          text ≠ [] ∧ (Toolbar.ofText text).toText = text ∧ Unmodified text ∧
            (s.normalize.strategy = .structural →
              ((∀ name ∈ p.tools, e.contains name = true) →
                  text = n.normalize {} s.normalize.fallbackPreset.toolbar) ∧
                ((∃ name ∈ p.tools, e.contains name = false) →
                  (Toolbar.ofText text).tools =
                    p.tools.filter fun name => !e.contains name))) := by
  intro c n e
  refine ⟨Option.isSome_map, Option.isSome_map, fun p hp => ?_⟩
  have hcustom : c.toolbarCustom = some ((Builder.ofSettings s).custom e p) := by
    change options.preset.map _ = _
    rw [hp]
    rfl
  refine ⟨_, hcustom, (Builder.custom_of_isEmpty _ · p), fun hexcluded => ?_⟩
  rw [Builder.custom_of_not_isEmpty _ hexcluded]
  exact ⟨normalizeOrFallback_preset_ne_nil s.normalize e p,
    Normalizer.toText_ofText_normalizeOrFallback n e p.toolbar,
    unmodified_normalizeOrFallback_preset s.normalize e p,
    normalizeOrFallback_preset_structural s.normalize e p⟩

/-- Every tool of the preset is excluded, one by a name with a modifier and one by a name with blanks
around it. -/
theorem build_toolbarCustom_minimal :
    let s := Settings.defaults
    let excluded := ["bold", " italic\n", "fontsize:toggle", "forecolor", "removeformat"]
    let options : ToolbarOptions := { preset := some .minimal, excluded := excluded.map (·.toList) }
    ∃ text, ((Builder.ofSettings s).build options).toolbarCustom = some text ∧ text ≠ [] ∧
      Unmodified text ∧ text = Preset.basic.toolbar := by
  intro s excluded options
  have hall : ∀ name ∈ Preset.minimal.tools,
      (ExclusionSet.ofNames options.excluded).contains name = true := by decide +kernel
  obtain ⟨-, -, hcustom⟩ := build_toolbarCustom s options
  obtain ⟨text, htext, -, hexcluded⟩ := hcustom .minimal rfl
  obtain ⟨hne, -, hunmodified, hstructural⟩ := hexcluded (by decide +kernel)
  refine ⟨text, htext, hne, hunmodified, ((hstructural rfl).1 hall).trans ?_⟩
  decide +kernel

end EditorToolbar.EditorConfig
