import EditorToolbar.EditorConfig
import EditorToolbar.Proofs.Modifier.Tokens
import EditorToolbar.Proofs.Normalization.Textual
import EditorToolbar.Proofs.Settings.Loading

/-!
# The default settings

The default settings are written down twice: as a settings file, and as the values that are used
where there are no settings. The file describes these values but for one thing, the line breaks in
its default toolbar. A text is read by its tokens, so line breaks between them do not show in any
toolbar that is made of it.
-/

namespace EditorToolbar

open Modifier (strip)
open Token (tokenize)

/-- Without exclusions nothing but the tokens of a text matters. -/
theorem Normalizer.normalize_empty_congr (n : Normalizer) {a b : Text}
    (h : tokenize a = tokenize b) : n.normalize {} a = n.normalize {} b := by
  have hread : Toolbar.ofText (strip a) = Toolbar.ofText (strip b) := by
    rw [Toolbar.ofText, Toolbar.ofText, Token.tokenize_strip, Token.tokenize_strip, h]
  rw [normalize_empty, normalize_empty, repairText, repairText, hread]

theorem MobileToolbar.derive_congr {m m' : MobileToolbar} (htools : m.basicTools = m'.basicTools)
    (hdefault : tokenize m.default = tokenize m'.default) (n : Normalizer)
    (preset : Option Preset) (e : ExclusionSet) : m.derive n preset e = m'.derive n preset e := by
  have hempty : m.deriveDefault n = m'.deriveDefault n := n.normalize_empty_congr hdefault
  cases preset with
  | none => exact hempty
  | some p => rw [derive, derive, htools, hempty]

/-- A configuration shows of a mobile toolbar only what is derived from it. -/
theorem EditorConfig.Builder.build_congr {b b' : Builder}
    (hnormalizer : b.normalizer = b'.normalizer)
    (hmobile : ∀ n preset e, b.mobile.derive n preset e = b'.mobile.derive n preset e)
    (hkind : b.toolbarMobile = b'.toolbarMobile) (options : ToolbarOptions) :
    b.build options = b'.build options := by
  have hcustom : b.custom = b'.custom := by
    funext e p
    rw [custom, custom, hnormalizer]
  rw [build, build, hcustom, hkind, hmobile, hnormalizer]

namespace Settings

/-- The two default toolbars differ in line breaks, and these stand between tokens. -/
theorem defaultToolbar_defaults :
    defaults.mobile.defaultToolbar ≠ MobileToolbar.standard.default ∧
      defaults.mobile.defaultToolbar.filter (· != '\n') = MobileToolbar.standard.default ∧
      tokenize defaults.mobile.defaultToolbar = tokenize MobileToolbar.standard.default := by
  unfold defaults MobileToolbar.standard MobileToolbar.standardRows
  repeat rw [String.toList_ofList]
  decide +kernel

theorem derive_defaults (n : Normalizer) (preset : Option Preset) (e : ExclusionSet) :
    (MobileToolbar.ofSettings defaults.mobile).derive n preset e =
      MobileToolbar.standard.derive n preset e := by
  refine MobileToolbar.derive_congr ?_ ?_ n preset e
  · rw [MobileToolbar.ofSettings, defaults, MobileToolbar.standard]
  · rw [MobileToolbar.ofSettings, defaultToolbar_defaults.2.2]

theorem build_defaults (options : ToolbarOptions) :
    (EditorConfig.Builder.ofSettings defaults).build options =
      ({} : EditorConfig.Builder).build options := by
  refine EditorConfig.Builder.build_congr ?_ (fun n preset e => ?_) ?_ options
  · dsimp only [EditorConfig.Builder.ofSettings, defaults]
    rfl
  · dsimp only [EditorConfig.Builder.ofSettings]
    exact derive_defaults n preset e
  · rfl

/-- The default settings file can be loaded, and an editor configuration that is made from it is the
one that is made without settings, whatever is asked for. So is the mobile toolbar, for every
normalizer, although the default toolbar of the file has line breaks that the other one has not. -/
theorem defaults_agree :
    ∃ s, load {} = .ok s ∧
      (∀ options, (EditorConfig.Builder.ofSettings s).build options =
        ({} : EditorConfig.Builder).build options) ∧
      (∀ n preset e, (MobileToolbar.ofSettings s.mobile).derive n preset e =
        MobileToolbar.standard.derive n preset e) ∧
      s.mobile.defaultToolbar ≠ MobileToolbar.standard.default ∧
      s.mobile.defaultToolbar.filter (· != '\n') = MobileToolbar.standard.default := by
  obtain ⟨hne, hfilter, -⟩ := defaultToolbar_defaults
  exact ⟨defaults, load_nothing, build_defaults, derive_defaults, hne, hfilter⟩

end Settings

end EditorToolbar
