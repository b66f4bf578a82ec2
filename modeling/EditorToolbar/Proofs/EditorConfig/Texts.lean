import EditorToolbar.EditorConfig
import EditorToolbar.Proofs.ImageToolbar
import EditorToolbar.Proofs.Json.RoundTrip
import EditorToolbar.Proofs.Normalization.Canonical
import EditorToolbar.Proofs.Yaml.Scalar

/-!
# The texts of an editor configuration

The kind of mobile toolbar is any text that the settings give, so a value of a configuration may end
in blanks or in empty lines. But it is never the last one: the last value that is written is the
image toolbar or, without one, the mobile toolbar with more tools. Both are canonical whatever the
settings are, and a canonical text has no blank. So of the YAML text of a configuration nothing but
the line feed at the end can be trimmed, and of the JSON text nothing.
-/

namespace EditorToolbar

open Text (IsCanonical isBlank trimEnd)

theorem Text.IsCanonical.trimEnd_eq_self {s : Text} (h : IsCanonical s) : trimEnd s = s := by
  apply Text.trimEnd_eq_self
  cases hlast : s.getLast? with
  | none => rfl
  | some c => exact h.isBlank_eq_false c (List.mem_of_getLast? hlast)

theorem MobileToolbar.isCanonical_derive (m : MobileToolbar) (n : Normalizer)
    (preset : Option Preset) (e : ExclusionSet) : IsCanonical (m.derive n preset e) := by
  have hdefault : IsCanonical (m.deriveDefault n) := n.canonical_normalize {} m.default
  cases preset with
  | none => exact hdefault
  | some p =>
      rw [derive]
      split
      · exact hdefault
      · exact n.canonical_normalize (m.basicTools.chain e) p.toolbar

theorem ImageToolbar.isCanonical_toText (items : List ImageItem) : IsCanonical (toText items) := by
  rw [toText_eq]
  exact Toolbar.isCanonical_toText (wellFormed_ofRows (filledRows items))

namespace EditorConfig

def lastValue (c : EditorConfig) : Text := c.imageToolbar.getD c.subtoolbarMoreMobile

theorem exists_getLast?_entries (c : EditorConfig) :
    ∃ key, c.entries.getLast? = some (key, c.lastValue) := by
  cases h : c.imageToolbar with
  | none => exact ⟨"subtoolbar_more_mobile".toList, by simp [entries, lastValue, h]⟩
  | some text => exact ⟨"image_toolbar".toList, by simp [entries, lastValue, h]⟩

/-- The last value is canonical, whatever is configured and asked for. -/
theorem isCanonical_lastValue_build (b : Builder) (options : ToolbarOptions) :
    IsCanonical (b.build options).lastValue := by
  rw [lastValue, Builder.build]
  cases options.imageItems with
  | none => exact b.mobile.isCanonical_derive _ _ _
  | some items => exact ImageToolbar.isCanonical_toText items

theorem numberFree_toJson (c : EditorConfig) : c.toJson.NumberFree := by
  refine .object fun field hfield => ?_
  obtain ⟨entry, -, rfl⟩ := List.mem_map.mp hfield
  exact .string entry.2

theorem trimEnd_toJsonText (c : EditorConfig) : trimEnd c.toJsonText = c.toJsonText :=
  c.numberFree_toJson.trimEnd_write

theorem trimEnd_toYamlText {c : EditorConfig} (h : IsCanonical c.lastValue) :
    trimEnd c.toYamlText ++ ['\n'] = c.toYamlText := by
  obtain ⟨key, hlast⟩ := c.exists_getLast?_entries
  obtain ⟨entries, hentries⟩ := List.getLast?_eq_some_iff.mp hlast
  rw [toYamlText, hentries]
  exact Yaml.trimEnd_writeMapping_concat h.trimEnd_eq_self entries key

/-- A value that ends in an empty line, and the value that is written after it. -/
example :
    (Builder.build ⟨{}, ⟨{}, " help ".toList⟩, "basic\n\n".toList⟩ {}).toYamlText =
      "toolbarMobile: |+\n  basic\n\nsubtoolbar_more_mobile: help\n".toList := by
  decide +kernel

end EditorConfig

end EditorToolbar
