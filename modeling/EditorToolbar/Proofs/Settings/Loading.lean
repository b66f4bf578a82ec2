import EditorToolbar.Proofs.Settings.Decoding
import EditorToolbar.Proofs.Toml.Value
import EditorToolbar.Settings.Loading

/-!
# What settings are laid over

The default settings file describes the default settings (`ofText?_defaultFile`). So these are what
other files and overrides are laid over, and what is loaded where there is nothing else.
-/

namespace EditorToolbar.Settings

open Toml (Value)

/-- The default settings file describes the default settings. -/
theorem ofText?_defaultFile : Toml.ofText? defaultFile = some defaults.toValue := by
  unfold defaultFile defaultLines defaults MobileToolbar.standardTools MobileToolbar.standardRows
  -- evaluating the strings themselves would take most of the time
  repeat rw [String.toList_ofList]
  decide +kernel

theorem layers_toValue (s : Settings) : layers [s.toValue] = s.toValue := by
  rw [layers]
  rfl

/-- What a file is laid over are the default settings. -/
theorem loadWith_eq (file : Option Text) (overrides : List Override) :
    loadWith file overrides = readFile file >>= fun document =>
      ofValue (overrides.foldl Override.lay (layers [defaults.toValue, document])) := by
  rw [loadWith, readFile, ofText?_defaultFile]
  rfl

theorem layers_concat_empty (documents : List Value) :
    layers (documents ++ [.table []]) = layers documents := by
  rw [layers, List.foldl_append, ← layers]
  rfl

theorem load_nothing : load {} = .ok defaults := by
  have hload : load {} = ofValue (layers ([defaults.toValue] ++ [.table []])) := loadWith_eq none []
  rw [hload, layers_concat_empty, layers_toValue, ofValue_toValue]

end EditorToolbar.Settings
