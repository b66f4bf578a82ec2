import EditorToolbar.CommandLine.Program
import EditorToolbar.Proofs.EditorConfig.Texts

/-!
# Printing a configuration

The configuration command trims the text of a configuration at the end and prints it as a line. The
JSON text has nothing to trim, and of the YAML text just the line feed is trimmed that comes back
with the end of the line. So what is printed has every character of every value.
-/

namespace EditorToolbar.CommandLine

open Text (trimEnd)

def configOptions (name : Option Text) (excluded : List Text) (imageItems : Option (List Text)) :
    Except Failure ToolbarOptions := do
  let imageItems ← imageItems.mapM fun items =>
    items.mapM fun given => named (ImageItem.ofText given)
  let preset ← name.mapM fun given => named (Preset.ofText given)
  return { preset, excluded, imageItems }

def Format.write (c : EditorConfig) : Format → Text
  | .json => c.toJsonText
  | .yaml => c.toYamlText

/-- Printing fails only if a name is not understood. -/
theorem Command.run_config (settings : Settings) (w : World) (name : Option Text)
    (excluded : List Text) (imageItems : Option (List Text)) (format : Format) :
    run settings w (.config name excluded imageItems format) =
      (configOptions name excluded imageItems).map fun options =>
        line (trimEnd (format.write
          ((EditorConfig.Builder.ofSettings settings).build options))) := by
  rw [run, configOptions]
  cases imageItems.mapM fun items => items.mapM fun given => named (ImageItem.ofText given) with
  | error failure => rfl
  | ok items =>
      cases name.mapM fun given => named (Preset.ofText given) with
      | error failure => rfl
      | ok preset => cases format <;> rfl

/-- Whatever the settings are and whatever is asked for, trimming the JSON text of a configuration
takes nothing away and trimming the YAML text takes the line feed at its end. So the command prints
the JSON text as a line, and the YAML text as it is. -/
theorem config_prints_texts (settings : Settings) :
    let build := (EditorConfig.Builder.ofSettings settings).build
    (∀ options, trimEnd (build options).toJsonText = (build options).toJsonText ∧
        trimEnd (build options).toYamlText ++ ['\n'] = (build options).toYamlText) ∧
      ∀ (w : World) (name : Option Text) (excluded : List Text) (imageItems : Option (List Text)),
        Command.run settings w (.config name excluded imageItems .json) =
            (configOptions name excluded imageItems).map
              (fun options => line (build options).toJsonText) ∧
          Command.run settings w (.config name excluded imageItems .yaml) =
            (configOptions name excluded imageItems).map
              fun options => (build options).toYamlText := by
  intro build
  have hjson (options) : trimEnd (build options).toJsonText = (build options).toJsonText :=
    (build options).trimEnd_toJsonText
  have hyaml (options) :
      trimEnd (build options).toYamlText ++ ['\n'] = (build options).toYamlText :=
    EditorConfig.trimEnd_toYamlText (EditorConfig.isCanonical_lastValue_build _ options)
  refine ⟨fun options => ⟨hjson options, hyaml options⟩, fun w name excluded items => ⟨?_, ?_⟩⟩
  · rw [Command.run_config]
    simp only [Format.write, build, hjson]
  · rw [Command.run_config]
    simp only [Format.write, line, build, hyaml]

end EditorToolbar.CommandLine
