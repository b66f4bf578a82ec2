import EditorToolbar.CommandLine.Invocation
import EditorToolbar.EditorConfig
import EditorToolbar.Settings.Loading
import EditorToolbar.Toolbar.Json

/-!
# The program

What an invocation prints. All that it depends on besides the arguments is a `World`: the texts of
files and the standard input. Names given as options are checked before the settings file is read,
and the settings before anything that the command itself needs.
-/

namespace EditorToolbar.CommandLine

/-- What an invocation can look at. An input that is no text is absent. -/
structure World where
  file : Text → Option Text
  input : Option Text

/-- How the program ends: with output, with an error message, or without having understood its
arguments. -/
inductive Outcome where
  | printed (output : Text)
  | failed (message : Text)
  | misused
  deriving DecidableEq, Repr

inductive Failure where
  | name (e : NameError)
  | settings (e : SettingsError)
  | input
  deriving DecidableEq, Repr

/-- The wording of a failure. That of the settings names no cause: what follows a colon after these
two words is left out. -/
def Failure.message : Failure → Text
  | .name e => e.message
  | .settings _ => "configuration error".toList
  | .input => "i/o error: stream did not contain valid UTF-8".toList

def named {α : Type} (found : Except NameError α) : Except Failure α := found.mapError .name

/-- Where the settings file of a path may be, best first: at the path itself, or with the extension
of settings files appended. -/
def settingsCandidates (path : Text) : List Text :=
  if path.isEmpty then []
  else [path, (path.reverse.dropWhile (· == '/')).reverse ++ ".toml".toList]

def World.settingsFile? (w : World) (path : Text) : Option Text :=
  (settingsCandidates path).findSome? w.file

def Invocation.settings (i : Invocation) (w : World) : Except Failure Settings := do
  let strategy ← i.strategy.mapM fun given => named (Strategy.ofText given)
  let fallbackPreset ← i.fallback.mapM fun given => named (Preset.ofText given)
  let file ←
    match i.settingsPath with
    | none => pure none
    | some path =>
      match w.settingsFile? path with
      | some text => pure (some text)
      | none => throw (.settings .malformed)
  (Settings.load { file, strategy, fallbackPreset }).mapError .settings

def presetListing : Text :=
  "Available presets:\n\n".toList ++
    Preset.all.flatMap fun p =>
      "  ".toList ++ p.name ++ "\n    ".toList ++ p.toolbar ++ "\n\n".toList

def line (s : Text) : Text := s ++ ['\n']

def Command.run (settings : Settings) (w : World) : Command → Except Failure Text
  | .normalize toolbar excluded asJson => do
    let n := Normalizer.ofSettings settings.normalize
    let source ←
      if toolbar = ['-'] then
        match w.input with
        | some text => pure text
        | none => throw .input
      else pure toolbar
    let output := n.normalize (ExclusionSet.ofNames excluded) source
    return line (if asJson then (Toolbar.ofText output).toJsonText else output)
  | .preset name excluded => do
    let p ← named (Preset.ofText name)
    let n := Normalizer.ofSettings settings.normalize
    return line (n.normalizeOrFallback (ExclusionSet.ofNames excluded) p.toolbar)
  | .mobile name excluded => do
    let p ← named (Preset.ofText name)
    let n := Normalizer.ofSettings settings.normalize
    let m := MobileToolbar.ofSettings settings.mobile
    return line (m.derive n (some p) (ExclusionSet.ofNames excluded))
  | .config name excluded imageItems format => do
    let imageItems ← imageItems.mapM fun items =>
      items.mapM fun given => named (ImageItem.ofText given)
    let preset ← name.mapM fun given => named (Preset.ofText given)
    let c := (EditorConfig.Builder.ofSettings settings).build { preset, excluded, imageItems }
    let output := match format with
      | .json => c.toJsonText
      | .yaml => c.toYamlText
    return line output.trimEnd
  | .presets => return presetListing

def Invocation.readsInput (i : Invocation) : Bool :=
  match i.command with
  | .normalize toolbar _ _ => toolbar == ['-']
  | _ => false

def Invocation.run (i : Invocation) (w : World) : Except Failure Text := do
  let settings ← i.settings w
  i.command.run settings w

def versionLine : Text := line "rte-toolbar 0.1.0".toList

/-- A summary of how the program is used. It stands for the help text, whose wording is not part of
the model. -/
def usageText : Text :=
  "Usage: rte-toolbar [OPTIONS] <COMMAND>\n\n".toList ++
    "Commands:\n".toList ++
    "  normalize <TOOLBAR> [-x <TOOL>]... [--json]\n".toList ++
    "  preset <NAME> [-x <TOOL>]...\n".toList ++
    "  mobile <NAME> [-x <TOOL>]...\n".toList ++
    "  config [NAME] [-x <TOOL>]... [-i <IMAGE_TOOL>]... [-f json|yaml]\n".toList ++
    "  presets\n\n".toList ++
    "Options:\n".toList ++
    "  -c, --config <FILE>  -s, --strategy <STRATEGY>  --fallback <PRESET>  -v\n".toList

def run (arguments : List Text) (w : World) : Outcome :=
  match Invocation.ofArguments arguments with
  | .error .usage => .misused
  | .error .version => .printed versionLine
  | .error .help => .printed usageText
  | .ok i =>
    match i.run w with
    | .ok output => .printed output
    | .error e => .failed ("Error: ".toList ++ e.message)

end EditorToolbar.CommandLine
