import EditorToolbar.Settings.Decoding
import EditorToolbar.Settings.DefaultFile
import EditorToolbar.Toml.Document

/-!
# Loading settings

Settings are loaded in three layers: the default settings file, another settings file, and the
overrides that a user gives directly. Each may be missing but the first. An override hides whatever
the files say for its key.
-/

namespace EditorToolbar.Settings

open Toml (Value)

/-- A value that a user gives directly for one of the keys about normalization. -/
inductive Override where
  | strategy (s : Strategy)
  | fallbackPreset (p : Preset)
  deriving DecidableEq, Repr

namespace Override

def key : Override → Text
  | strategy _ => strategyKey
  | fallbackPreset _ => fallbackPresetKey

def name : Override → Text
  | strategy s => s.name
  | fallbackPreset p => p.name

def lay (v : Value) (o : Override) : Value :=
  Layer.set [normalizeKey, o.key] (.string o.name) (some v)

end Override

/-- What is laid over the default settings: the text of a settings file and the overrides. -/
structure Sources where
  file : Option Text := none
  strategy : Option Strategy := none
  fallbackPreset : Option Preset := none

def Sources.overrides (sources : Sources) : List Override :=
  (sources.strategy.map .strategy).toList ++ (sources.fallbackPreset.map .fallbackPreset).toList

/-- The document of a settings file; no file is an empty document. -/
def readFile : Option Text → Except SettingsError Value
  | none => .ok (.table [])
  | some text =>
    match Toml.ofText? text with
    | some document => .ok document
    | none => .error .malformed

/-- Documents laid over each other, the first one lowest. -/
def layers (documents : List Value) : Value :=
  documents.foldl (fun below document => Layer.mergeDocument below (Layer.entries document))
    (.table [])

/-- The settings of a file and of overrides that are laid over it one after another. -/
def loadWith (file : Option Text) (overrides : List Override) : Except SettingsError Settings := do
  let lowest ← readFile (some defaultFile)
  let document ← readFile file
  ofValue (overrides.foldl Override.lay (layers [lowest, document]))

def load (sources : Sources) : Except SettingsError Settings :=
  loadWith sources.file sources.overrides

end EditorToolbar.Settings
