import EditorToolbar.Text.Basic

/-!
# Errors

Toolbar texts never fail to read. What can fail is a name that has to be one of a fixed list, the
settings file, and the standard input. Each failure is a cause; `message` words it.
-/

namespace EditorToolbar

/-- A name that is none of those expected. The name is kept as it was given. -/
inductive NameError where
  | preset (given : Text)
  | strategy (given : Text)
  | imageTool (given : Text)
  deriving DecidableEq, Repr

def NameError.message : NameError → Text
  | .preset given =>
    "unknown toolbar preset '".toList ++ given ++
      "' (expected one of BASIC, STANDARD, FULL, MINIMAL)".toList
  | .strategy given =>
    "unknown normalization strategy '".toList ++ given ++
      "' (expected structural or textual)".toList
  | .imageTool given => "unknown image tool '".toList ++ given ++ "'".toList

/-- What can be wrong with a settings file: it is missing or malformed, a value has a type that
cannot be converted, or the values do not form settings in some other way. -/
inductive SettingsError where
  | malformed
  | wrongType
  | invalid
  deriving DecidableEq, Repr

end EditorToolbar
