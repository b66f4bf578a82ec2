import EditorToolbar.MobileToolbar
import EditorToolbar.Toml.Value

/-!
# Settings

What a settings file can change: how toolbars are normalized, the mobile toolbar, and the toolbar
kind the editor shows on mobile devices. Settings that a file leaves out keep their `defaults`.
`Settings.toValue` gives settings the shape that they have in a file.
-/

namespace EditorToolbar

structure NormalizeSettings where
  strategy : Strategy := .structural
  fallbackPreset : Preset := .basic
  minFragmentRun : Nat := 3
  deriving DecidableEq, Repr

structure MobileSettings where
  basicTools : List Text
  defaultToolbar : Text
  deriving DecidableEq, Repr

structure EditorSettings where
  toolbarMobile : Text
  deriving DecidableEq, Repr

structure Settings where
  normalize : NormalizeSettings
  mobile : MobileSettings
  editor : EditorSettings
  deriving DecidableEq, Repr

namespace Settings

/-- The settings without a settings file. The default toolbar has one row to a line. -/
def defaults : Settings where
  normalize := {}
  mobile :=
    { basicTools := MobileToolbar.standardTools
      defaultToolbar := MobileToolbar.standardRows.flatMap fun row => row ++ ['\n'] }
  editor := { toolbarMobile := "basic".toList }

def normalizeKey : Text := "normalize".toList

def strategyKey : Text := "strategy".toList

def fallbackPresetKey : Text := "fallback_preset".toList

def minFragmentRunKey : Text := "min_fragment_run".toList

def mobileKey : Text := "mobile".toList

def basicToolsKey : Text := "basic_tools".toList

def defaultToolbarKey : Text := "default_toolbar".toList

def editorKey : Text := "editor".toList

def toolbarMobileKey : Text := "toolbar_mobile".toList

/-- Settings as the tables of a settings file. -/
def toValue (s : Settings) : Toml.Value :=
  .table
    [(normalizeKey, .table
      [(strategyKey, .string s.normalize.strategy.name),
        (fallbackPresetKey, .string s.normalize.fallbackPreset.name),
        (minFragmentRunKey, .integer s.normalize.minFragmentRun)]),
    (mobileKey, .table
      [(basicToolsKey, .array (s.mobile.basicTools.map .string)),
        (defaultToolbarKey, .string s.mobile.defaultToolbar)]),
    (editorKey, .table [(toolbarMobileKey, .string s.editor.toolbarMobile)])]

end Settings

def Normalizer.ofSettings (s : NormalizeSettings) : Normalizer :=
  { strategy := s.strategy, minRun := s.minFragmentRun, fallback := s.fallbackPreset.toolbar }

def MobileToolbar.ofSettings (s : MobileSettings) : MobileToolbar :=
  ⟨ExclusionSet.ofNames s.basicTools, s.defaultToolbar⟩

end EditorToolbar
