import EditorToolbar.ImageToolbar
import EditorToolbar.Json.Basic
import EditorToolbar.Settings.Basic
import EditorToolbar.Yaml.Scalar

/-!
# The editor configuration

All toolbars of an editor together: the main toolbar, which is custom if a preset is given and left
to the editor otherwise, the mobile toolbars, and the image toolbar, which the editor expects under
three keys. A key without a value is left out.
-/

namespace EditorToolbar

structure ToolbarOptions where
  preset : Option Preset := none
  excluded : List Text := []
  imageItems : Option (List ImageItem) := none

structure EditorConfig where
  toolbar : Option Text
  toolbarCustom : Option Text
  toolbarMobile : Text
  subtoolbarMoreMobile : Text
  imageToolbar : Option Text
  deriving DecidableEq, Repr

structure EditorConfig.Builder where
  normalizer : Normalizer := {}
  mobile : MobileToolbar := MobileToolbar.standard
  toolbarMobile : Text := "basic".toList

namespace EditorConfig

def Builder.ofSettings (s : Settings) : Builder where
  normalizer := Normalizer.ofSettings s.normalize
  mobile := MobileToolbar.ofSettings s.mobile
  toolbarMobile := s.editor.toolbarMobile

/-- The main toolbar for a preset. Without exclusions it is the preset as it stands. -/
def Builder.custom (b : Builder) (e : ExclusionSet) (p : Preset) : Text :=
  if e.isEmpty then p.toolbar else b.normalizer.normalizeOrFallback e p.toolbar

def Builder.build (b : Builder) (options : ToolbarOptions) : EditorConfig :=
  let e := ExclusionSet.ofNames options.excluded
  { toolbar := options.preset.map fun _ => "custom".toList
    toolbarCustom := options.preset.map (b.custom e)
    toolbarMobile := b.toolbarMobile
    subtoolbarMoreMobile := b.mobile.derive b.normalizer options.preset e
    imageToolbar := options.imageItems.map ImageToolbar.toText }

/-- The keys of a configuration with their values, in order. -/
def entries (c : EditorConfig) : List (Text × Text) :=
  let present (key : Text) (value : Option Text) : List (Text × Text) :=
    (value.map fun v => (key, v)).toList
  present "toolbar".toList c.toolbar ++
    present "toolbar_custom".toList c.toolbarCustom ++
    [("toolbarMobile".toList, c.toolbarMobile),
      ("subtoolbar_more_mobile".toList, c.subtoolbarMoreMobile)] ++
    present "controltoolbar_IMG".toList c.imageToolbar ++
    present "imagecontrolbar".toList c.imageToolbar ++
    present "image_toolbar".toList c.imageToolbar

def toJson (c : EditorConfig) : Json :=
  .object (c.entries.map fun entry => (entry.1, .string entry.2))

def toJsonText (c : EditorConfig) : Text := c.toJson.write

def toYamlText (c : EditorConfig) : Text := Yaml.writeMapping c.entries

end EditorConfig

end EditorToolbar
