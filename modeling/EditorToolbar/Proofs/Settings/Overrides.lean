import EditorToolbar.Proofs.Settings.Layer
import EditorToolbar.Proofs.Settings.Loading

/-!
# Overrides

An override changes one key of the table about normalization, so it changes one field of the
settings (`HoldsInTables.lay`). That holds of values in which this table is a table: an array can
describe settings as well, but a key cannot be changed in it. The default settings have a table
there, and a settings file leaves one there unless it says otherwise. Overrides are laid one over
the other, and what one of them changes the other ones leave alone; so it does not matter in which
order they are given.
-/

namespace EditorToolbar.Settings

open Layer (TableAt entries)
open Toml (Value)

/-- The settings with a field changed as an override asks for. -/
def Override.apply (settings : Settings) : Override → Settings
  | .strategy s => { settings with normalize := { settings.normalize with strategy := s } }
  | .fallbackPreset p =>
    { settings with normalize := { settings.normalize with fallbackPreset := p } }

/-- In whatever case the key about normalization is written in a file, it stands for a table. -/
def NormalizeIsTable (text : Text) : Prop :=
  ∀ document, Toml.ofText? text = some document → ∀ entry ∈ entries document,
    Layer.lowerKey entry.1 = normalizeKey → entry.2.isTable = true

/-- A value describes settings, and what it says about normalization it says in tables. -/
structure HoldsInTables (v : Value) (s : Settings) : Prop where
  isTable : v.isTable = true
  tableAt : TableAt normalizeKey v
  ofValue_eq : ofValue v = .ok s

theorem field_of_isTable {v : Value} (hv : v.isTable = true) (place : Nat) (key : Text) :
    field v place key = ((entries v).lookup key).elim (.error .invalid) .ok := by
  obtain ⟨es, rfl⟩ := v.isTable_iff.mp hv
  rw [field, entries]
  cases es.lookup key with
  | none => rfl
  | some w => rfl

theorem field_eq_ok_iff {v w : Value} (hv : v.isTable = true) (place : Nat) (key : Text) :
    field v place key = .ok w ↔ (entries v).lookup key = some w := by
  rw [field_of_isTable hv]
  cases (entries v).lookup key with
  | none => simp
  | some w => simp

theorem lowerKey_normalizeKey : Layer.lowerKey normalizeKey = normalizeKey := rfl

theorem Override.lowerKey_key (o : Override) : Layer.lowerKey o.key = o.key := by
  cases o with
  | strategy s => rfl
  | fallbackPreset p => rfl

theorem minFragmentRunKey_ne (o : Override) : minFragmentRunKey ≠ o.key := by
  cases o with
  | strategy s =>
      have hne : minFragmentRunKey ≠ strategyKey := by decide
      exact hne
  | fallbackPreset p =>
      have hne : minFragmentRunKey ≠ fallbackPresetKey := by decide
      exact hne

section

variable {v : Value} {o : Override} {key : Text}

/-- At the key of an override a table holds what the override puts there. -/
theorem field_set_self (v : Value) (o : Override) (place : Nat) :
    field (Layer.set [o.key] (.string o.name) (some v)) place o.key = .ok (.string o.name) := by
  have hlookup := Layer.lookup_set_self v (.string o.name) o.key []
  rw [o.lowerKey_key] at hlookup
  rw [field_eq_ok_iff rfl, hlookup]
  rfl

theorem field_set_of_ne (hv : v.isTable = true) (h : key ≠ o.key) (place : Nat) :
    field (Layer.set [o.key] (.string o.name) (some v)) place key = field v place key := by
  have hlower : key ≠ Layer.lowerKey o.key := by rwa [o.lowerKey_key]
  rw [field_of_isTable rfl, field_of_isTable hv, Layer.lookup_set_of_ne hlower]

theorem field_lay_normalize (hv : v.isTable = true) {normalize : Value} (o : Override)
    (place : Nat) (h : field v place normalizeKey = .ok normalize) :
    field (o.lay v) place normalizeKey =
      .ok (Layer.set [o.key] (.string o.name) (some normalize)) := by
  rw [field_eq_ok_iff hv] at h
  have hlookup := Layer.lookup_set_self v (.string o.name) normalizeKey [o.key]
  rw [lowerKey_normalizeKey, h] at hlookup
  rwa [field_eq_ok_iff rfl]

theorem field_lay_of_ne (hv : v.isTable = true) (h : key ≠ normalizeKey) (place : Nat)
    (o : Override) : field (o.lay v) place key = field v place key := by
  have hlower : key ≠ Layer.lowerKey normalizeKey := by rwa [lowerKey_normalizeKey]
  rw [Override.lay, field_of_isTable rfl, field_of_isTable hv, Layer.lookup_set_of_ne hlower]

end

/-- An override changes the field that it is for, and no other one. -/
theorem HoldsInTables.lay {v : Value} {s : Settings} (h : HoldsInTables v s) (o : Override) :
    HoldsInTables (o.lay v) (o.apply s) := by
  obtain ⟨hv, hat, heq⟩ := h
  refine ⟨rfl, hat.set nofun, ?_⟩
  rw [ofValue_eq_ok_iff] at heq ⊢
  obtain ⟨normalize, mobile, editor, hnormalize, hmobile, heditor, hstrategy, hpreset, hcount,
    hrest⟩ := heq
  have htable : normalize.isTable = true := hat normalize ((field_eq_ok_iff hv ..).mp hnormalize)
  refine ⟨_, mobile, editor, field_lay_normalize hv o 0 hnormalize,
    (field_lay_of_ne hv (by decide) 1 o).trans hmobile,
    (field_lay_of_ne hv (by decide) 2 o).trans heditor, ?_⟩
  have hne : fallbackPresetKey ≠ strategyKey := by decide
  cases o with
  | strategy s' =>
      have hself := field_set_self normalize (.strategy s') 0
      refine ⟨?_, ?_, ?_, hrest⟩
      · exact bind_eq_ok_iff.mpr ⟨_, hself, choiceOf_strategy_name s'⟩
      · rwa [field_set_of_ne htable hne]
      · rwa [field_set_of_ne htable (minFragmentRunKey_ne (.strategy s'))]
  | fallbackPreset p =>
      have hself := field_set_self normalize (.fallbackPreset p) 1
      refine ⟨?_, ?_, ?_, hrest⟩
      · rwa [field_set_of_ne htable hne.symm]
      · exact bind_eq_ok_iff.mpr ⟨_, hself, choiceOf_preset_name p⟩
      · rwa [field_set_of_ne htable (minFragmentRunKey_ne (.fallbackPreset p))]

theorem HoldsInTables.foldl_lay {v : Value} {s : Settings} (h : HoldsInTables v s)
    (overrides : List Override) :
    HoldsInTables (overrides.foldl Override.lay v) (overrides.foldl Override.apply s) := by
  induction overrides generalizing v s with
  | nil => exact h
  | cons o overrides ih => exact ih (h.lay o)

/-- The default settings have a table about normalization, and a file leaves one there. -/
theorem tableAt_layers {text : Text} {document : Value} (htext : NormalizeIsTable text)
    (hdocument : Toml.ofText? text = some document) :
    TableAt normalizeKey (layers [defaults.toValue, document]) := by
  have hdefaults : TableAt normalizeKey (layers [defaults.toValue]) := by
    rw [layers_toValue]
    intro inner hinner
    obtain rfl := Option.mem_some_iff.mp hinner
    rfl
  exact hdefaults.mergeDocument (htext document hdocument)

/-- Overrides change the settings that a file describes, one after another. -/
theorem loadWith_overrides {text : Text} {settings : Settings} (htext : NormalizeIsTable text)
    (h : load { file := some text } = .ok settings) (overrides : List Override) :
    loadWith (some text) overrides = .ok (overrides.foldl Override.apply settings) := by
  rw [load, loadWith_eq, bind_eq_ok_iff] at h
  obtain ⟨document, hread, hvalue⟩ := h
  have hdocument : Toml.ofText? text = some document := by
    rw [readFile] at hread
    split at hread
    · next heq => rw [heq, Except.ok.inj hread]
    · cases hread
  have hholds : HoldsInTables (layers [defaults.toValue, document]) settings :=
    ⟨Layer.isTable_mergeDocument rfl _, tableAt_layers htext hdocument, hvalue⟩
  rw [loadWith_eq, bind_eq_ok_iff]
  exact ⟨document, hread, (hholds.foldl_lay overrides).ofValue_eq⟩

/-- Overrides win over a file and change nothing else. -/
theorem load_overrides {text : Text} {settings : Settings} (htext : NormalizeIsTable text)
    (h : load { file := some text } = .ok settings) (s : Strategy) (p : Preset) :
    load { file := some text, strategy := some s } =
      .ok { settings with normalize := { settings.normalize with strategy := s } } ∧
    load { file := some text, fallbackPreset := some p } =
      .ok { settings with normalize := { settings.normalize with fallbackPreset := p } } ∧
    load { file := some text, strategy := some s, fallbackPreset := some p } =
      .ok { settings with
        normalize := { settings.normalize with strategy := s, fallbackPreset := p } } ∧
    loadWith (some text) [.fallbackPreset p, .strategy s] =
      .ok { settings with
        normalize := { settings.normalize with strategy := s, fallbackPreset := p } } :=
  ⟨loadWith_overrides htext h [.strategy s], loadWith_overrides htext h [.fallbackPreset p],
    loadWith_overrides htext h [.strategy s, .fallbackPreset p],
    loadWith_overrides htext h [.fallbackPreset p, .strategy s]⟩

/-- A file with keys in both cases, a table for the strategy, a key with a point and a spare key. -/
def mixedLines : List Text :=
  ["\"Editor.TOOLBAR_mobile\" = true".toList,
   "[NORMALIZE]".toList,
   "Strategy = \x7bTextual = 1\x7d".toList,
   "Min_Fragment_Run = \"+7\"".toList,
   "spare = 0".toList,
   "[mobile]".toList,
   "Default_Toolbar = 12".toList]

def mixedFile : Text := mixedLines.flatMap fun line => line ++ ['\n']

def mixedDocument : Value :=
  .table
    [("Editor.TOOLBAR_mobile".toList, .boolean true),
     ("NORMALIZE".toList, .table
       [("Strategy".toList, .table [("Textual".toList, .integer 1)]),
        ("Min_Fragment_Run".toList, .string "+7".toList),
        ("spare".toList, .integer 0)]),
     ("mobile".toList, .table [("Default_Toolbar".toList, .integer 12)])]

theorem ofText?_mixedFile : Toml.ofText? mixedFile = some mixedDocument := by
  unfold mixedFile mixedLines mixedDocument
  repeat rw [String.toList_ofList]
  decide +kernel

def mixedSettings : Settings where
  normalize := { strategy := .textual, minFragmentRun := 7 }
  mobile := { defaults.mobile with defaultToolbar := "12".toList }
  editor := { toolbarMobile := "true".toList }

theorem load_mixedFile : load { file := some mixedFile } = .ok mixedSettings := by
  have hread : readFile (some mixedFile) = .ok mixedDocument := by rw [readFile, ofText?_mixedFile]
  rw [load, loadWith_eq, hread]
  rfl

theorem normalizeIsTable_mixedFile : NormalizeIsTable mixedFile := by
  intro document hdocument
  obtain rfl := Option.some.inj (ofText?_mixedFile.symm.trans hdocument)
  decide +kernel

theorem load_mixedFile_structural_full :
    load { file := some mixedFile, strategy := some .structural } =
      .ok { mixedSettings with
        normalize := { mixedSettings.normalize with strategy := .structural } } ∧
    load { file := some mixedFile, fallbackPreset := some .full } =
      .ok { mixedSettings with
        normalize := { mixedSettings.normalize with fallbackPreset := .full } } ∧
    load { file := some mixedFile, strategy := some .structural, fallbackPreset := some .full } =
      .ok { mixedSettings with
        normalize := { mixedSettings.normalize with
          strategy := .structural, fallbackPreset := .full } } ∧
    loadWith (some mixedFile) [.fallbackPreset .full, .strategy .structural] =
      .ok { mixedSettings with
        normalize := { mixedSettings.normalize with
          strategy := .structural, fallbackPreset := .full } } :=
  load_overrides normalizeIsTable_mixedFile load_mixedFile .structural .full

end EditorToolbar.Settings
