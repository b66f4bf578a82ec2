import EditorToolbar.Settings.Decoding

/-!
# What a value has to hold to describe settings

A value describes settings exactly if each of their fields is what is decoded of the value found
under its key (`ofValue_eq_ok_iff`). In particular the tables that settings are given as describe
these settings.
-/

namespace EditorToolbar.Settings

open Toml (Value)

theorem bind_eq_ok_iff {ε α β : Type} {x : Except ε α} {f : α → Except ε β} {b : β} :
    (x >>= f) = .ok b ↔ ∃ a, x = .ok a ∧ f a = .ok b := by
  cases x with
  | error e => simp [bind, Except.bind]
  | ok a => simp [bind, Except.bind]

theorem choiceOf_strategy_name (s : Strategy) :
    choiceOf Strategy.all Strategy.name (.string s.name) = .ok s := by
  cases s
  all_goals rfl

theorem choiceOf_preset_name (p : Preset) :
    choiceOf Preset.all Preset.name (.string p.name) = .ok p := by
  cases p
  all_goals rfl

theorem textsOf_map_string (texts : List Text) :
    textsOf (.array (texts.map .string)) = .ok texts := by
  rw [textsOf]
  induction texts with
  | nil => rfl
  | cons text texts ih => rw [List.map_cons, List.mapM_cons, ih]; rfl

theorem ofValue_eq_ok_iff {v : Value} {s : Settings} :
    ofValue v = .ok s ↔ ∃ normalize mobile editor,
      field v 0 normalizeKey = .ok normalize ∧ field v 1 mobileKey = .ok mobile ∧
      field v 2 editorKey = .ok editor ∧
      (field normalize 0 strategyKey >>= choiceOf Strategy.all Strategy.name) =
        .ok s.normalize.strategy ∧
      (field normalize 1 fallbackPresetKey >>= choiceOf Preset.all Preset.name) =
        .ok s.normalize.fallbackPreset ∧
      (field normalize 2 minFragmentRunKey >>= countOf) = .ok s.normalize.minFragmentRun ∧
      (field mobile 0 basicToolsKey >>= textsOf) = .ok s.mobile.basicTools ∧
      (field mobile 1 defaultToolbarKey >>= textOf) = .ok s.mobile.defaultToolbar ∧
      (field editor 0 toolbarMobileKey >>= textOf) = .ok s.editor.toolbarMobile := by
  simp only [ofValue, bind_eq_ok_iff]
  constructor
  · rintro ⟨normalize, hnormalize, _, hs, _, hstrategy, _, hp, _, hpreset, _, hc, _, hcount, mobile,
      hmobile, _, hts, _, htools, _, ht, _, htoolbar, editor, heditor, _, hk, _, hkind, heq⟩
    obtain rfl := Except.ok.inj heq
    exact ⟨normalize, mobile, editor, hnormalize, hmobile, heditor, ⟨_, hs, hstrategy⟩,
      ⟨_, hp, hpreset⟩, ⟨_, hc, hcount⟩, ⟨_, hts, htools⟩, ⟨_, ht, htoolbar⟩, ⟨_, hk, hkind⟩⟩
  · rintro ⟨normalize, mobile, editor, hnormalize, hmobile, heditor, ⟨_, hs, hstrategy⟩,
      ⟨_, hp, hpreset⟩, ⟨_, hc, hcount⟩, ⟨_, hts, htools⟩, ⟨_, ht, htoolbar⟩, ⟨_, hk, hkind⟩⟩
    exact ⟨normalize, hnormalize, _, hs, _, hstrategy, _, hp, _, hpreset, _, hc, _, hcount, mobile,
      hmobile, _, hts, _, htools, _, ht, _, htoolbar, editor, heditor, _, hk, _, hkind, rfl⟩

/-- Settings are what the tables describe that they are given as. -/
theorem ofValue_toValue (s : Settings) : ofValue s.toValue = .ok s := by
  rw [ofValue_eq_ok_iff]
  refine ⟨_, _, _, rfl, rfl, rfl, ?_, ?_, ?_, ?_, rfl, rfl⟩
  · exact choiceOf_strategy_name s.normalize.strategy
  · exact choiceOf_preset_name s.normalize.fallbackPreset
  · rfl
  · exact textsOf_map_string s.mobile.basicTools

end EditorToolbar.Settings
