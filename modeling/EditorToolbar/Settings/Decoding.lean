import EditorToolbar.Decimal.Shortest
import EditorToolbar.Settings.Basic
import EditorToolbar.Settings.Layer
import EditorToolbar.Text.Digit

/-!
# Decoding settings

Values are converted where that is harmless: a text may be given as a number or a truth value, a
count as a text or a float. A name of a strategy or preset has to be a string, in any case, or a
table whose only key is that name. A section is a table or an array; the items of an array fill the
fields of the section in order.
-/

namespace EditorToolbar.Settings

open Toml (Value)

def textOf : Value → Except SettingsError Text
  | .string s => .ok s
  | .date s => .ok s
  | .boolean true => .ok "true".toList
  | .boolean false => .ok "false".toList
  | .integer n => .ok (Text.ofInt n)
  | .float x => .ok x.toText
  | .array _ => .error .wrongType
  | .table _ => .error .wrongType

def greatestCount : Nat := Nat.pow 2 64 - 1

def yesWords : List Text := ["true".toList, "on".toList, "yes".toList]

def noWords : List Text := ["false".toList, "off".toList, "no".toList]

/-- A count that is spelled out, in digits after an optional plus sign or as a word. -/
def countOfText (s : Text) : Except SettingsError Nat :=
  let digits : Text := match s with
    | '+' :: r => r
    | _ => s
  if yesWords.contains s.lower then .ok 1
  else if noWords.contains s.lower then .ok 0
  else if digits.isDigits && Text.numberIn 10 digits ≤ greatestCount then
    .ok (Text.numberIn 10 digits)
  else .error .wrongType

def countOf : Value → Except SettingsError Nat
  | .integer n => if n < 0 then .error .wrongType else .ok n.toNat
  | .boolean true => .ok 1
  | .boolean false => .ok 0
  | .float x => .ok (x.clampToNat greatestCount)
  | .string s => countOfText s
  | .date s => countOfText s
  | .array _ => .error .wrongType
  | .table _ => .error .wrongType

/-- The value as one of a list of named things. -/
def choiceOf {α : Type} (all : List α) (name : α → Text) (v : Value) : Except SettingsError α :=
  let given? : Option Text :=
    match v with
    | .string s => some s
    | .date s => some s
    | .table [(key, _)] => some key
    | _ => none
  match given?.bind fun given => all.find? fun a => Text.sameLetters (name a) given with
  | some a => .ok a
  | none => .error .invalid

def textsOf : Value → Except SettingsError (List Text)
  | .array items => items.mapM textOf
  | _ => .error .invalid

/-- The field of a section with a key, which is the field at a place if the section is an array. -/
def field (v : Value) (place : Nat) (key : Text) : Except SettingsError Value :=
  let found? : Option Value :=
    match v with
    | .table es => es.lookup key
    | .array items => items[place]?
    | _ => none
  match found? with
  | some found => .ok found
  | none => .error .invalid

def ofValue (v : Value) : Except SettingsError Settings := do
  let normalize ← field v 0 normalizeKey
  let strategy ← choiceOf Strategy.all Strategy.name (← field normalize 0 strategyKey)
  let fallbackPreset ← choiceOf Preset.all Preset.name (← field normalize 1 fallbackPresetKey)
  let minFragmentRun ← countOf (← field normalize 2 minFragmentRunKey)
  let mobile ← field v 1 mobileKey
  let basicTools ← textsOf (← field mobile 0 basicToolsKey)
  let defaultToolbar ← textOf (← field mobile 1 defaultToolbarKey)
  let editor ← field v 2 editorKey
  let toolbarMobile ← textOf (← field editor 0 toolbarMobileKey)
  return ⟨⟨strategy, fallbackPreset, minFragmentRun⟩, ⟨basicTools, defaultToolbar⟩,
    ⟨toolbarMobile⟩⟩

end EditorToolbar.Settings
