import EditorToolbar.Json.Basic
import EditorToolbar.Toolbar.Basic

/-!
# Toolbars as JSON

A toolbar is written as an object of objects, each with its fields in a fixed order. Reading is
strict about the fields it knows and ignores all others; only the divider of a section may be
missing. An object may also be given as the array of its fields, and a joint or divider as an
object whose only field is named by it and is null.
-/

namespace EditorToolbar

def Joint.name : Joint → Text
  | .adjacent => "adjacent".toList
  | .pipe => "pipe".toList

def Joint.ofName? (given : Text) : Option Joint :=
  [Joint.adjacent, Joint.pipe].find? fun j => j.name == given

/-- The name of a divider is the character that stands for it. -/
def Divider.name (d : Divider) : Text := [d.toChar]

def Divider.ofName? (given : Text) : Option Divider :=
  [Divider.hash, Divider.slash].find? fun d => d.name == given

def Joint.toJson (j : Joint) : Json := .string j.name

def Group.toJson (g : Group) : Json :=
  .object
    [("braced".toList, .bool g.braced), ("joint".toList, g.joint.toJson),
      ("tools".toList, .array (g.tools.map .string))]

def Divider.toJson : Option Divider → Json
  | none => .null
  | some d => .string d.name

def Section.toJson (s : Section) : Json :=
  .object
    [("divider".toList, Divider.toJson s.divider),
      ("groups".toList, .array (s.groups.map Group.toJson))]

def Toolbar.toJson (t : Toolbar) : Json :=
  .object [("sections".toList, .array (t.sections.map Section.toJson))]

def Toolbar.toJsonText (t : Toolbar) : Text := t.toJson.write

namespace Json

def text? : Json → Option Text
  | .string s => some s
  | _ => none

def bool? : Json → Option Bool
  | .bool b => some b
  | _ => none

def items? : Json → Option (List Json)
  | .array items => some items
  | _ => none

/-- One of a list of names. -/
def choice? {α : Type} (ofName? : Text → Option α) : Json → Option α
  | .string s => ofName? s
  | .object [(s, .null)] => ofName? s
  | _ => none

end Json

def Group.ofJson? : Json → Option Group
  | .object fields => do
    let braced ← (← fields.lookup "braced".toList).bool?
    let joint ← (← fields.lookup "joint".toList).choice? Joint.ofName?
    let tools ← (← (← fields.lookup "tools".toList).items?).mapM Json.text?
    return ⟨braced, joint, tools⟩
  | .array [braced, joint, tools] => do
    return ⟨← braced.bool?, ← joint.choice? Joint.ofName?, ← (← tools.items?).mapM Json.text?⟩
  | _ => none

def Divider.ofJson? : Json → Option (Option Divider)
  | .null => some none
  | value => (value.choice? Divider.ofName?).map some

def Section.ofJson? : Json → Option Section
  | .object fields => do
    let divider ← Divider.ofJson? ((fields.lookup "divider".toList).getD .null)
    let groups ← (← (← fields.lookup "groups".toList).items?).mapM Group.ofJson?
    return ⟨divider, groups⟩
  | .array [divider, groups] => do
    return ⟨← Divider.ofJson? divider, ← (← groups.items?).mapM Group.ofJson?⟩
  | _ => none

def Toolbar.ofJson? : Json → Option Toolbar
  | .object fields => do
    return ⟨← (← (← fields.lookup "sections".toList).items?).mapM Section.ofJson?⟩
  | .array [sections] => do
    return ⟨← (← sections.items?).mapM Section.ofJson?⟩
  | _ => none

end EditorToolbar
