import EditorToolbar.Proofs.Json.RoundTrip
import EditorToolbar.Toolbar.Json

/-!
# Toolbars read back from JSON

A toolbar is recovered from its JSON as it was, whatever its tool names are and with all its empty
parts: the joints and dividers have names of their own, an absent divider is null, and everything
else is kept as it stands. The JSON has no numbers, so it is recovered from its text as well.
-/

namespace EditorToolbar

open Json (NumberFree)

/-- Decoding undoes encoding for a list if it does so for the items. -/
theorem Json.mapM_map_eq_some {α β : Type} {encode : α → β} {decode : β → Option α}
    (h : ∀ a, decode (encode a) = some a) (l : List α) : (l.map encode).mapM decode = some l := by
  have hpure : decode ∘ encode = fun a => pure (id a) := funext h
  rw [List.mapM_map, hpure, List.mapM_pure, List.map_id]
  rfl

theorem Json.text?_string (s : Text) : (Json.string s).text? = some s := rfl

theorem Joint.choice?_toJson (j : Joint) : j.toJson.choice? ofName? = some j := by
  cases j <;> rfl

theorem Divider.ofJson?_toJson (d : Option Divider) : ofJson? (toJson d) = some d := by
  rcases d with - | - | - <;> rfl

theorem Group.ofJson?_toJson (g : Group) : ofJson? g.toJson = some g := by
  have htools : (g.tools.map Json.string).mapM Json.text? = some g.tools :=
    Json.mapM_map_eq_some Json.text?_string g.tools
  simp [toJson, ofJson?, List.lookup_cons, Json.items?, Json.bool?, Joint.choice?_toJson, htools]

theorem Section.ofJson?_toJson (s : Section) : ofJson? s.toJson = some s := by
  have hgroups : (s.groups.map Group.toJson).mapM Group.ofJson? = some s.groups :=
    Json.mapM_map_eq_some Group.ofJson?_toJson s.groups
  simp [toJson, ofJson?, List.lookup_cons, Json.items?, Divider.ofJson?_toJson, hgroups]

theorem Divider.numberFree_toJson (d : Option Divider) : NumberFree (toJson d) := by
  cases d with
  | none => exact .null
  | some d => exact .string _

theorem Json.numberFree_array_map {α : Type} {encode : α → Json} (h : ∀ a, NumberFree (encode a))
    (l : List α) : NumberFree (.array (l.map encode)) :=
  .array (List.forall_mem_map.mpr fun a _ => h a)

theorem Group.numberFree_toJson (g : Group) : NumberFree g.toJson := by
  refine .object ?_
  simp only [List.forall_mem_cons, List.not_mem_nil]
  exact ⟨.bool _, .string _, Json.numberFree_array_map .string _, fun _ => False.elim⟩

theorem Section.numberFree_toJson (s : Section) : NumberFree s.toJson := by
  refine .object ?_
  simp only [List.forall_mem_cons, List.not_mem_nil]
  exact ⟨Divider.numberFree_toJson _, Json.numberFree_array_map Group.numberFree_toJson _,
    fun _ => False.elim⟩

namespace Toolbar

def ofJsonText? (text : Text) : Option Toolbar := (Json.ofText? text).bind ofJson?

theorem ofJson?_toJson (t : Toolbar) : ofJson? t.toJson = some t := by
  have hsections : (t.sections.map Section.toJson).mapM Section.ofJson? = some t.sections :=
    Json.mapM_map_eq_some Section.ofJson?_toJson t.sections
  simp [toJson, ofJson?, Json.items?, hsections]

theorem numberFree_toJson (t : Toolbar) : NumberFree t.toJson := by
  refine .object ?_
  simp only [List.forall_mem_cons, List.not_mem_nil]
  exact ⟨Json.numberFree_array_map Section.numberFree_toJson _, fun _ => False.elim⟩

/-- A toolbar is read back from its JSON text, with blanks behind it or without. -/
theorem ofJsonText?_toJsonText_append (t : Toolbar) {blanks : Text}
    (hblanks : ∀ c ∈ blanks, Json.isBlank c = true) :
    ofJsonText? (t.toJsonText ++ blanks) = some t := by
  rw [ofJsonText?, toJsonText, Json.ofText?_write_append t.numberFree_toJson hblanks,
    Option.bind_some, ofJson?_toJson]

theorem ofJsonText?_toJsonText (t : Toolbar) : ofJsonText? t.toJsonText = some t := by
  rw [ofJsonText?, toJsonText, Json.ofText?_write t.numberFree_toJson, Option.bind_some,
    ofJson?_toJson]

end Toolbar

end EditorToolbar
