import Mathlib.Logic.Relation
import EditorToolbar.Exclusion.Words
import EditorToolbar.Proofs.Exclusion.Basic
import EditorToolbar.Proofs.Text.Deletion

/-!
# Taking names out of the letters

What exclusion does to the letters of a toolbar, its tool names written one after another, is to
delete blocks of letters, each of them an excluded name. `Deletes` takes out one block. Removing
tools takes out the blocks of whole tools; cutting words out of a text takes out the blocks of the
words, whatever stands around them, provided that the words themselves consist of letters only.
-/

namespace EditorToolbar.ExclusionSet

open Relation (ReflTransGen)
open Token (IsName letters)

/-- One block, the name of an excluded tool, is taken out. -/
inductive Deletes (e : ExclusionSet) : Text → Text → Prop
  | block (before : Text) {name : ToolName} (after : Text) (h : name ∈ e.names) :
      Deletes e (before ++ name ++ after) (before ++ after)

section

variable {e : ExclusionSet} {s t u v : Text}

theorem Deletes.append_left (w : Text) (h : e.Deletes s t) : e.Deletes (w ++ s) (w ++ t) := by
  obtain ⟨before, after, hname⟩ := h
  simpa using Deletes.block (w ++ before) after hname

theorem deletes_append_left (w : Text) (h : ReflTransGen e.Deletes s t) :
    ReflTransGen e.Deletes (w ++ s) (w ++ t) := by
  induction h with
  | refl => exact .refl
  | tail _ hstep ih => exact ih.tail (hstep.append_left w)

theorem deletes_name_append {name : ToolName} (hname : name ∈ e.names)
    (h : ReflTransGen e.Deletes s t) : ReflTransGen e.Deletes (name ++ s) t :=
  .head (.block [] s hname) h

theorem deletes_empty_iff : ReflTransGen (Deletes {}) s t ↔ t = s := by
  constructor
  · intro h
    rcases h.cases_tail with rfl | ⟨u, -, before, after, hname⟩
    · rfl
    · cases hname
  · rintro rfl
    exact .refl

theorem sublist_of_deletes (h : ReflTransGen e.Deletes s t) : t.Sublist s := by
  induction h with
  | refl => exact .refl s
  | tail _ hstep ih =>
      obtain ⟨before, after, -⟩ := hstep
      exact ((List.sublist_append_left before _).append_right after).trans ih

theorem cutWords_sublist (e : ExclusionSet) (s : Text) : (e.cutWords s).Sublist s :=
  cutWords_induction (motive := fun t => t.Sublist s)
    (fun _ _ t ht => (Text.deleteFrom_sublist none 0 t).trans ht) (.refl s)

theorem deletes_apply (e : ExclusionSet) (t : Toolbar) :
    ReflTransGen e.Deletes t.tools.flatten (e.apply t).tools.flatten := by
  rw [tools_apply]
  induction t.tools with
  | nil => exact .refl
  | cons name tools ih =>
      rw [List.flatten_cons, List.filter_cons]
      split
      · exact deletes_append_left name ih
      · next hkeep =>
          have hname : name ∈ e.names := by simpa [contains] using hkeep
          exact deletes_name_append hname ih

theorem letters_cons (c : Char) (s : Text) : letters (c :: s) = letters [c] ++ letters s :=
  Token.letters_append [c] s

theorem letters_name_append {name : ToolName} (hname : IsName name) (s : Text) :
    letters (name ++ s) = name ++ letters s := by
  rw [Token.letters_append, Token.letters_eq_self hname.2]

/-- Deleting occurrences of a name takes them out of the letters. -/
theorem deletes_deleteFrom {fits : Option Char → Option Char → Bool} {name : ToolName}
    (hmem : name ∈ e.names) (hname : IsName name) (before : Option Char) (s : Text) :
    ReflTransGen e.Deletes (letters s) (letters (Text.deleteFrom fits name before 0 s)) := by
  refine Text.deleteFrom_induction
    (motive := fun _ s out => ReflTransGen e.Deletes (letters s) (letters out)) hname.1 ?_ ?_ ?_
    before s
  · intro _
    exact .refl
  · intro _ rest _ ih
    rw [letters_name_append hname]
    exact deletes_name_append hmem ih
  · intro _ c r ih
    have hrest := deletes_append_left (letters [c]) ih
    rwa [← letters_cons, ← letters_cons] at hrest

/-- Cutting names out of a text takes them out of its letters. -/
theorem deletes_cutWords (he : ∀ name ∈ e.names, IsName name) (s : Text) :
    ReflTransGen e.Deletes (letters s) (letters (e.cutWords s)) := by
  refine cutWords_induction (motive := fun t => ReflTransGen e.Deletes (letters s) (letters t)) ?_
    .refl
  intro name hname t ht
  exact ht.trans (deletes_deleteFrom hname (he name hname) none t)

/-- Deleting occurrences of a name changes nothing, or there are fewer letters afterwards. -/
theorem deleteFrom_eq_self_or_length_letters_lt {fits : Option Char → Option Char → Bool}
    {name : ToolName} (hname : IsName name) (before : Option Char) (s : Text) :
    Text.deleteFrom fits name before 0 s = s ∨
      (letters (Text.deleteFrom fits name before 0 s)).length < (letters s).length := by
  refine Text.deleteFrom_induction
    (motive := fun _ s out => out = s ∨ (letters out).length < (letters s).length) hname.1 ?_ ?_ ?_
    before s
  · intro _
    exact .inl rfl
  · intro _ rest _ ih
    have hle : (letters (Text.deleteFrom fits name name.getLast? 0 rest)).length ≤
        (letters rest).length := by
      rcases ih with heq | hlt
      · rw [heq]
      · exact Nat.le_of_lt hlt
    have hpos := List.length_pos_iff.mpr hname.1
    right
    rw [letters_name_append hname, List.length_append]
    omega
  · intro _ c r ih
    rcases ih with heq | hlt
    · exact .inl (by rw [heq])
    · right
      rw [letters_cons, letters_cons c r, List.length_append, List.length_append]
      exact Nat.add_lt_add_left hlt _

/-- Cutting names out of a text changes nothing, or there are fewer letters afterwards. -/
theorem cutWords_eq_self_or_length_letters_lt (he : ∀ name ∈ e.names, IsName name) (s : Text) :
    e.cutWords s = s ∨ (letters (e.cutWords s)).length < (letters s).length := by
  refine cutWords_induction (motive := fun t => t = s ∨ (letters t).length < (letters s).length) ?_
    (.inl rfl)
  intro name hname t ht
  have hcut : cutWord name t = t ∨ (letters (cutWord name t)).length < (letters t).length :=
    deleteFrom_eq_self_or_length_letters_lt (he name hname) none t
  rcases hcut with hsame | hless
  · rwa [hsame]
  · right
    rcases ht with rfl | hless'
    · exact hless
    · exact Nat.lt_trans hless hless'

end

end EditorToolbar.ExclusionSet
