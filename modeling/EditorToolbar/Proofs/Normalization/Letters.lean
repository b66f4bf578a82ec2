import EditorToolbar.Normalizer
import EditorToolbar.Proofs.Exclusion.Blocks
import EditorToolbar.Proofs.Normalization.Structural

/-!
# The letters of a normal form

Normalizing moves tools from group to group, glues them, splits them, writes them and reads them
again; none of this changes the letters. What a pass does to the letters is what exclusion does to
them: it takes out blocks, each the name of an excluded tool. Both strategies keep this invariant
along their runs, the structural one for the tools of the toolbar and the textual one for the
letters of the text.
-/

namespace EditorToolbar

open Relation (ReflTransGen)
open Token (IsName letters isNameChar)

theorem Toolbar.flatten_tools_ofText (s : Text) : (ofText s).tools.flatten = letters s := by
  rw [tools_ofText, Token.flatten_tools_tokenize]

theorem Toolbar.letters_toText {t : Toolbar} (ht : t.WellFormed) :
    letters t.toText = t.tools.flatten := by
  rw [← flatten_tools_ofText, tools_ofText_toText ht]

theorem letters_repairText (minRun : Nat) (s : Text) :
    letters (repairText minRun s) = letters s := by
  rw [repairText, Toolbar.letters_toText ((Toolbar.wellFormed_ofText s).repair minRun),
    Toolbar.flatten_tools_repair, Toolbar.flatten_tools_ofText]

namespace Normalizer

variable {e : ExclusionSet}

theorem deletes_structuralStep (minRun : Nat) (e : ExclusionSet) (t : Toolbar) :
    ReflTransGen e.Deletes t.tools.flatten (structuralStep minRun e t).tools.flatten := by
  rw [structuralStep, Toolbar.flatten_tools_repair]
  exact ExclusionSet.deletes_apply e t

theorem deletes_textualStep (he : ∀ name ∈ e.names, IsName name) (minRun : Nat) (s : Text) :
    ReflTransGen e.Deletes (letters s) (letters (textualStep minRun e s)) := by
  rw [textualStep, letters_repairText]
  exact ExclusionSet.deletes_cutWords he s

theorem deletes_settledToolbar (minRun : Nat) (e : ExclusionSet) (s : Text) :
    ReflTransGen e.Deletes (letters s) (settledToolbar minRun e s).tools.flatten := by
  apply settledToolbar_induction (P := fun t => ReflTransGen e.Deletes (letters s) t.tools.flatten)
  · intro t ht
    exact ht.trans (deletes_structuralStep minRun e t)
  · rw [Toolbar.flatten_tools_ofText]

theorem deletes_settledText (he : ∀ name ∈ e.names, IsName name) (minRun : Nat) (s : Text) :
    ReflTransGen e.Deletes (letters s) (letters (settledText minRun e s)) := by
  have hstep : ∀ t, ReflTransGen e.Deletes (letters s) (letters t) →
      ReflTransGen e.Deletes (letters s) (letters (textualStep minRun e t)) :=
    fun t ht => ht.trans (deletes_textualStep he minRun t)
  exact settle_induction hstep _ (hstep s .refl)

theorem deletes_normalize (he : ∀ name ∈ e.names, IsName name) (n : Normalizer) (text : Text) :
    ReflTransGen e.Deletes (letters (Modifier.strip text)) (letters (n.normalize e text)) := by
  unfold normalize
  cases n.strategy with
  | structural =>
      dsimp only
      rw [Toolbar.letters_toText (wellFormed_settledToolbar n.minRun e _)]
      exact deletes_settledToolbar n.minRun e _
  | textual => exact deletes_settledText he n.minRun _

/-- Whatever the names of a set are, cutting them out adds no letter. -/
theorem letters_settledText_sublist (minRun : Nat) (e : ExclusionSet) (s : Text) :
    (letters (settledText minRun e s)).Sublist (letters s) := by
  have hstep : ∀ t, (letters t).Sublist (letters s) →
      (letters (textualStep minRun e t)).Sublist (letters s) := by
    intro t ht
    rw [textualStep, letters_repairText]
    exact ((ExclusionSet.cutWords_sublist e t).filter isNameChar).trans ht
  exact settle_induction hstep _ (hstep s (.refl _))

theorem letters_normalize_sublist (n : Normalizer) (e : ExclusionSet) (text : Text) :
    (letters (n.normalize e text)).Sublist (letters (Modifier.strip text)) := by
  unfold normalize
  cases n.strategy with
  | structural =>
      dsimp only
      rw [Toolbar.letters_toText (wellFormed_settledToolbar n.minRun e _)]
      exact ExclusionSet.sublist_of_deletes (deletes_settledToolbar n.minRun e _)
  | textual => exact letters_settledText_sublist n.minRun e _

/-- Nothing but excluded names is lost and nothing is invented: the tool names of the result, one
after another, are those of the stripped text after finitely many deletions of a block that is the
name of an excluded tool. Without exclusions they are the same. -/
theorem deletes_tools_normalize (n : Normalizer) {e : ExclusionSet} (he : e.Built)
    (hletters : ∀ name ∈ e.names, ∀ c ∈ name, isNameChar c = true) (text : Text) :
    ReflTransGen e.Deletes (Toolbar.ofText (Modifier.strip text)).tools.flatten
        (Toolbar.ofText (n.normalize e text)).tools.flatten ∧
      (Toolbar.ofText (n.normalize {} text)).tools.flatten =
        (Toolbar.ofText (Modifier.strip text)).tools.flatten := by
  simp only [Toolbar.flatten_tools_ofText]
  constructor
  · exact deletes_normalize (he.isName hletters) n text
  · have hempty := deletes_normalize (e := {}) (by simp) n text
    exact ExclusionSet.deletes_empty_iff.mp hempty

/-- Taking `italic` out of the letters leaves a place where `bold` can be taken out. -/
theorem deletes_spelled_bold :
    (∀ name ∈ (ExclusionSet.ofNames ["italic".toList, "bold".toList]).names,
        ∀ c ∈ name, isNameChar c = true) ∧
      ReflTransGen (ExclusionSet.Deletes (.ofNames ["italic".toList, "bold".toList]))
        (Toolbar.ofText (Modifier.strip "b,italic,o,l,d|underline".toList)).tools.flatten
        (Toolbar.ofText ((⟨.textual, 3, []⟩ : Normalizer).normalize
          (.ofNames ["italic".toList, "bold".toList])
          "b,italic,o,l,d|underline".toList)).tools.flatten := by
  have hall : (ExclusionSet.ofNames ["italic".toList, "bold".toList]).names.all
      (fun name => name.all isNameChar) = true := by
    decide
  have hletters : ∀ name ∈ (ExclusionSet.ofNames ["italic".toList, "bold".toList]).names,
      ∀ c ∈ name, isNameChar c = true :=
    fun name hname => List.all_eq_true.mp (List.all_eq_true.mp hall name hname)
  exact ⟨hletters, (deletes_tools_normalize _ (.ofNames _) hletters _).1⟩

end Normalizer

end EditorToolbar
