import EditorToolbar.Proofs.Exclusion.Names
import EditorToolbar.Proofs.Exclusion.Standing
import EditorToolbar.Proofs.Normalization.Textual
import EditorToolbar.Proofs.Normalization.Undamaged
import EditorToolbar.Proofs.Toolbar.Grammar

/-!
# Which excluded tools the textual strategy leaves

The textual strategy ends in a text out of which no excluded name can be cut. An excluded name with
word edges would be cut wherever it is a tool, so none is left. Any other name has a name letter at
an edge that is no word part, and is never cut where it is a tool: a text that is nothing but this
name stays as it is, though the name is excluded.
-/

namespace EditorToolbar.Normalizer

open Modifier (Unmodified)
open Text (isWordPart)
open Token (IsName isNameChar)

theorem contains_eq_false_of_mem_tools_settledText {e : ExclusionSet}
    (he : ∀ name ∈ e.names, IsName name) {minRun : Nat} {s : Text} {name : ToolName}
    (hname : name ∈ (Toolbar.ofText (settledText minRun e s)).tools) (hedges : WordEdges name) :
    e.contains name = false := by
  have hcut : e.cutWords (settledText minRun e s) = settledText minRun e s :=
    cutWords_eq_self_of_fixed he (textualStep_settledText he minRun s)
  rw [Toolbar.tools_ofText] at hname
  exact ExclusionSet.contains_eq_false_of_cutWords he hcut hname hedges

/-! ### Names that stay -/

theorem wordEdges_of_isFragment {name : ToolName} (h : Fragments.isFragment name = true) :
    WordEdges name := by
  obtain ⟨c, rfl, hc⟩ := (Fragments.isFragment_iff name).mp h
  have hword : isWordPart c = true := Text.isWordPart_of_isLower hc
  constructor <;> · rintro _ ⟨⟩ _; exact hword

theorem tools_ofText_of_isName {name : ToolName} (hname : IsName name) :
    (Toolbar.ofText name).tools = [name] := by
  have htokens : Token.tokenize (name ++ []) = .tool name :: Token.tokenize [] :=
    Token.tokenize_name_append hname.1 hname.2 rfl
  rw [List.append_nil] at htokens
  rw [Toolbar.tools_ofText, htokens]
  rfl

/-- A text that is one whole name is not changed by repair. -/
theorem repairText_of_isName {name : ToolName} (hname : IsName name)
    (hfragment : Fragments.isFragment name = false) (hcut : GluedNames.cut? name = none)
    (minRun : Nat) : repairText minRun name = name := by
  have hundamaged : (Toolbar.ofText name).Undamaged := by
    intro tool htool
    rw [tools_ofText_of_isName hname, List.mem_singleton] at htool
    exact htool ▸ ⟨hfragment, hcut⟩
  rw [repairText_of_undamaged hundamaged, Toolbar.toText_ofText_eq_self_iff]
  exact .inr (.single (.single (.bare (.single hname))))

/-- An excluded name without word edges is its own normal form. -/
theorem normalize_textual_eq_self {name : ToolName} (hname : IsName name)
    (hunmodified : Unmodified name) (hcut : GluedNames.cut? name = none)
    (hedges : ¬ WordEdges name) (minRun : Nat) (fallback : Text) :
    (⟨.textual, minRun, fallback⟩ : Normalizer).normalize (.ofNames [name]) name = name := by
  have hfragment : Fragments.isFragment name = false := by
    rw [← Bool.not_eq_true]
    exact fun h => hedges (wordEdges_of_isFragment h)
  have hcutWords : ExclusionSet.cutWords ⟨[name]⟩ name = name := cutWord_self hname.1 hedges
  change settledText minRun (.ofNames [name]) (Modifier.strip name) = name
  rw [Modifier.strip_eq_self hunmodified, ExclusionSet.ofNames_singleton hname hunmodified]
  apply settledText_of_fixed
  exact textualStep_of_cutWords_eq_self (repairText_of_isName hname hfragment hcut minRun) hcutWords

/-- Excluding a single name takes it out of every text exactly if it has word edges. -/
theorem forall_not_mem_tools_iff_wordEdges {name : ToolName} (hname : IsName name)
    (hunmodified : Unmodified name) (hcut : GluedNames.cut? name = none) (minRun : Nat)
    (fallback : Text) :
    (∀ text, name ∉ (Toolbar.ofText ((⟨.textual, minRun, fallback⟩ : Normalizer).normalize
      (.ofNames [name]) text)).tools) ↔ WordEdges name := by
  constructor
  · intro h
    by_contra hedges
    have hnot := h name
    rw [normalize_textual_eq_self hname hunmodified hcut hedges, tools_ofText_of_isName hname]
      at hnot
    exact hnot (List.mem_singleton_self name)
  · intro hedges text hmem
    rw [ExclusionSet.ofNames_singleton hname hunmodified] at hmem
    change name ∈ (Toolbar.ofText (settledText minRun ⟨[name]⟩ (Modifier.strip text))).tools at hmem
    have he : ∀ v ∈ (⟨[name]⟩ : ExclusionSet).names, IsName v := List.forall_mem_singleton.mpr hname
    have hcontains := contains_eq_false_of_mem_tools_settledText he hmem hedges
    simp [ExclusionSet.contains] at hcontains

end EditorToolbar.Normalizer
