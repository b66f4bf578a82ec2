import EditorToolbar.Normalizer
import EditorToolbar.Proofs.Exclusion.Basic
import EditorToolbar.Proofs.Modifier
import EditorToolbar.Proofs.Repair.Mending
import EditorToolbar.Proofs.Toolbar.Writing

/-!
# The structural strategy

After the first pass a toolbar is repaired: it is compact, and no name in it is glued. From then on
mending adds no tool, since a name that is rejoined is split into no more parts than it had
fragments. So a pass that changes anything removes a tool, and the number of tools is the measure
that brings the run to a fixed point before its limit. At a fixed point nothing is excluded: repair
could not make up for a tool that has been removed.

What the run ends in is well-formed, so its text reads as the same toolbar, up to compaction; and it
holds no modifier, since its names are parts of names of the stripped text or words in small
letters. Normalizing the result again therefore starts at the fixed point.
-/

namespace EditorToolbar

/-! ### Tools without modifiers -/

namespace Toolbar

open Modifier (Unmodified)

theorem unmodified_of_mem_tools_ofText {s : Text} (hs : Unmodified s) :
    ∀ name ∈ (ofText s).tools, Unmodified name := by
  intro name hname
  rw [tools_ofText] at hname
  exact hs.of_isInfix (Token.isName_and_isInfix_of_mem_tokenize hname).2

/-- What mending makes of names are parts of them and words in small letters. -/
theorem unmodified_of_mem_tools_repair (minRun : Nat) {t : Toolbar}
    (ht : ∀ name ∈ t.tools, Unmodified name) :
    ∀ name ∈ (t.repair minRun).tools, Unmodified name :=
  forall_mem_tools_repair (fun _ _ hvw hw => hw.of_isInfix hvw)
    (fun _ => Modifier.unmodified_of_isLower) minRun ht

theorem unmodified_toText {t : Toolbar} (hwell : t.WellFormed)
    (ht : ∀ name ∈ t.tools, Unmodified name) : Unmodified t.toText := by
  apply Modifier.unmodified_of_tools
  rw [← tools_ofText, tools_ofText_toText hwell]
  exact ht

end Toolbar

namespace Normalizer

variable {minRun : Nat} {e : ExclusionSet} {t : Toolbar}

/-! ### One pass -/

theorem isRepaired_structuralStep (minRun : Nat) (e : ExclusionSet) (t : Toolbar) :
    (structuralStep minRun e t).IsRepaired minRun :=
  Toolbar.isRepaired_repair minRun (e.apply t)

theorem wellFormed_structuralStep (ht : t.WellFormed) : (structuralStep minRun e t).WellFormed :=
  (ExclusionSet.wellFormed_apply ht e).repair minRun

/-- A pass over a repaired toolbar adds no tool. -/
theorem toolCount_structuralStep_le (ht : t.IsRepaired minRun) :
    (structuralStep minRun e t).toolCount ≤ (e.apply t).toolCount := by
  apply Toolbar.toolCount_repair_le
  intro name hname
  exact ht.cut?_eq_none (ExclusionSet.mem_tools_apply.mp hname).1

theorem apply_eq_self_of_toolCount_structuralStep (ht : t.IsRepaired minRun)
    (h : t.toolCount ≤ (structuralStep minRun e t).toolCount) : e.apply t = t :=
  ExclusionSet.apply_eq_self_of_toolCount_le (Nat.le_trans h (toolCount_structuralStep_le ht))

/-- A pass that changes a repaired toolbar removes a tool. -/
theorem toolCount_structuralStep_lt (ht : t.IsRepaired minRun)
    (hne : structuralStep minRun e t ≠ t) :
    (structuralStep minRun e t).toolCount < t.toolCount := by
  rw [← Nat.not_le]
  intro hle
  apply hne
  rw [structuralStep, apply_eq_self_of_toolCount_structuralStep ht hle]
  exact ht

theorem apply_eq_self_of_fixed (h : structuralStep minRun e t = t) : e.apply t = t := by
  have ht : t.IsRepaired minRun := by
    have hstep := isRepaired_structuralStep minRun e t
    rwa [h] at hstep
  exact apply_eq_self_of_toolCount_structuralStep ht (by rw [h])

/-- A pass looks at a toolbar only up to compaction. -/
theorem structuralStep_congr {u : Toolbar} (h : t.compact = u.compact) :
    structuralStep minRun e t = structuralStep minRun e u := by
  have hcompact := ExclusionSet.compact_apply_congr h e
  rw [structuralStep, structuralStep, Toolbar.repair_congr minRun hcompact]

/-- A toolbar may be compacted before tools are excluded. Whatever the exclusion empties then, what
is left compacts to the same toolbar and has the same text, and the pass ends in the same toolbar. -/
theorem apply_compact (minRun : Nat) (e : ExclusionSet) (t : Toolbar) :
    (e.apply t.compact).compact = (e.apply t).compact ∧
      (e.apply t.compact).toText = (e.apply t).toText ∧
      structuralStep minRun e t.compact = structuralStep minRun e t := by
  have hcompact : t.compact.compact = t.compact := t.isCompact_compact.compact_eq
  have happly := ExclusionSet.compact_apply_congr hcompact e
  exact ⟨happly, Toolbar.toText_eq_of_compact_eq happly, structuralStep_congr hcompact⟩

/-- A pass over the text of a toolbar is a pass over the toolbar. -/
theorem structuralStep_ofText_toText (ht : t.WellFormed) :
    structuralStep minRun e (Toolbar.ofText t.toText) = structuralStep minRun e t :=
  structuralStep_congr (Toolbar.compact_ofText_toText ht)

/-! ### The run -/

theorem structuralStep_settle (ht : t.IsRepaired minRun) {limit : Nat} (h : t.toolCount ≤ limit) :
    structuralStep minRun e (settle (structuralStep minRun e) limit t) =
      settle (structuralStep minRun e) limit t :=
  step_settle_of_size_le (Toolbar.IsRepaired minRun) Toolbar.toolCount
    (fun u _ => isRepaired_structuralStep minRun e u) (fun _ => toolCount_structuralStep_lt) ht h

theorem structuralStep_settledToolbar (minRun : Nat) (e : ExclusionSet) (s : Text) :
    structuralStep minRun e (settledToolbar minRun e s) = settledToolbar minRun e s :=
  structuralStep_settle (isRepaired_structuralStep minRun e _) (Nat.le_succ _)

theorem settle_structuralStep_eq {s : Text} {limit : Nat}
    (h : (structuralStep minRun e (Toolbar.ofText s)).toolCount ≤ limit) :
    settle (structuralStep minRun e) limit (structuralStep minRun e (Toolbar.ofText s)) =
      settledToolbar minRun e s := by
  have hfixed := structuralStep_settle (e := e)
    (isRepaired_structuralStep minRun e (Toolbar.ofText s)) (Nat.le_refl _)
  rw [settledToolbar, settle_eq_settle_of_le hfixed h]
  exact (settle_eq_settle_of_le hfixed (Nat.le_succ _)).symm

theorem settledToolbar_induction {P : Toolbar → Prop} {s : Text}
    (hstep : ∀ u, P u → P (structuralStep minRun e u)) (h : P (Toolbar.ofText s)) :
    P (settledToolbar minRun e s) :=
  settle_induction hstep _ (hstep _ h)

theorem wellFormed_settledToolbar (minRun : Nat) (e : ExclusionSet) (s : Text) :
    (settledToolbar minRun e s).WellFormed :=
  settledToolbar_induction (fun _ => wellFormed_structuralStep) (Toolbar.wellFormed_ofText s)

theorem not_mem_names_of_mem_settledToolbar {s : Text} {name : ToolName}
    (h : name ∈ (settledToolbar minRun e s).tools) : name ∉ e.names := by
  rw [← apply_eq_self_of_fixed (structuralStep_settledToolbar minRun e s)] at h
  exact (ExclusionSet.mem_tools_apply.mp h).2

/-! ### The text of the result -/

theorem unmodified_of_mem_settledToolbar {s : Text} (hs : Modifier.Unmodified s) :
    ∀ name ∈ (settledToolbar minRun e s).tools, Modifier.Unmodified name := by
  refine settledToolbar_induction (P := fun u => ∀ name ∈ u.tools, Modifier.Unmodified name) ?_
    (Toolbar.unmodified_of_mem_tools_ofText hs)
  intro u hu
  refine Toolbar.unmodified_of_mem_tools_repair minRun fun name hname => ?_
  exact hu name (ExclusionSet.mem_tools_apply.mp hname).1

theorem strip_toText_settledToolbar (minRun : Nat) (e : ExclusionSet) (text : Text) :
    Modifier.strip (settledToolbar minRun e (Modifier.strip text)).toText =
      (settledToolbar minRun e (Modifier.strip text)).toText := by
  apply Modifier.strip_eq_self
  exact Toolbar.unmodified_toText (wellFormed_settledToolbar minRun e _)
    (unmodified_of_mem_settledToolbar (Modifier.unmodified_strip text))

/-- Without exclusions the first pass is the last one that changes anything. -/
theorem settledToolbar_empty (minRun : Nat) (s : Text) :
    settledToolbar minRun {} s = (Toolbar.ofText s).repair minRun := by
  have happly : ∀ u : Toolbar, ExclusionSet.apply {} u = u := fun u =>
    ExclusionSet.apply_eq_self (by simp)
  have hstep : ∀ u : Toolbar, structuralStep minRun {} u = u.repair minRun := by
    intro u
    rw [structuralStep, happly]
  rw [settledToolbar, hstep, settle_of_fixed]
  rw [hstep, Toolbar.isRepaired_repair minRun (Toolbar.ofText s)]

theorem settledToolbar_toText (ht : t.WellFormed) (h : structuralStep minRun e t = t) :
    settledToolbar minRun e t.toText = t := by
  have hfirst : structuralStep minRun e (Toolbar.ofText t.toText) = t :=
    (structuralStep_ofText_toText ht).trans h
  rw [settledToolbar, hfirst, settle_of_fixed h]

/-- The structural strategy is idempotent. Its run ends in a fixed point, which a limit of as many
passes as the first pass left tools suffices to reach; and the text of that fixed point is its own
normal form, whether the tools are excluded once more or nothing is. -/
theorem normalize_structural_idempotent (minRun : Nat) (fallback text : Text) (e : ExclusionSet) :
    let n : Normalizer := ⟨.structural, minRun, fallback⟩
    let first := structuralStep minRun e (Toolbar.ofText (Modifier.strip text))
    let last := settledToolbar minRun e (Modifier.strip text)
    n.normalize e text = last.toText ∧ structuralStep minRun e last = last ∧
      (∀ limit, first.toolCount ≤ limit → settle (structuralStep minRun e) limit first = last) ∧
      n.normalize e (n.normalize e text) = n.normalize e text ∧
      n.normalize {} (n.normalize e text) = n.normalize e text := by
  intro n first last
  have hfixed : structuralStep minRun e last = last := structuralStep_settledToolbar minRun e _
  have hwell : last.WellFormed := wellFormed_settledToolbar minRun e _
  have hstrip : Modifier.strip last.toText = last.toText :=
    strip_toText_settledToolbar minRun e text
  have hempty : structuralStep minRun {} last = last := by
    have happly : ExclusionSet.apply {} last = last := ExclusionSet.apply_eq_self (by simp)
    have hrepaired := isRepaired_structuralStep minRun e last
    rw [hfixed] at hrepaired
    rw [structuralStep, happly]
    exact hrepaired
  refine ⟨rfl, hfixed, ?_, ?_, ?_⟩
  · intro limit hlimit
    exact settle_structuralStep_eq hlimit
  · change (settledToolbar minRun e (Modifier.strip last.toText)).toText = last.toText
    rw [hstrip, settledToolbar_toText hwell hfixed]
  · change (settledToolbar minRun {} (Modifier.strip last.toText)).toText = last.toText
    rw [hstrip, settledToolbar_toText hwell hempty]

/-- The first pass brings the letters of `bold` together and the second one removes the name. -/
theorem settle_spelled_bold :
    (structuralStep 3 (.ofNames ["italic".toList, "bold".toList])
        (Toolbar.ofText (Modifier.strip "b,italic,o,l,d|underline".toList))).toolCount ≤ 2 ∧
      settle (structuralStep 3 (.ofNames ["italic".toList, "bold".toList])) 2
          (structuralStep 3 (.ofNames ["italic".toList, "bold".toList])
            (Toolbar.ofText (Modifier.strip "b,italic,o,l,d|underline".toList))) =
        settledToolbar 3 (.ofNames ["italic".toList, "bold".toList])
          (Modifier.strip "b,italic,o,l,d|underline".toList) := by
  have hcount : (structuralStep 3 (.ofNames ["italic".toList, "bold".toList])
      (Toolbar.ofText (Modifier.strip "b,italic,o,l,d|underline".toList))).toolCount ≤ 2 := by
    decide +kernel
  exact ⟨hcount, (normalize_structural_idempotent 3 [] _ _).2.2.1 2 hcount⟩

/-- No excluded tool survives the structural strategy, not even one that repair has spelled. -/
theorem not_contains_of_mem_tools_normalize_structural (minRun : Nat) (fallback text : Text)
    (e : ExclusionSet) :
    let n : Normalizer := ⟨.structural, minRun, fallback⟩
    ∀ name ∈ (Toolbar.ofText (n.normalize e text)).tools, e.contains name = false := by
  intro n name hname
  have hmem : name ∈ (settledToolbar minRun e (Modifier.strip text)).tools := by
    rwa [normalize, Toolbar.tools_ofText_toText (wellFormed_settledToolbar minRun e _)] at hname
  have hnot := not_mem_names_of_mem_settledToolbar hmem
  simpa [ExclusionSet.contains] using hnot

/-- Without `italic` the letters around it are fragments in a row, and these spell `bold`. -/
theorem not_contains_underline_of_spelled_bold :
    "underline".toList ∈ (Toolbar.ofText ((⟨.structural, 3, []⟩ : Normalizer).normalize
        (.ofNames ["italic".toList, "bold".toList]) "b,italic,o,l,d|underline".toList)).tools ∧
      (ExclusionSet.ofNames ["italic".toList, "bold".toList]).contains "underline".toList =
        false := by
  have hmem : "underline".toList ∈ (Toolbar.ofText ((⟨.structural, 3, []⟩ : Normalizer).normalize
      (.ofNames ["italic".toList, "bold".toList]) "b,italic,o,l,d|underline".toList)).tools := by
    decide +kernel
  exact ⟨hmem, not_contains_of_mem_tools_normalize_structural 3 [] _ _ _ hmem⟩

end Normalizer

end EditorToolbar
