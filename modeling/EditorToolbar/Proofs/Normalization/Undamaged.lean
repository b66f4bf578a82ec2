import EditorToolbar.Proofs.Normalization.Structural
import EditorToolbar.Proofs.RoundTrip

/-!
# Undamaged toolbars

A toolbar is undamaged if no tool in it is a fragment or a glued name. There is nothing to mend in
it, so repair only compacts it; and it stays undamaged when tools are removed, and when its text is
read again. Hence the structural strategy is done with it after the first pass: what it leaves are
the tools that are not excluded.

So normal forms of undamaged toolbars compose. What one round of exclusion leaves is undamaged, and
reading it again changes nothing that a second round could see, whatever groups and sections have
vanished in between: two rounds are one round with the names of both.
-/

namespace EditorToolbar

theorem mendTools_eq_self {minRun : Nat} {tools : List ToolName}
    (h : ∀ name ∈ tools, Fragments.isFragment name = false ∧ GluedNames.cut? name = none) :
    mendTools minRun tools = tools := by
  rw [mendTools, Fragments.rejoin_eq_self fun name hname => (h name hname).1,
    GluedNames.splitAll_eq_self fun name hname => (h name hname).2]

namespace Toolbar

/-- No tool is a fragment, and no tool is a glued name. -/
def Undamaged (t : Toolbar) : Prop :=
  ∀ name ∈ t.tools, Fragments.isFragment name = false ∧ GluedNames.cut? name = none

instance : DecidablePred Undamaged := fun t =>
  inferInstanceAs (Decidable (∀ name ∈ t.tools,
    Fragments.isFragment name = false ∧ GluedNames.cut? name = none))

variable {t : Toolbar}

theorem undamaged_iff : t.Undamaged ↔ ∀ name ∈ t.tools, Fragments.isFragment name = false ∧
    ∀ p ∈ GluedNames.pairs, ¬ p.glued <:+: name := by
  simp only [Undamaged, GluedNames.cut?_eq_none_iff]

theorem Undamaged.compact (ht : t.Undamaged) : t.compact.Undamaged := by
  rwa [Undamaged, tools_compact]

theorem Undamaged.apply (ht : t.Undamaged) (e : ExclusionSet) : (e.apply t).Undamaged :=
  fun name hname => ht name (ExclusionSet.mem_tools_apply.mp hname).1

theorem Undamaged.ofText_toText (ht : t.Undamaged) (hwell : t.WellFormed) :
    (ofText t.toText).Undamaged := by
  rwa [Undamaged, tools_ofText_toText hwell]

theorem Undamaged.repair_eq_compact (ht : t.Undamaged) (minRun : Nat) :
    t.repair minRun = t.compact := by
  refine mapTools_eq_self fun g hg => mendTools_eq_self fun name hname => ?_
  exact ht.compact name (mem_tools_iff.mpr ⟨g, hg, hname⟩)

end Toolbar

variable {s : Text}

theorem repairText_of_undamaged (hs : (Toolbar.ofText s).Undamaged) (minRun : Nat) :
    repairText minRun s = (Toolbar.ofText s).toText := by
  rw [repairText, hs.repair_eq_compact, Toolbar.toText_compact]

namespace Normalizer

/-- The run is over after the first pass: nothing that is left is excluded, and nothing is mended. -/
theorem settledToolbar_of_undamaged (hs : (Toolbar.ofText s).Undamaged) (minRun : Nat)
    (e : ExclusionSet) : settledToolbar minRun e s = (e.apply (Toolbar.ofText s)).compact := by
  generalize ht : e.apply (Toolbar.ofText s) = t
  have hleft : t.Undamaged := ht ▸ hs.apply e
  have hfirst : structuralStep minRun e (Toolbar.ofText s) = t.compact := by
    rw [structuralStep, ht, hleft.repair_eq_compact]
  have happly : e.apply t.compact = t.compact := by
    apply ExclusionSet.apply_eq_self
    intro name hname
    rw [Toolbar.tools_compact, ← ht] at hname
    exact (ExclusionSet.mem_tools_apply.mp hname).2
  have hfixed : structuralStep minRun e t.compact = t.compact := by
    rw [structuralStep, happly, hleft.compact.repair_eq_compact, t.isCompact_compact.compact_eq]
  rw [settledToolbar, hfirst, settle_of_fixed hfixed]

theorem toText_settledToolbar_of_undamaged (hs : (Toolbar.ofText s).Undamaged) (minRun : Nat)
    (e : ExclusionSet) :
    (settledToolbar minRun e s).toText = (e.apply (Toolbar.ofText s)).toText := by
  rw [settledToolbar_of_undamaged hs, Toolbar.toText_compact]

theorem tools_ofText_toText_apply (e : ExclusionSet) (s : Text) :
    (Toolbar.ofText (e.apply (Toolbar.ofText s)).toText).tools =
      (Toolbar.ofText s).tools.filter fun name => !e.contains name := by
  rw [Toolbar.tools_ofText_toText (ExclusionSet.wellFormed_apply (Toolbar.wellFormed_ofText s) e),
    ExclusionSet.tools_apply]

/-- A second round sees the toolbar that the first one has left. -/
theorem toText_settledToolbar_again (hs : (Toolbar.ofText s).Undamaged) (minRun : Nat)
    {a b c : ExclusionSet} (hc : ∀ name, name ∈ c.names ↔ name ∈ a.names ∨ name ∈ b.names) :
    (settledToolbar minRun b (settledToolbar minRun a s).toText).toText =
      (settledToolbar minRun c s).toText := by
  have hwell : (a.apply (Toolbar.ofText s)).WellFormed :=
    ExclusionSet.wellFormed_apply (Toolbar.wellFormed_ofText s) a
  have hagain : (Toolbar.ofText (a.apply (Toolbar.ofText s)).toText).Undamaged :=
    (hs.apply a).ofText_toText hwell
  have hread := ExclusionSet.compact_apply_congr (Toolbar.compact_ofText_toText hwell) b
  rw [toText_settledToolbar_of_undamaged hs, toText_settledToolbar_of_undamaged hagain,
    Toolbar.toText_eq_of_compact_eq hread, ExclusionSet.apply_apply hc,
    toText_settledToolbar_of_undamaged hs]

/-- Of an undamaged text the structural strategy removes the excluded tools and nothing else: the
result is the text of the toolbar without them, and the tools left are the others, in order.
Excluding two sets one after the other comes to excluding the names of both at once. -/
theorem normalize_structural_of_undamaged (minRun : Nat) (fallback text : Text)
    (htext : ∀ name ∈ (Toolbar.ofText (Modifier.strip text)).tools,
      Fragments.isFragment name = false ∧ ∀ p ∈ GluedNames.pairs, ¬ p.glued <:+: name) :
    let n : Normalizer := ⟨.structural, minRun, fallback⟩
    let t := Toolbar.ofText (Modifier.strip text)
    (∀ e : ExclusionSet, n.normalize e text = (e.apply t).toText ∧
        (Toolbar.ofText (n.normalize e text)).tools =
          t.tools.filter fun name => !e.contains name) ∧
      ∀ a b c : ExclusionSet, (∀ name, name ∈ c.names ↔ name ∈ a.names ∨ name ∈ b.names) →
        n.normalize b (n.normalize a text) = n.normalize c text := by
  intro n t
  have ht : t.Undamaged := Toolbar.undamaged_iff.mpr htext
  have hnormalize : ∀ e : ExclusionSet, n.normalize e text = (e.apply t).toText :=
    toText_settledToolbar_of_undamaged ht minRun
  refine ⟨fun e => ⟨hnormalize e, ?_⟩, fun a b c hc => ?_⟩
  · rw [hnormalize e, tools_ofText_toText_apply]
  · change (settledToolbar minRun b (Modifier.strip (settledToolbar minRun a _).toText)).toText =
      (settledToolbar minRun c _).toText
    rw [strip_toText_settledToolbar, toText_settledToolbar_again ht minRun hc]

/-- The first round empties a group in braces and a section, the second one the group between two
bare ones. -/
theorem normalize_structural_undo_then_italic :
    let n : Normalizer := ⟨.structural, 2, []⟩
    let text := "bold:toggle{italic} code|{undo}# undo /find".toList
    let a := ExclusionSet.ofNames ["undo".toList]
    let b := ExclusionSet.ofNames ["italic".toList]
    let c := a.chain b
    (∀ name ∈ (Toolbar.ofText (Modifier.strip text)).tools,
        Fragments.isFragment name = false ∧ ∀ p ∈ GluedNames.pairs, ¬ p.glued <:+: name) ∧
      (∀ name, name ∈ c.names ↔ name ∈ a.names ∨ name ∈ b.names) ∧
      n.normalize a text = "bold{italic}code/find".toList ∧
      n.normalize c text = "bold,code/find".toList ∧
      n.normalize b (n.normalize a text) = n.normalize c text := by
  intro n text a b c
  have htext : ∀ name ∈ (Toolbar.ofText (Modifier.strip text)).tools,
      Fragments.isFragment name = false ∧ ∀ p ∈ GluedNames.pairs, ¬ p.glued <:+: name := by
    rw [← Toolbar.undamaged_iff]
    decide +kernel
  have hc : ∀ name, name ∈ c.names ↔ name ∈ a.names ∨ name ∈ b.names := by
    have ha : a.names = ["undo".toList] := by decide +kernel
    have hb : b.names = ["italic".toList] := by decide +kernel
    have hnames : c.names = ["undo".toList, "italic".toList] := by decide +kernel
    intro name
    rw [ha, hb, hnames, List.mem_cons, List.mem_singleton, List.mem_singleton]
  refine ⟨htext, hc, by decide +kernel, by decide +kernel, ?_⟩
  exact (normalize_structural_of_undamaged 2 [] text htext).2 a b c hc

end Normalizer

end EditorToolbar
