import EditorToolbar.Exclusion.Basic
import EditorToolbar.Proofs.Toolbar.WellFormed

/-!
# Excluding tools

`ExclusionSet.apply` filters the tools of every group. It keeps a toolbar well-formed and never adds
a tool; if it removes none, it changes nothing. An exclusion set that has been built from given
names and by combining other such sets has only names with a character, since a name that cleans to
nothing is not taken in.
-/

namespace EditorToolbar

namespace ExclusionSet

/-- The exclusion sets that can be made from lists of names by combining. -/
inductive Built : ExclusionSet → Prop
  | ofNames (names : List Text) : Built (.ofNames names)
  | chain {e other : ExclusionSet} : Built e → Built other → Built (e.chain other)

theorem mem_names_insert {e : ExclusionSet} {given : Text} {name : ToolName} :
    name ∈ (e.insert given).names ↔ name ∈ e.names ∨ name ≠ [] ∧ clean given = name := by
  rw [insert_eq]
  split
  · next h =>
      refine ⟨.inl, ?_⟩
      rintro (hname | ⟨hne, rfl⟩)
      · exact hname
      · exact h.resolve_left hne
  · next h =>
      rw [not_or] at h
      rw [List.mem_append, List.mem_singleton]
      constructor
      · rintro (hname | rfl)
        · exact .inl hname
        · exact .inr ⟨h.1, rfl⟩
      · rintro (hname | ⟨-, rfl⟩)
        · exact .inl hname
        · exact .inr rfl

/-- Taking names in adds what they clean to, unless that is nothing. -/
theorem mem_names_foldl_insert {names : List Text} {e : ExclusionSet} {name : ToolName} :
    name ∈ (names.foldl insert e).names ↔
      name ∈ e.names ∨ name ≠ [] ∧ ∃ given ∈ names, clean given = name := by
  induction names generalizing e with
  | nil => simp
  | cons given names ih =>
      rw [List.foldl_cons, ih, mem_names_insert, or_assoc, ← and_or_left]
      simp only [List.mem_cons, exists_eq_or_imp]

theorem forall_mem_names_foldl_insert {P : ToolName → Prop} {names : List Text} {e : ExclusionSet}
    (he : ∀ name ∈ e.names, P name) (h : ∀ given ∈ names, clean given ≠ [] → P (clean given)) :
    ∀ name ∈ (names.foldl insert e).names, P name := by
  intro name hname
  rcases mem_names_foldl_insert.mp hname with hmem | ⟨hne, given, hgiven, rfl⟩
  · exact he name hmem
  · exact h given hgiven hne

/-- What holds of every name that is left after cleaning holds of the names of a built set. -/
theorem Built.forall_mem_names {P : ToolName → Prop}
    (hclean : ∀ given, clean given ≠ [] → P (clean given)) {e : ExclusionSet} (h : Built e) :
    ∀ name ∈ e.names, P name := by
  induction h with
  | ofNames names => exact forall_mem_names_foldl_insert (by simp) fun given _ => hclean given
  | chain _ _ ih _ => exact forall_mem_names_foldl_insert ih fun given _ => hclean given

theorem Built.ne_nil {e : ExclusionSet} (h : Built e) : ∀ name ∈ e.names, name ≠ [] :=
  h.forall_mem_names fun _ hne => hne

theorem Built.isName {e : ExclusionSet} (h : Built e)
    (hletters : ∀ name ∈ e.names, ∀ c ∈ name, Token.isNameChar c = true) :
    ∀ name ∈ e.names, Token.IsName name :=
  fun name hname => ⟨h.ne_nil name hname, hletters name hname⟩

theorem apply_eq_mapTools_filter (e : ExclusionSet) (t : Toolbar) :
    e.apply t = t.mapTools (List.filter fun name => !e.contains name) := rfl

theorem tools_apply (e : ExclusionSet) (t : Toolbar) :
    (e.apply t).tools = t.tools.filter fun name => !e.contains name := by
  rw [apply, Toolbar.tools_mapTools, Toolbar.tools, List.filter_flatMap]

theorem mem_tools_apply {e : ExclusionSet} {t : Toolbar} {name : ToolName} :
    name ∈ (e.apply t).tools ↔ name ∈ t.tools ∧ name ∉ e.names := by
  simp [tools_apply, contains]

theorem wellFormed_apply {t : Toolbar} (ht : t.WellFormed) (e : ExclusionSet) :
    (e.apply t).WellFormed := by
  refine ht.mapTools fun tools htools name hname => ?_
  exact htools name (List.mem_of_mem_filter hname)

theorem apply_eq_self {e : ExclusionSet} {t : Toolbar} (h : ∀ name ∈ t.tools, name ∉ e.names) :
    e.apply t = t := by
  apply Toolbar.mapTools_eq_self
  intro g hg
  rw [List.filter_eq_self]
  intro name hname
  have hnot := h name (Toolbar.mem_tools_iff.mpr ⟨g, hg, hname⟩)
  simpa [contains] using hnot

/-- A set that removes no tool changes nothing. -/
theorem apply_eq_self_of_toolCount_le {e : ExclusionSet} {t : Toolbar}
    (h : t.toolCount ≤ (e.apply t).toolCount) : e.apply t = t := by
  apply apply_eq_self
  rw [Toolbar.toolCount, Toolbar.toolCount, tools_apply] at h
  have hall := List.length_filter_eq_length_iff.mp (Nat.le_antisymm (List.length_filter_le ..) h)
  intro name hname
  simpa [contains] using hall name hname

/-- Excluding tools looks at a toolbar only up to compaction. -/
theorem compact_apply_congr {t u : Toolbar} (h : t.compact = u.compact) (e : ExclusionSet) :
    (e.apply t).compact = (e.apply u).compact := by
  rw [apply_eq_mapTools_filter, ← Toolbar.compact_mapTools_filter_compact, h,
    Toolbar.compact_mapTools_filter_compact, ← apply_eq_mapTools_filter]

/-- Excluding two sets one after the other is excluding the names of both. -/
theorem apply_apply {a b c : ExclusionSet}
    (hc : ∀ name, name ∈ c.names ↔ name ∈ a.names ∨ name ∈ b.names) (t : Toolbar) :
    b.apply (a.apply t) = c.apply t := by
  have hkeep : ∀ name, (!b.contains name && !a.contains name) = !c.contains name := by
    intro name
    rw [Bool.eq_iff_iff]
    simp [contains, hc, and_comm]
  rw [apply, apply, apply, Toolbar.mapTools_mapTools]
  simp only [List.filter_filter, hkeep]

end ExclusionSet

end EditorToolbar
