import EditorToolbar.Proofs.Toolbar.Compaction

/-!
# Removing tools

On layouts, removing tools is `thinFrom`: the gap of a tool that is removed passes to the next one.
Whether a toolbar is compacted before tools are removed makes no difference once it is compacted
afterwards (`compact_mapTools_filter_compact`). Fusing beforehand may have dropped a seam between
two bare tools, but then what remains of the seam lies between two bare tools again, or next to a
stronger gap. `Gap.Agrees` is the invariant that says so while tools are being removed.
-/

namespace EditorToolbar

open Placed (fuseFrom thinFrom Coherent)

namespace Gap

/-- What has been collected since the last tool kept, with and without fusing: `before` says whether
that tool stands in braces, `last` whether the tool passed last does. -/
def Agrees (before last : Bool) (fused raw : Gap) : Prop :=
  (raw = within → before = last) ∧
    (fused = raw ∨ fused = within ∧ raw = seam ∧ before = false ∧ last = false)

theorem Agrees.refl (before : Bool) : Agrees before before within within :=
  ⟨fun _ => rfl, .inl rfl⟩

theorem Agrees.combine {before last next : Bool} {fused raw g : Gap}
    (h : Agrees before last fused raw) (hg : g = within → next = last) :
    Agrees before next (fused.combine (g.fuse last next)) (raw.combine g) := by
  obtain ⟨hraw, hfused⟩ := h
  constructor
  · intro hcombine
    obtain ⟨hr, rfl⟩ := eq_within_of_combine hcombine
    rw [hraw hr, hg rfl]
  · by_cases hseam : g = seam ∧ last = false ∧ next = false
    · obtain ⟨rfl, rfl, rfl⟩ := hseam
      have hwithin : fuse false false seam = within := rfl
      rw [hwithin, combine_within]
      rcases hfused with rfl | ⟨rfl, rfl, rfl, -⟩
      · by_cases hf : fused = within
        · exact .inr ⟨hf, by rw [hf]; rfl, hraw hf, rfl⟩
        · exact .inl (combine_seam_of_ne hf).symm
      · exact .inr ⟨rfl, rfl, rfl, rfl⟩
    · have hsame : fuse last next g = g := if_neg hseam
      rw [hsame]
      rcases hfused with rfl | ⟨rfl, rfl, rfl, rfl⟩
      · exact .inl rfl
      · cases g with
        | within => exact .inr ⟨rfl, rfl, rfl, hg rfl⟩
        | seam => exact .inl rfl
        | pipe => exact .inl rfl
        | divided d => exact .inl rfl

theorem Agrees.fuse_eq {before last : Bool} {fused raw : Gap} (h : Agrees before last fused raw) :
    fused.fuse before last = raw.fuse before last := by
  rcases h.2 with rfl | ⟨rfl, rfl, rfl, rfl⟩
  · rfl
  · rfl

end Gap

namespace Placed

theorem thinFrom_place (keep : ToolName → Bool) (pending g : Gap) (marks : List Mark) :
    thinFrom keep pending (Mark.place g marks) =
      Mark.place (pending.combine g) (marks.filter (Mark.isKept keep)) := by
  induction marks generalizing pending g with
  | nil => rfl
  | cons m marks ih =>
      cases m with
      | gap g' => simpa [List.filter_cons, Gap.combine_assoc] using ih pending (g.combine g')
      | tool braced name =>
          cases hk : keep name with
          | true => simpa [List.filter_cons, thinFrom, hk] using ih .within .within
          | false => simpa [List.filter_cons, thinFrom, hk] using ih (pending.combine g) .within

/-- Before tools are removed from a coherent layout, fusing is of no effect on the outcome. -/
theorem fuseFrom_thinFrom_fuseFrom (keep : ToolName → Bool) {before last : Bool} {fused raw : Gap}
    {l : List Placed} (hl : Coherent last l) (h : Gap.Agrees before last fused raw) :
    fuseFrom before (thinFrom keep fused (fuseFrom last l)) =
      fuseFrom before (thinFrom keep raw l) := by
  induction l generalizing before last fused raw with
  | nil => rfl
  | cons x l ih =>
      have hnext := h.combine hl.1
      rw [fuseFrom_cons, thinFrom, thinFrom]
      cases keep x.name with
      | true =>
          simp only [if_true, fuseFrom_cons]
          rw [hnext.fuse_eq, ih hl.2 (Gap.Agrees.refl x.braced)]
      | false => exact ih hl.2 hnext

end Placed

namespace Toolbar

theorem marks_mapTools_filter (keep : ToolName → Bool) (t : Toolbar) :
    (t.mapTools (List.filter keep)).marks = t.marks.filter (Mark.isKept keep) := by
  have hgroup : ∀ g : Group, Group.marks { g with tools := g.tools.filter keep } =
      g.marks.filter (Mark.isKept keep) := by
    intro g
    have htool : Mark.isKept keep ∘ Mark.tool g.braced = keep := rfl
    simp [Group.marks, List.filter_cons, List.filter_map, htool]
  have hsection : ∀ s : Section, Section.marks { s with groups := s.groups.map fun g =>
      { g with tools := g.tools.filter keep } } = s.marks.filter (Mark.isKept keep) := by
    intro s
    simp [Section.marks, List.filter_cons, List.flatMap_map, List.filter_flatMap, hgroup]
  simp [mapTools, marks, List.flatMap_map, List.filter_flatMap, hsection]

/-- On the layout, removing tools passes their gaps on. -/
theorem layout_mapTools_filter (keep : ToolName → Bool) (t : Toolbar) :
    (t.mapTools (List.filter keep)).layout = thinFrom keep .within t.layout := by
  rw [layout, marks_mapTools_filter, layout, Placed.thinFrom_place, Gap.within_combine]

/-- Compacting before tools are removed changes nothing. -/
theorem compact_mapTools_filter_compact (keep : ToolName → Bool) (t : Toolbar) :
    (t.compact.mapTools (List.filter keep)).compact =
      (t.mapTools (List.filter keep)).compact := by
  rw [compact_eq_compact_iff, layout_mapTools_filter, layout_mapTools_filter,
    layout_compact t true]
  exact Placed.fuseFrom_thinFrom_fuseFrom keep (t.coherent_layout true) (Gap.Agrees.refl true)

end Toolbar

end EditorToolbar
