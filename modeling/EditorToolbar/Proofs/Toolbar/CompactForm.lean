import Mathlib.Data.List.Chain
import EditorToolbar.Toolbar.Compact

/-!
# Compact toolbars

`Toolbar.IsCompact` says what compaction produces: no group and no section is empty, nothing stands
before the first group of a section or before the first section, and no bare group continues a bare
group. The condition looks only at which groups are empty, so it survives any change of the tools
that empties no group (`IsCompact.mapTools`).
-/

namespace EditorToolbar

/-- A section without empty groups, in which nothing is attached to the left of the first group and
no bare group continues the group before it. -/
structure Section.IsCompact (s : Section) : Prop where
  groups_ne_nil : s.groups ≠ []
  tools_ne_nil : ∀ g ∈ s.groups, g.tools ≠ []
  first_joint : ∀ g ∈ s.groups.head?, g.joint = .pipe
  separated : s.groups.IsChain fun g h => g.continues h = false

/-- A toolbar of compact sections, the first of which has no divider. -/
structure Toolbar.IsCompact (t : Toolbar) : Prop where
  sections : ∀ s ∈ t.sections, s.IsCompact
  first_divider : ∀ s ∈ t.sections.head?, s.divider = none

/-! ### What compaction produces -/

namespace Group

theorem continues_iff (g h : Group) :
    g.continues h = true ↔ h.joint = .adjacent ∧ g.braced = false ∧ h.braced = false := by
  simp [continues, and_assoc]

theorem tools_ne_nil_of_mem_dropEmpty {pending : Joint} {groups : List Group} {g : Group}
    (h : g ∈ dropEmpty pending groups) : g.tools ≠ [] := by
  induction groups generalizing pending with
  | nil => cases h
  | cons x groups ih =>
      by_cases hx : x.tools = []
      · rw [dropEmpty_cons_of_empty pending hx] at h
        exact ih h
      · rw [dropEmpty_cons_of_ne_nil pending hx, List.mem_cons] at h
        rcases h with rfl | h
        · exact hx
        · exact ih h

theorem tools_ne_nil_of_mem_mergeBare {groups : List Group} (hne : ∀ g ∈ groups, g.tools ≠ [])
    {g : Group} (h : g ∈ mergeBare groups) : g.tools ≠ [] := by
  induction groups generalizing g with
  | nil => cases h
  | cons x groups ih =>
      have hx : x.tools ≠ [] := hne x (by simp)
      have ih' := fun {g} => ih (g := g) fun y hy => hne y (List.mem_cons_of_mem _ hy)
      rw [mergeBare] at h
      cases hm : mergeBare groups with
      | nil =>
          rw [hm, List.mem_singleton] at h
          exact h ▸ hx
      | cons y more =>
          rw [hm] at h ih'
          dsimp only at h
          split at h
          · rcases List.mem_cons.mp h with rfl | h
            · simp [hx]
            · exact ih' (List.mem_cons_of_mem _ h)
          · rcases List.mem_cons.mp h with rfl | h
            · exact hx
            · exact ih' h

theorem isChain_mergeBare (groups : List Group) :
    (mergeBare groups).IsChain fun g h => g.continues h = false := by
  induction groups with
  | nil => exact .nil
  | cons g groups ih =>
      rw [mergeBare]
      cases hm : mergeBare groups with
      | nil => exact .singleton g
      | cons h more =>
          rw [hm] at ih
          dsimp only
          split
          · next hcont =>
              -- the merged group is as bare as `h`, so it continues what `h` continues
              obtain ⟨-, hg, hh⟩ := (continues_iff g h).mp hcont
              rw [List.isChain_cons] at ih ⊢
              refine ⟨fun x hx => ?_, ih.2⟩
              have hprev := ih.1 x hx
              simpa [continues, hg, hh] using hprev
          · next hcont => exact .cons_cons (by simpa using hcont) ih

theorem exists_mem_of_mem_attachFirst {groups : List Group} {g : Group}
    (h : g ∈ attachFirst groups) : ∃ x ∈ groups, g.tools = x.tools := by
  cases groups with
  | nil => cases h
  | cons x groups =>
      rcases List.mem_cons.mp h with rfl | h
      · exact ⟨x, by simp, rfl⟩
      · exact ⟨g, List.mem_cons_of_mem _ h, rfl⟩

theorem joint_of_mem_head?_attachFirst {groups : List Group} {g : Group}
    (h : g ∈ (attachFirst groups).head?) : g.joint = .pipe := by
  cases groups with
  | nil => cases h
  | cons x groups => cases h; rfl

theorem isChain_attachFirst {groups : List Group}
    (h : groups.IsChain fun g h => g.continues h = false) :
    (attachFirst groups).IsChain fun g h => g.continues h = false := by
  cases groups with
  | nil => exact .nil
  | cons g groups =>
      rw [List.isChain_cons] at h
      rw [attachFirst, List.isChain_cons]
      exact h

end Group

namespace Section

theorem isCompact_compact {groups : List Group} (h : Group.compact groups ≠ [])
    (d : Option Divider) : IsCompact ⟨d, Group.compact groups⟩ := by
  refine ⟨h, ?_, fun _ => Group.joint_of_mem_head?_attachFirst,
    Group.isChain_attachFirst (Group.isChain_mergeBare _)⟩
  intro g hg
  obtain ⟨x, hx, htools⟩ := Group.exists_mem_of_mem_attachFirst hg
  rw [htools]
  exact Group.tools_ne_nil_of_mem_mergeBare
    (fun y hy => Group.tools_ne_nil_of_mem_dropEmpty hy) hx

theorem exists_mem_of_mem_dropEmpty {d : Option Divider} {sections : List Section} {s : Section}
    (h : s ∈ dropEmpty d sections) : s.groups ≠ [] ∧ ∃ x ∈ sections, s.groups = x.groups := by
  induction sections generalizing d with
  | nil => cases h
  | cons x sections ih =>
      rw [dropEmpty] at h
      split at h
      · obtain ⟨hne, y, hy, heq⟩ := ih h
        exact ⟨hne, y, List.mem_cons_of_mem _ hy, heq⟩
      · next hx =>
          rcases List.mem_cons.mp h with rfl | h
          · exact ⟨by simpa using hx, x, by simp, rfl⟩
          · obtain ⟨hne, y, hy, heq⟩ := ih h
            exact ⟨hne, y, List.mem_cons_of_mem _ hy, heq⟩

theorem exists_mem_of_mem_openFirst {sections : List Section} {s : Section}
    (h : s ∈ openFirst sections) : ∃ x ∈ sections, s.groups = x.groups := by
  cases sections with
  | nil => cases h
  | cons x sections =>
      rcases List.mem_cons.mp h with rfl | h
      · exact ⟨x, by simp, rfl⟩
      · exact ⟨s, List.mem_cons_of_mem _ h, rfl⟩

theorem divider_of_mem_head?_openFirst {sections : List Section} {s : Section}
    (h : s ∈ (openFirst sections).head?) : s.divider = none := by
  cases sections with
  | nil => cases h
  | cons x sections => cases h; rfl

end Section

namespace Toolbar

theorem isCompact_compact (t : Toolbar) : t.compact.IsCompact := by
  refine ⟨fun s hs => ?_, fun _ => Section.divider_of_mem_head?_openFirst⟩
  obtain ⟨x, hx, hsx⟩ := Section.exists_mem_of_mem_openFirst hs
  obtain ⟨hne, y, hy, hxy⟩ := Section.exists_mem_of_mem_dropEmpty hx
  obtain ⟨z, -, rfl⟩ := List.mem_map.mp hy
  obtain ⟨d, groups⟩ := s
  obtain rfl : groups = Group.compact z.groups := hsx.trans hxy
  rw [hxy] at hne
  exact Section.isCompact_compact hne d

/-- A compact toolbar without tools has nothing in it. -/
theorem IsCompact.eq_empty {t : Toolbar} (ht : t.IsCompact) (h : t.tools = []) : t = ⟨[]⟩ := by
  obtain ⟨sections⟩ := t
  cases sections with
  | nil => rfl
  | cons s sections =>
      have hs : s.IsCompact := ht.sections s (by simp)
      obtain ⟨g, groups, hgroups⟩ := List.exists_cons_of_ne_nil hs.groups_ne_nil
      have hg : g.tools = [] := by
        rw [tools_cons, Section.tools, hgroups] at h
        simp_all
      exact absurd hg (hs.tools_ne_nil g (by simp [hgroups]))

/-- Changing the tools within the groups keeps a toolbar compact if it empties none of them. -/
theorem IsCompact.mapTools {t : Toolbar} (ht : t.IsCompact) {f : List ToolName → List ToolName}
    (hf : ∀ tools, tools ≠ [] → f tools ≠ []) : (t.mapTools f).IsCompact := by
  constructor
  · intro s hs
    obtain ⟨x, hx, rfl⟩ := List.mem_map.mp hs
    obtain ⟨hgroups, htools, hfirst, hchain⟩ := ht.sections x hx
    refine ⟨by simpa using hgroups, ?_, ?_, ?_⟩
    · intro g hg
      obtain ⟨y, hy, rfl⟩ := List.mem_map.mp hg
      exact hf _ (htools y hy)
    · intro g hg
      rw [List.head?_map, Option.mem_def, Option.map_eq_some_iff] at hg
      obtain ⟨y, hy, rfl⟩ := hg
      exact hfirst y hy
    · rw [List.isChain_map]
      exact hchain
  · intro s hs
    change s ∈ (List.map _ t.sections).head? at hs
    rw [List.head?_map, Option.mem_def, Option.map_eq_some_iff] at hs
    obtain ⟨x, hx, rfl⟩ := hs
    exact ht.first_divider x hx

end Toolbar

end EditorToolbar
