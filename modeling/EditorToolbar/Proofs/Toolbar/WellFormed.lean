import EditorToolbar.Proofs.Toolbar.Reading

/-!
# Well-formed toolbars

A toolbar is well-formed when its tools are names and only its first section has no divider. These
are the toolbars that can be written so that they can be read again. What is read is well-formed,
and so is what compaction and changes within the groups make of it.
-/

namespace EditorToolbar

namespace Toolbar

/-- All tools are names and every section after the first has a divider. -/
structure WellFormed (t : Toolbar) : Prop where
  names : ∀ name ∈ t.tools, Token.IsName name
  dividers : ∀ s ∈ t.sections.tail, s.divider ≠ none

instance : DecidablePred WellFormed := fun t =>
  decidable_of_iff ((∀ name ∈ t.tools, Token.IsName name) ∧ ∀ s ∈ t.sections.tail, s.divider ≠ none)
    ⟨fun h => ⟨h.1, h.2⟩, fun h => ⟨h.names, h.dividers⟩⟩

theorem tools_mapTools (f : List ToolName → List ToolName) (t : Toolbar) :
    (t.mapTools f).tools = t.groups.flatMap fun g => f g.tools := by
  simp [mapTools, tools, groups, List.flatMap_map, List.flatMap_assoc]

theorem mapTools_mapTools (f g : List ToolName → List ToolName) (t : Toolbar) :
    (t.mapTools f).mapTools g = t.mapTools fun tools => g (f tools) := by
  simp [mapTools]

theorem mem_tools_iff {t : Toolbar} {name : ToolName} :
    name ∈ t.tools ↔ ∃ g ∈ t.groups, name ∈ g.tools := by
  simp [tools]

theorem mem_tools_iff_exists_section {t : Toolbar} {name : ToolName} :
    name ∈ t.tools ↔ ∃ s ∈ t.sections, name ∈ s.tools := by
  rw [tools, groups, List.flatMap_assoc]
  exact List.mem_flatMap

theorem mapTools_eq_self {f : List ToolName → List ToolName} {t : Toolbar}
    (h : ∀ g ∈ t.groups, f g.tools = g.tools) : t.mapTools f = t := by
  have hgroups : ∀ groups : List Group, (∀ g ∈ groups, f g.tools = g.tools) →
      (groups.map fun g => { g with tools := f g.tools }) = groups := by
    intro groups hf
    refine (List.map_congr_left fun g hg => ?_).trans (List.map_id _)
    rw [hf g hg]
    rfl
  have hsections : (t.sections.map fun s => { s with groups := s.groups.map fun g =>
      { g with tools := f g.tools } }) = t.sections := by
    refine (List.map_congr_left fun s hs => ?_).trans (List.map_id _)
    rw [hgroups s.groups fun g hg => h g (List.mem_flatMap.mpr ⟨s, hs, hg⟩)]
    rfl
  rw [mapTools, hsections]

@[simp] theorem tools_compact (t : Toolbar) : t.compact.tools = t.tools := by
  rw [← map_name_layout, layout_compact t true, Placed.map_name_fuseFrom, map_name_layout]

theorem WellFormed.mapTools {t : Toolbar} (ht : t.WellFormed)
    {f : List ToolName → List ToolName}
    (hf : ∀ tools, (∀ name ∈ tools, Token.IsName name) → ∀ name ∈ f tools, Token.IsName name) :
    (t.mapTools f).WellFormed := by
  constructor
  · intro name hname
    rw [tools_mapTools, List.mem_flatMap] at hname
    obtain ⟨g, hg, hname⟩ := hname
    exact hf g.tools (fun n hn => ht.names n (mem_tools_iff.mpr ⟨g, hg, hn⟩)) name hname
  · intro s hs
    change s ∈ (List.map _ t.sections).tail at hs
    rw [List.map_tail.symm] at hs
    obtain ⟨x, hx, rfl⟩ := List.mem_map.mp hs
    exact ht.dividers x hx

end Toolbar

theorem Section.divider_ne_none_of_mem_dropEmpty {pending : Option Divider}
    {sections : List Section} (h : ∀ s ∈ sections, s.divider ≠ none) :
    ∀ s ∈ dropEmpty pending sections, s.divider ≠ none := by
  have hcombine : ∀ d e : Option Divider, e ≠ none → Divider.combine? d e ≠ none := by
    intro d e he
    cases e with
    | none => exact absurd rfl he
    | some e => cases d <;> simp [Divider.combine?]
  induction sections generalizing pending with
  | nil => intro s hs; cases hs
  | cons x sections ih =>
      have htail : ∀ {p}, ∀ s ∈ dropEmpty p sections, s.divider ≠ none :=
        fun {p} => ih fun y hy => h y (List.mem_cons_of_mem _ hy)
      intro s hs
      rw [dropEmpty] at hs
      split at hs
      · exact htail s hs
      · rcases List.mem_cons.mp hs with rfl | hs
        · exact hcombine _ _ (h x (by simp))
        · exact htail s hs

namespace Toolbar

theorem WellFormed.compact {t : Toolbar} (ht : t.WellFormed) : t.compact.WellFormed := by
  refine ⟨by simpa using ht.names, ?_⟩
  have hopen : ∀ l : List Section, (Section.openFirst l).tail = l.tail := by
    intro l
    cases l <;> rfl
  obtain ⟨sections⟩ := t
  rw [Toolbar.compact]
  simp only [hopen]
  cases sections with
  | nil => intro s hs; cases hs
  | cons x sections =>
      have htail : ∀ s ∈ sections.map fun s => { s with groups := Group.compact s.groups },
          s.divider ≠ none := by
        intro s hs
        obtain ⟨y, hy, rfl⟩ := List.mem_map.mp hs
        exact ht.dividers y hy
      intro s hs
      rw [List.map_cons, Section.dropEmpty] at hs
      split at hs
      · exact Section.divider_ne_none_of_mem_dropEmpty htail s (List.mem_of_mem_tail hs)
      · exact Section.divider_ne_none_of_mem_dropEmpty htail s hs

theorem wellFormed_ofText (text : Text) : (ofText text).WellFormed := by
  constructor
  · intro name hname
    rw [tools_ofText] at hname
    exact Token.isName_of_mem_tokenize hname
  · have hread : ∀ (tokens : List Token) (k : Cursor),
        ∀ s ∈ (k.read tokens).2, s.divider ≠ none := by
      intro tokens
      induction tokens with
      | nil => intro k s hs; cases hs
      | cons t tokens ih =>
          intro k s hs
          cases t with
          | tool name => exact ih _ s hs
          | comma => exact ih _ s hs
          | pipe => exact ih _ s hs
          | openBrace => exact ih _ s hs
          | closeBrace => exact ih _ s hs
          | divider d =>
              rcases List.mem_cons.mp hs with rfl | hs
              · simp
              · exact ih _ s hs
    exact hread _ _

end Toolbar

end EditorToolbar
