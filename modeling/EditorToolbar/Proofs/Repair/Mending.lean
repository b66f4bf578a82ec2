import EditorToolbar.Repair
import EditorToolbar.Proofs.Repair.Fragments
import EditorToolbar.Proofs.Repair.GluedNames
import EditorToolbar.Proofs.Toolbar.WellFormed

/-!
# Mended toolbars

Mending rejoins fragments and then splits glued names. Splitting a rejoined name gives no fragments
back, so a list that has been mended is not changed by mending it again, and neither is a toolbar
that has been repaired.

For the number of tools the order matters. Rejoining may spell a name that is then split, but into
no more parts than there were fragments. So mending adds tools only where a name that was there
before is split: a list without glued names never grows (`length_mendTools_le`).
-/

namespace EditorToolbar

open GluedNames (cut? split splitAll)
open Fragments (isFragment Short rejoin rejoinFrom flush)

namespace GluedNames

theorem splitAll_cons (tool : ToolName) (tools : List ToolName) :
    splitAll (tool :: tools) = split tool ++ splitAll tools := by
  rw [splitAll, List.flatMap_cons, ← splitAll]

theorem splitAll_append (l m : List ToolName) : splitAll (l ++ m) = splitAll l ++ splitAll m := by
  rw [splitAll, List.flatMap_append, ← splitAll, ← splitAll]

theorem cut?_of_isFragment {tool : ToolName} (h : isFragment tool = true) : cut? tool = none := by
  obtain ⟨c, rfl, -⟩ := (Fragments.isFragment_iff tool).mp h
  exact cut?_eq_none_of_length_lt (by simp)

theorem isFragment_of_mem_split {name part : ToolName} (hname : isFragment name = false)
    (h : part ∈ split name) : isFragment part = false := by
  by_cases hlen : 2 ≤ name.length
  · exact Fragments.isFragment_of_two_le (two_le_length_of_mem_splitWithin hlen h)
  · rw [split_of_cut?_eq_none (cut?_eq_none_of_length_lt (by omega))] at h
    cases List.mem_singleton.mp h
    exact hname

/-- Splitting neither makes nor ends a run of fragments. -/
theorem short_splitAll {minRun : Nat} (hminRun : 0 < minRun) {k : Nat} {tools : List ToolName} :
    Short minRun k (splitAll tools) ↔ Short minRun k tools := by
  induction tools generalizing k with
  | nil => rfl
  | cons tool tools ih =>
      rw [splitAll_cons]
      cases hf : isFragment tool with
      | true =>
          rw [split_of_cut?_eq_none (cut?_of_isFragment hf), List.singleton_append, Short, Short,
            if_pos hf, if_pos hf, ih]
      | false =>
          have hf' : ¬ isFragment tool = true := by simp [hf]
          rw [Fragments.short_append_of_not_isFragment (split_ne_nil tool) hminRun
            fun part => isFragment_of_mem_split hf, Short, if_neg hf', ih]

theorem splitAll_of_isFragment {run : List ToolName} (h : ∀ f ∈ run, isFragment f = true) :
    splitAll run = run :=
  splitAll_eq_self fun f hf => cut?_of_isFragment (h f hf)

/-- A run that has been joined and then split has no more parts than fragments. -/
theorem length_splitAll_flush_le {minRun : Nat} (hminRun : 0 < minRun) {run : List ToolName}
    (hrun : ∀ f ∈ run, isFragment f = true) :
    (splitAll (flush minRun run)).length ≤ run.length := by
  unfold flush
  split
  · have hlen := Fragments.length_flatten_of_isFragment hrun
    have hne : run.flatten ≠ [] := List.ne_nil_of_length_pos (by omega)
    have hsplit := length_split_le hne
    simpa [splitAll, hlen] using hsplit
  · rw [splitAll_of_isFragment hrun]

theorem length_splitAll_rejoinFrom_le {minRun : Nat} (hminRun : 0 < minRun)
    {run tools : List ToolName} (hrun : ∀ f ∈ run, isFragment f = true) :
    (splitAll (rejoinFrom minRun run tools)).length ≤ run.length + (splitAll tools).length := by
  induction tools generalizing run with
  | nil => simpa [rejoinFrom, splitAll] using length_splitAll_flush_le hminRun hrun
  | cons tool tools ih =>
      rw [rejoinFrom, splitAll_cons]
      split
      · next hf =>
          have hnext := ih (Fragments.forall_isFragment_concat hrun hf)
          rw [split_of_cut?_eq_none (cut?_of_isFragment hf)]
          simp only [List.length_append, List.length_singleton] at hnext ⊢
          omega
      · have hflush := length_splitAll_flush_le hminRun hrun
        have hnext : (splitAll (rejoinFrom minRun [] tools)).length ≤ 0 + (splitAll tools).length :=
          ih (by simp)
        rw [splitAll_append, splitAll_cons]
        simp only [List.length_append] at hnext ⊢
        omega

end GluedNames

section

variable {minRun : Nat} {tools : List ToolName}

theorem short_mendTools (hminRun : 2 ≤ minRun) (tools : List ToolName) :
    Short minRun 0 (mendTools minRun tools) := by
  rw [mendTools, GluedNames.short_splitAll (by omega), Fragments.rejoin_eq_rejoinOnce hminRun]
  exact Fragments.short_rejoinFrom hminRun (by simp)

theorem mendTools_mendTools (minRun : Nat) (tools : List ToolName) :
    mendTools minRun (mendTools minRun tools) = mendTools minRun tools := by
  have hsplit : splitAll (mendTools minRun tools) = mendTools minRun tools :=
    GluedNames.splitAll_eq_self fun _ => GluedNames.cut?_eq_none_of_mem_splitAll
  have hrejoin : rejoin minRun (mendTools minRun tools) = mendTools minRun tools := by
    by_cases hminRun : minRun < 2
    · rw [rejoin, if_pos hminRun]
    · rw [Fragments.rejoin_eq_rejoinOnce (by omega)]
      exact Fragments.rejoinOnce_eq_self (short_mendTools (by omega) tools)
  rw [mendTools, hrejoin, hsplit]

@[simp] theorem flatten_mendTools (minRun : Nat) (tools : List ToolName) :
    (mendTools minRun tools).flatten = tools.flatten := by
  rw [mendTools, GluedNames.flatten_splitAll, Fragments.flatten_rejoin]

theorem mendTools_ne_nil (h : tools ≠ []) : mendTools minRun tools ≠ [] := by
  have hrejoin : rejoin minRun tools ≠ [] := Fragments.rejoin_ne_nil h
  obtain ⟨tool, rest, hcons⟩ := List.exists_cons_of_ne_nil hrejoin
  rw [mendTools, hcons, GluedNames.splitAll_cons]
  simp [GluedNames.split_ne_nil]

theorem cut?_eq_none_of_mem_mendTools {name : ToolName} (h : name ∈ mendTools minRun tools) :
    cut? name = none :=
  GluedNames.cut?_eq_none_of_mem_splitAll h

/-- A list grows only where a name of its own is split. -/
theorem length_mendTools_le (minRun : Nat) (tools : List ToolName) :
    (mendTools minRun tools).length ≤ (splitAll tools).length := by
  rw [mendTools]
  by_cases hminRun : minRun < 2
  · rw [rejoin, if_pos hminRun]
  · have hle : (splitAll (rejoinFrom minRun [] tools)).length ≤ 0 + (splitAll tools).length :=
      GluedNames.length_splitAll_rejoinFrom_le (by omega) (by simp)
    rw [Fragments.rejoin_eq_rejoinOnce (by omega), Fragments.rejoinOnce]
    simpa using hle

/-- What holds of the parts of a name and of all names in small letters is kept by mending. -/
theorem forall_mem_mendTools {P : ToolName → Prop} (hmono : ∀ u v, u <:+: v → P v → P u)
    (hlower : ∀ u : ToolName, (∀ c ∈ u, c.isLower = true) → P u) (h : ∀ name ∈ tools, P name) :
    ∀ name ∈ mendTools minRun tools, P name := by
  intro part hpart
  obtain ⟨name, hname, hpart⟩ := List.mem_flatMap.mp hpart
  apply hmono part name (GluedNames.isInfix_of_mem_splitWithin hpart)
  rcases Fragments.mem_rejoin hname with hmem | ⟨-, hlow⟩
  · exact h name hmem
  · exact hlower name hlow

theorem isName_of_mem_mendTools (h : ∀ name ∈ tools, Token.IsName name) :
    ∀ name ∈ mendTools minRun tools, Token.IsName name := by
  intro part hpart
  constructor
  · obtain ⟨name, hname, hsplit⟩ := List.mem_flatMap.mp hpart
    refine GluedNames.ne_nil_of_mem_split ?_ hsplit
    rcases Fragments.mem_rejoin hname with hmem | ⟨hne, -⟩
    · exact (h name hmem).1
    · exact hne
  · refine forall_mem_mendTools (P := fun name => ∀ c ∈ name, Token.isNameChar c = true) ?_ ?_
      (fun name hname => (h name hname).2) part hpart
    · intro u v huv hv c hc
      exact hv c (huv.subset hc)
    · intro u hu c hc
      exact Token.isNameChar_of_isLower (hu c hc)

end

namespace Toolbar

theorem repair_congr (minRun : Nat) {t u : Toolbar} (h : t.compact = u.compact) :
    t.repair minRun = u.repair minRun := by
  rw [repair, h, ← repair]

/-- A toolbar that repair leaves as it is. -/
def IsRepaired (minRun : Nat) (t : Toolbar) : Prop := t.repair minRun = t

theorem isCompact_repair (minRun : Nat) (t : Toolbar) : (t.repair minRun).IsCompact :=
  t.isCompact_compact.mapTools fun _ => mendTools_ne_nil

theorem WellFormed.repair {t : Toolbar} (ht : t.WellFormed) (minRun : Nat) :
    (t.repair minRun).WellFormed :=
  ht.compact.mapTools fun _ => isName_of_mem_mendTools

theorem isRepaired_repair (minRun : Nat) (t : Toolbar) : (t.repair minRun).IsRepaired minRun := by
  have hmend : ∀ u : Toolbar, (u.mapTools (mendTools minRun)).mapTools (mendTools minRun) =
      u.mapTools (mendTools minRun) := by
    intro u
    rw [mapTools_mapTools]
    simp only [mendTools_mendTools]
  have hcompact : (t.repair minRun).compact = t.repair minRun :=
    (isCompact_repair minRun t).compact_eq
  calc (t.repair minRun).repair minRun
      = (t.repair minRun).compact.mapTools (mendTools minRun) := rfl
    _ = (t.repair minRun).mapTools (mendTools minRun) := by rw [hcompact]
    _ = t.repair minRun := hmend t.compact

theorem mem_tools_repair_iff {minRun : Nat} {t : Toolbar} {name : ToolName} :
    name ∈ (t.repair minRun).tools ↔ ∃ g ∈ t.compact.groups, name ∈ mendTools minRun g.tools := by
  rw [repair, tools_mapTools, List.mem_flatMap]

theorem IsRepaired.cut?_eq_none {minRun : Nat} {t : Toolbar} (ht : t.IsRepaired minRun)
    {name : ToolName} (h : name ∈ t.tools) : cut? name = none := by
  rw [← show t.repair minRun = t from ht] at h
  obtain ⟨g, -, hname⟩ := mem_tools_repair_iff.mp h
  exact cut?_eq_none_of_mem_mendTools hname

theorem flatten_tools_repair (minRun : Nat) (t : Toolbar) :
    (t.repair minRun).tools.flatten = t.tools.flatten := by
  rw [repair, tools_mapTools, ← tools_compact t, tools]
  induction t.compact.groups with
  | nil => rfl
  | cons g groups ih => simp [ih]

theorem forall_mem_tools_repair {P : ToolName → Prop} (hmono : ∀ u v, u <:+: v → P v → P u)
    (hlower : ∀ u : ToolName, (∀ c ∈ u, c.isLower = true) → P u) (minRun : Nat) {t : Toolbar}
    (h : ∀ name ∈ t.tools, P name) : ∀ name ∈ (t.repair minRun).tools, P name := by
  intro name hname
  obtain ⟨g, hg, hname⟩ := mem_tools_repair_iff.mp hname
  refine forall_mem_mendTools hmono hlower (fun n hn => h n ?_) name hname
  rw [← tools_compact, mem_tools_iff]
  exact ⟨g, hg, hn⟩

/-- Repair makes no more tools of a toolbar in which no name is glued. -/
theorem toolCount_repair_le (minRun : Nat) {t : Toolbar} (h : ∀ name ∈ t.tools, cut? name = none) :
    (t.repair minRun).toolCount ≤ t.toolCount := by
  have hgroups : ∀ groups : List Group, (∀ g ∈ groups, ∀ name ∈ g.tools, cut? name = none) →
      (groups.flatMap fun g => mendTools minRun g.tools).length ≤
        (groups.flatMap Group.tools).length := by
    intro groups hcut
    induction groups with
    | nil => exact Nat.le_refl _
    | cons g groups ih =>
        have hmend := length_mendTools_le minRun g.tools
        have htail := ih fun x hx => hcut x (List.mem_cons_of_mem _ hx)
        rw [GluedNames.splitAll_eq_self (hcut g (by simp))] at hmend
        simp only [List.flatMap_cons, List.length_append]
        omega
  rw [toolCount, toolCount, repair, tools_mapTools, ← tools_compact t]
  apply hgroups
  intro g hg name hname
  apply h
  rw [← tools_compact, mem_tools_iff]
  exact ⟨g, hg, hname⟩

end Toolbar

end EditorToolbar
