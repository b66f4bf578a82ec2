import Mathlib.Data.List.Forall2
import EditorToolbar.Proofs.Repair.Mending

/-!
# What repair keeps

Repair compacts a toolbar and then changes only where within a group one tool ends and the next one
begins. `Toolbar.Respells` says that two toolbars differ in nothing else: they have the same
sections and groups, with the same dividers, joints and braces, and the names of a group spell the
same text. So all that repair can do is to draw these lines anew, and it draws them so that there is
nothing left to repair: no fragments in a row are enough to be joined, and no name is glued.

Nothing is asked of the names here. They may be empty, or hold separators.
-/

namespace EditorToolbar

open Fragments (isFragment)

/-- Groups that differ at most in where one tool ends and the next one begins. -/
structure Group.Respells (g h : Group) : Prop where
  braced : g.braced = h.braced
  joint : g.joint = h.joint
  flatten : g.tools.flatten = h.tools.flatten

/-- Sections with the same divider whose groups spell the same, one by one. -/
structure Section.Respells (s u : Section) : Prop where
  divider : s.divider = u.divider
  groups : List.Forall₂ Group.Respells s.groups u.groups

namespace Toolbar

/-- Toolbars whose sections spell the same, one by one. -/
def Respells (t u : Toolbar) : Prop := List.Forall₂ Section.Respells t.sections u.sections

theorem respells_mapTools {f : List ToolName → List ToolName}
    (hf : ∀ tools, (f tools).flatten = tools.flatten) (t : Toolbar) : (t.mapTools f).Respells t := by
  refine List.forall₂_map_left_iff.mpr (List.forall₂_same.mpr fun s _ => ⟨rfl, ?_⟩)
  exact List.forall₂_map_left_iff.mpr (List.forall₂_same.mpr fun g _ => ⟨rfl, rfl, hf g.tools⟩)

variable {minRun : Nat} {t : Toolbar}

theorem exists_mendTools_of_mem_groups_repair {g : Group} (hg : g ∈ (t.repair minRun).groups) :
    ∃ tools, g.tools = mendTools minRun tools := by
  obtain ⟨s, hs, hg⟩ := List.mem_flatMap.mp hg
  obtain ⟨x, -, rfl⟩ := List.mem_map.mp hs
  obtain ⟨y, -, rfl⟩ := List.mem_map.mp hg
  exact ⟨y.tools, rfl⟩

theorem length_lt_of_isInfix_repair (hminRun : 2 ≤ minRun) {g : Group}
    (hg : g ∈ (t.repair minRun).groups) {run : List ToolName} (hin : run <:+: g.tools)
    (hrun : ∀ tool ∈ run, isFragment tool = true) : run.length < minRun := by
  obtain ⟨tools, htools⟩ := exists_mendTools_of_mem_groups_repair hg
  rw [htools] at hin
  exact (short_mendTools hminRun tools).length_lt hrun hin

/-- A repaired toolbar has the sections and the groups of the compacted one, and the names in each
group spell the same text. In no group are there as many fragments in a row as are joined, if that
number is at least two; no name holds a glued pair; and there is nothing left to repair. -/
theorem repair_mends (minRun : Nat) (t : Toolbar) :
    let u := t.repair minRun
    u.Respells t.compact ∧
      (2 ≤ minRun → ∀ g ∈ u.groups, ∀ run : List ToolName, run <:+: g.tools →
        (∀ tool ∈ run, isFragment tool = true) → run.length < minRun) ∧
      (∀ name ∈ u.tools, ∀ p ∈ GluedNames.pairs, ¬ p.glued <:+: name) ∧
      u.repair minRun = u := by
  intro u
  have hrepaired : u.IsRepaired minRun := isRepaired_repair minRun t
  refine ⟨respells_mapTools (flatten_mendTools minRun) t.compact, ?_, ?_, hrepaired⟩
  · intro hminRun g hg run
    exact length_lt_of_isInfix_repair hminRun hg
  · intro name hname
    exact (GluedNames.cut?_eq_none_iff name).mp (hrepaired.cut?_eq_none hname)

/-- The letters of two glued names come together when the empty braces go. -/
theorem repair_spelled_unlink_insert :
    let spelled := fun name : String => name.toList.map fun c => [c]
    let t : Toolbar :=
      ⟨[⟨some .hash, [⟨false, .adjacent, spelled "unlin"⟩, ⟨true, .adjacent, []⟩,
        ⟨false, .adjacent, spelled "kinsert" ++ [[], "x|y".toList] ++ spelled "ab"⟩]⟩]⟩
    let u := t.repair 3
    let names := ["unlink", "insert", "", "x|y", "a", "b"].map String.toList
    u = ⟨[⟨none, [⟨false, .pipe, names⟩]⟩]⟩ ∧ u.Respells t.compact ∧
      (∀ run : List ToolName, run <:+: names → (∀ tool ∈ run, isFragment tool = true) →
        run.length < 3) ∧
      (∀ p ∈ GluedNames.pairs, ¬ p.glued <:+: "unlink".toList) ∧ u.repair 3 = u := by
  intro spelled t u names
  have hu : u = ⟨[⟨none, [⟨false, .pipe, names⟩]⟩]⟩ := by decide +kernel
  obtain ⟨hrespells, hruns, hpairs, hagain⟩ := repair_mends 3 t
  refine ⟨hu, hrespells, fun run hin hrun => ?_, hpairs _ ?_, hagain⟩
  · refine hruns (by decide) ⟨false, .pipe, names⟩ ?_ run hin hrun
    change _ ∈ u.groups
    rw [hu]
    simp
  · change _ ∈ u.tools
    rw [hu]
    decide

end Toolbar

end EditorToolbar
