import EditorToolbar.Text.Basic

/-!
# Toolbars

A toolbar is a list of sections, a section a list of groups, a group a list of tool names.
Separators are not kept as they were written. A group records how it is attached to the group
before it, its `joint`, and a section the divider that opened it; the written form is derived from
these. So a group or a section can be emptied or dropped and the rest stays meaningful: when parts
fall away, the joints or dividers on both sides of the gap are combined and the stronger one
remains.
-/

namespace EditorToolbar

/-- The name of a tool. A tool is nothing but its name. -/
abbrev ToolName := Text

/-- How a group is attached to the group before it: with nothing or with a pipe in between. -/
inductive Joint where
  | adjacent
  | pipe
  deriving DecidableEq, Repr

/-- The stronger of two joints; a pipe is stronger than none. -/
def Joint.combine : Joint → Joint → Joint
  | .pipe, _ => .pipe
  | .adjacent, j => j

/-- What separates a section from the section before it. -/
inductive Divider where
  | hash
  | slash
  deriving DecidableEq, Repr

/-- The stronger of two dividers; a slash is stronger than a hash. -/
def Divider.combine : Divider → Divider → Divider
  | .slash, _ => .slash
  | .hash, d => d

def Divider.toChar : Divider → Char
  | .hash => '#'
  | .slash => '/'

/-- The stronger of two dividers that may be absent; any divider is stronger than none. -/
def Divider.combine? : Option Divider → Option Divider → Option Divider
  | some a, some b => some (a.combine b)
  | some a, none => some a
  | none, b => b

/-- Tools that stand together, in braces or bare. -/
structure Group where
  braced : Bool
  joint : Joint
  tools : List ToolName := []
  deriving DecidableEq, Repr

/-- Groups in one row or block. The divider is the one that opened the section. -/
structure Section where
  divider : Option Divider
  groups : List Group := []
  deriving DecidableEq, Repr

structure Toolbar where
  sections : List Section := []
  deriving DecidableEq, Repr

def Section.tools (s : Section) : List ToolName := s.groups.flatMap Group.tools

def Toolbar.groups (t : Toolbar) : List Group := t.sections.flatMap Section.groups

def Toolbar.tools (t : Toolbar) : List ToolName := t.groups.flatMap Group.tools

def Toolbar.toolCount (t : Toolbar) : Nat := t.tools.length

/-- Whether a toolbar has no tool. -/
def Toolbar.isEmpty (t : Toolbar) : Bool := t.tools.isEmpty

/-- Replaces the tools of each group by what `f` makes of them. -/
def Toolbar.mapTools (f : List ToolName → List ToolName) (t : Toolbar) : Toolbar :=
  ⟨t.sections.map fun s => { s with groups := s.groups.map fun g => { g with tools := f g.tools } }⟩

namespace Joint

@[simp] theorem combine_adjacent (j : Joint) : j.combine .adjacent = j := by cases j <;> rfl

@[simp] theorem adjacent_combine (j : Joint) : combine .adjacent j = j := rfl

@[simp] theorem combine_pipe (j : Joint) : j.combine .pipe = .pipe := by cases j <;> rfl

@[simp] theorem pipe_combine (j : Joint) : combine .pipe j = .pipe := rfl

theorem combine_assoc (a b c : Joint) : (a.combine b).combine c = a.combine (b.combine c) := by
  cases a <;> rfl

end Joint

namespace Divider

@[simp] theorem combine?_none (d : Option Divider) : combine? d none = d := by cases d <;> rfl

@[simp] theorem none_combine? (d : Option Divider) : combine? none d = d := by cases d <;> rfl

theorem combine_assoc (a b c : Divider) : (a.combine b).combine c = a.combine (b.combine c) := by
  cases a <;> rfl

theorem combine?_assoc (a b c : Option Divider) :
    combine? (combine? a b) c = combine? a (combine? b c) := by
  cases a <;> cases b <;> cases c <;> simp [combine?, combine_assoc]

end Divider

namespace Toolbar

@[simp] theorem groups_nil : groups ⟨[]⟩ = [] := rfl

@[simp] theorem groups_cons (s : Section) (rest : List Section) :
    groups ⟨s :: rest⟩ = s.groups ++ groups ⟨rest⟩ := by
  simp [groups]

@[simp] theorem tools_nil : tools ⟨[]⟩ = [] := rfl

@[simp] theorem tools_cons (s : Section) (rest : List Section) :
    tools ⟨s :: rest⟩ = s.tools ++ tools ⟨rest⟩ := by
  simp [tools, Section.tools]

theorem isEmpty_iff (t : Toolbar) : t.isEmpty = true ↔ ∀ g ∈ t.groups, g.tools = [] := by
  simp [isEmpty, tools]

end Toolbar

end EditorToolbar
