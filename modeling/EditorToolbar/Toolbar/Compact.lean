import EditorToolbar.Toolbar.Basic

/-!
# Compaction

`Toolbar.compact` drops the empty groups and the empty sections of a toolbar without losing what
they separated: a joint or divider of something dropped passes to the next thing that is kept.
Bare groups with nothing between them become one group. At the front there is nothing to be
separated from: the first group of a section counts as attached with a pipe and the first section
has no divider.

For the groups of a section these are three steps on the list. `dropEmpty` drops and passes joints
on, `mergeBare` merges, `attachFirst` settles the front. No step looks at what another one
decides, so each has its own law.
-/

namespace EditorToolbar

namespace Group

/-- Drops the empty groups. The joint of a dropped group is combined into that of the next group
kept; `pending` holds what has been collected so far. -/
def dropEmpty : Joint → List Group → List Group
  | _, [] => []
  | pending, g :: rest =>
    if g.tools.isEmpty then dropEmpty (pending.combine g.joint) rest
    else { g with joint := pending.combine g.joint } :: dropEmpty .adjacent rest

/-- Whether `h`, written right after `g`, continues the same list of bare tools. -/
def continues (g h : Group) : Bool :=
  h.joint == .adjacent && !g.braced && !h.braced

/-- Merges each bare group into the bare group it continues. -/
def mergeBare : List Group → List Group
  | [] => []
  | g :: rest =>
    match mergeBare rest with
    | [] => [g]
    | h :: more =>
      if g.continues h then { g with tools := g.tools ++ h.tools } :: more else g :: h :: more

/-- Attaches the first group with a pipe. -/
def attachFirst : List Group → List Group
  | [] => []
  | g :: rest => { g with joint := .pipe } :: rest

def compact (groups : List Group) : List Group :=
  attachFirst (mergeBare (dropEmpty .adjacent groups))

end Group

namespace Section

/-- Drops the sections without groups. The divider of a dropped section is combined into that of
the next section kept; `pending` holds what has been collected so far. -/
def dropEmpty : Option Divider → List Section → List Section
  | _, [] => []
  | pending, s :: rest =>
    if s.groups.isEmpty then dropEmpty (Divider.combine? pending s.divider) rest
    else { s with divider := Divider.combine? pending s.divider } :: dropEmpty none rest

/-- Removes the divider of the first section. -/
def openFirst : List Section → List Section
  | [] => []
  | s :: rest => { s with divider := none } :: rest

end Section

/-- Drops what is empty and merges what is not separated. -/
def Toolbar.compact (t : Toolbar) : Toolbar :=
  ⟨Section.openFirst
    (Section.dropEmpty none
      (t.sections.map fun s => { s with groups := Group.compact s.groups }))⟩

namespace Group

@[simp] theorem dropEmpty_nil (pending : Joint) : dropEmpty pending [] = [] := rfl

theorem dropEmpty_cons_of_empty (pending : Joint) {g : Group} (h : g.tools = [])
    (rest : List Group) :
    dropEmpty pending (g :: rest) = dropEmpty (pending.combine g.joint) rest := by
  simp [dropEmpty, h]

theorem dropEmpty_cons_of_ne_nil (pending : Joint) {g : Group} (h : g.tools ≠ [])
    (rest : List Group) :
    dropEmpty pending (g :: rest) =
      { g with joint := pending.combine g.joint } :: dropEmpty .adjacent rest := by
  simp [dropEmpty, h]

end Group

end EditorToolbar
