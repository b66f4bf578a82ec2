import EditorToolbar.Repair.Fragments
import EditorToolbar.Repair.GluedNames
import EditorToolbar.Toolbar.Reading
import EditorToolbar.Toolbar.Writing

/-!
# Repair

Repair undoes what cutting tools out of a toolbar leaves behind. Stray separators and empty parts
go away by reading, compacting and writing; names that have been taken apart or glued together are
mended group by group, fragments first. Mending does not touch the groups themselves.
-/

namespace EditorToolbar

/-- The least number of fragments that are rejoined, unless told otherwise. -/
def defaultMinRun : Nat := 3

/-- Mends the names of a list of tools. -/
def mendTools (minRun : Nat) (tools : List ToolName) : List ToolName :=
  GluedNames.splitAll (Fragments.rejoin minRun tools)

def Toolbar.repair (minRun : Nat) (t : Toolbar) : Toolbar := t.compact.mapTools (mendTools minRun)

def repairText (minRun : Nat) (text : Text) : Text := ((Toolbar.ofText text).repair minRun).toText

end EditorToolbar
