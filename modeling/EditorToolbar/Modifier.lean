import EditorToolbar.Settling
import EditorToolbar.Text.Deletion

/-!
# Modifiers

A tool in a toolbar may carry a modifier, `:toggle` or `:dropdown`, that tells the editor how to
show it. Modifiers are stripped before anything else looks at a toolbar.

Deleting a modifier can bring the two halves of another one together, as in `x:tog:togglegle`, so
`strip` repeats the deletion until none is left. Each repetition that changes anything makes the
text shorter; its length is therefore a limit that no run reaches.
-/

namespace EditorToolbar.Modifier

/-- The modifiers a tool may carry. -/
def all : List Text := [":toggle".toList, ":dropdown".toList]

/-- Deletes the occurrences of each modifier in turn, once. -/
def stripOnce (s : Text) : Text :=
  all.foldl (fun t modifier => Text.delete modifier t) s

/-- Deletes modifiers until the text holds none. -/
def strip (s : Text) : Text := settle stripOnce s.length s

end EditorToolbar.Modifier
