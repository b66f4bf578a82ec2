import EditorToolbar.Modifier
import EditorToolbar.Toolbar.Basic

/-!
# Exclusion sets

An exclusion set holds the names of tools that are to be removed, in the order in which they were
given and each once. A name is cleaned before it is taken in: blanks around it are trimmed and
modifiers are stripped, and if nothing remains it is ignored. Combining two sets takes the names
of the second one in again, in their order.

A name may be of any length, and it is assumed that each can be looked for in a text: a name too
long for the search, which would be in the set and yet never be cut out, is not modelled.
-/

namespace EditorToolbar

/-- Names of tools to be removed. -/
structure ExclusionSet where
  names : List ToolName := []
  deriving DecidableEq, Repr

namespace ExclusionSet

/-- A name as an exclusion set holds it. -/
def clean (name : Text) : ToolName := Modifier.strip name.trim

/-- Takes a name in, unless it cleans to nothing or is there already. -/
def insert (e : ExclusionSet) (name : Text) : ExclusionSet :=
  let cleaned := clean name
  if cleaned.isEmpty || e.names.contains cleaned then e else ⟨e.names ++ [cleaned]⟩

def ofNames (names : List Text) : ExclusionSet := names.foldl insert {}

def chain (e other : ExclusionSet) : ExclusionSet := other.names.foldl insert e

/-- Whether a name is in the set; the name is taken as it is. -/
def contains (e : ExclusionSet) (name : ToolName) : Bool := e.names.contains name

def isEmpty (e : ExclusionSet) : Bool := e.names.isEmpty

/-- Removes the tools whose names are in the set. Groups and sections stay, even if nothing is left
in them. -/
def apply (e : ExclusionSet) (t : Toolbar) : Toolbar :=
  t.mapTools fun tools => tools.filter fun name => !e.contains name

theorem insert_eq (e : ExclusionSet) (name : Text) :
    e.insert name =
      if clean name = [] ∨ clean name ∈ e.names then e else ⟨e.names ++ [clean name]⟩ := by
  simp [insert]

@[simp] theorem ofNames_nil : ofNames [] = {} := rfl

@[simp] theorem chain_empty (e : ExclusionSet) : e.chain {} = e := rfl

@[simp] theorem contains_iff (e : ExclusionSet) (name : ToolName) :
    e.contains name = true ↔ name ∈ e.names := by
  simp [contains]

end ExclusionSet

end EditorToolbar
