import EditorToolbar.Toolbar.Basic

/-!
# Splitting glued names

Two tools that have lost the comma between them, as in `outdentsuperscript`, read as one name. A
small table lists the pairs of names that are known to be glued in this way. `split` cuts a name at
the earliest place where the left name of some pair ends and the right one begins, and goes on
with what remains. The right side of a pair may be the beginning of several names.
-/

namespace EditorToolbar.GluedNames

/-- A name and the beginning of a name that may follow it directly. -/
structure Pair where
  left : Text
  right : Text

def Pair.glued (p : Pair) : Text := p.left ++ p.right

def pairs : List Pair :=
  [⟨"fontname".toList, "fontsize".toList⟩,
   ⟨"fontsize".toList, "inlinestyle".toList⟩,
   ⟨"inlinestyle".toList, "lineheight".toList⟩,
   ⟨"paragraphs".toList, "fontname".toList⟩,
   ⟨"paragraphstyle".toList, "menu_".toList⟩,
   ⟨"underline".toList, "fore".toList⟩,
   ⟨"forecolor".toList, "back".toList⟩,
   ⟨"outdent".toList, "superscript".toList⟩,
   ⟨"insertlink".toList, "un".toList⟩,
   ⟨"unlink".toList, "insert".toList⟩]

/-- The place of the first occurrence of a word in a text. -/
def find? (word : Text) : Text → Option Nat
  | [] => if word.isEmpty then some 0 else none
  | c :: r => if word.isPrefixOf (c :: r) then some 0 else (find? word r).map (· + 1)

/-- Where a name is cut between the two sides of a pair: after the left side of the first
occurrence of the glued pair. -/
def Pair.cut? (p : Pair) (name : Text) : Option Nat :=
  (find? p.glued name).map (· + p.left.length)

/-- The earliest place at which a name is cut. -/
def cut? (name : Text) : Option Nat := (pairs.filterMap fun p => p.cut? name).min?

/-- Cuts a name at most `limit` times, each time at the earliest place of what remains. -/
def splitWithin : Nat → Text → List ToolName
  | 0, name => [name]
  | limit + 1, name =>
    match cut? name with
    | none => [name]
    | some n => name.take n :: splitWithin limit (name.drop n)

/-- The parts of a name. Every part that is cut off has a character, so there are no more cuts than
characters. -/
def split (name : ToolName) : List ToolName := splitWithin name.length name

def splitAll (tools : List ToolName) : List ToolName := tools.flatMap split

theorem flatten_splitWithin (limit : Nat) (name : Text) :
    (splitWithin limit name).flatten = name := by
  induction limit generalizing name with
  | zero => simp [splitWithin]
  | succ limit ih =>
    rw [splitWithin]
    split <;> simp [ih]

@[simp] theorem flatten_split (name : ToolName) : (split name).flatten = name :=
  flatten_splitWithin _ _

@[simp] theorem flatten_splitAll (tools : List ToolName) :
    (splitAll tools).flatten = tools.flatten := by
  induction tools with
  | nil => rfl
  | cons t ts ih => simp_all [splitAll]

end EditorToolbar.GluedNames
