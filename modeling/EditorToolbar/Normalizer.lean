import EditorToolbar.Exclusion.Words
import EditorToolbar.Preset
import EditorToolbar.Repair

/-!
# Normalization

Normalizing a toolbar text strips its modifiers, removes the excluded tools and repairs what is
left. Repair can bring an excluded name back, when it joins `b,o,l,d` or splits a glued name, so
removal and repair alternate until nothing changes.

There are two strategies. The structural one removes tools from the toolbar that has been read;
the textual one cuts words out of the text and reads the rest. A run of either is given one more
pass than the first pass left tools or bytes.
-/

namespace EditorToolbar

/-- How excluded tools are removed. -/
inductive Strategy where
  | structural
  | textual
  deriving DecidableEq, Repr

namespace Strategy

def all : List Strategy := [structural, textual]

def name : Strategy → Text
  | structural => "structural".toList
  | textual => "textual".toList

def ofName? (given : Text) : Option Strategy := all.find? fun s => s.name == given

/-- The strategy that a user means by a name: blanks around it and the case of its letters do not
matter. -/
def ofText (given : Text) : Except NameError Strategy :=
  match all.find? fun s => s.name.sameLetters given.trim with
  | some s => .ok s
  | none => .error (.strategy given)

end Strategy

structure Normalizer where
  strategy : Strategy := .structural
  minRun : Nat := defaultMinRun
  fallback : Text := Preset.basic.toolbar
  deriving DecidableEq, Repr

namespace Normalizer

/-- Removes the excluded tools of a toolbar and repairs it. -/
def structuralStep (minRun : Nat) (e : ExclusionSet) (t : Toolbar) : Toolbar :=
  (e.apply t).repair minRun

/-- Cuts the excluded names out of a text and repairs it. -/
def textualStep (minRun : Nat) (e : ExclusionSet) (text : Text) : Text :=
  repairText minRun (e.cutWords text)

/-- The toolbar in which the structural strategy ends. -/
def settledToolbar (minRun : Nat) (e : ExclusionSet) (stripped : Text) : Toolbar :=
  let first := structuralStep minRun e (Toolbar.ofText stripped)
  settle (structuralStep minRun e) (first.toolCount + 1) first

/-- The text in which the textual strategy ends. -/
def settledText (minRun : Nat) (e : ExclusionSet) (stripped : Text) : Text :=
  let first := textualStep minRun e stripped
  settle (textualStep minRun e) (first.utf8Length + 1) first

/-- The normal form of a toolbar text without the excluded tools. -/
def normalize (n : Normalizer) (e : ExclusionSet) (text : Text) : Text :=
  match n.strategy with
  | .structural => (settledToolbar n.minRun e (Modifier.strip text)).toText
  | .textual => settledText n.minRun e (Modifier.strip text)

/-- The normal form of a toolbar text, or that of the fallback if nothing is left. -/
def normalizeOrFallback (n : Normalizer) (e : ExclusionSet) (text : Text) : Text :=
  let normal := n.normalize e text
  if normal.isEmpty then n.normalize {} n.fallback else normal

end Normalizer

end EditorToolbar
