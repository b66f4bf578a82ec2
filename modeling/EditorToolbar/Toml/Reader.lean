import EditorToolbar.Text.Digit

/-!
# Readers

A reader takes a piece off the front of a text and makes something of it, or fails. Readers are
combined in sequence by `do`, and repeated by recursion on a number of rounds. Failure carries no
message, since a malformed document is reported as that and nothing more.
-/

namespace EditorToolbar.Toml

/-- Reads from the front of a text; leaves the rest as the state. -/
abbrev Reader (α : Type) := StateT Text Option α

namespace Reader

/-- The next character, which is not taken. -/
def peek : Reader (Option Char) := fun s => some (s.head?, s)

def next : Reader Char
  | [] => none
  | c :: r => some (c, r)

def word (w : Text) : Reader Unit := fun s =>
  if w.isPrefixOf s then some ((), s.drop w.length) else none

/-- Takes a word if it comes next, and says whether it did. -/
def accept (w : Text) : Reader Bool := fun s =>
  if w.isPrefixOf s then some (true, s.drop w.length) else some (false, s)

/-- Takes the longest run of characters that satisfy `p`. -/
def run (p : Char → Bool) : Reader Text := fun s => some (s.takeWhile p, s.dropWhile p)

/-- Takes the longest run of characters that satisfy `p`, at least one. -/
def run1 (p : Char → Bool) : Reader Text := do
  let found ← run p
  if found.isEmpty then failure else return found

def remaining : Reader Nat := fun s => some (s.length, s)

def atEnd : Reader Bool := fun s => some (s.isEmpty, s)

def orElse {α : Type} (first second : Reader α) : Reader α := fun s =>
  match first s with
  | some found => some found
  | none => second s

/-- Reads something that may be absent; if it fails nothing is taken. -/
def attempt {α : Type} (reader : Reader α) : Reader (Option α) :=
  orElse (some <$> reader) (pure none)

/-- Takes exactly `count` decimal digits and makes their number. -/
def digits (count : Nat) : Reader Nat := fun s =>
  let found := s.take count
  if found.length = count ∧ found.all Char.isDigit then
    some (Text.numberIn 10 found, s.drop count)
  else none

end Reader

end EditorToolbar.Toml
