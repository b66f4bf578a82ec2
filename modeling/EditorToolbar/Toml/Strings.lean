import EditorToolbar.Text.Digit
import EditorToolbar.Toml.Reader

/-!
# TOML strings

Strings in double quotes know escapes, strings in single quotes are taken as they are; tripled
quotes let a string run over several lines. A line feed right after the opening quotes is no part
of the string, up to two quotes right before the closing ones are, and every line break within
counts as a line feed.
-/

namespace EditorToolbar.Toml

open Reader

/-- The blanks within a line. -/
def isSpace (c : Char) : Bool := c == ' ' || c == '\t'

/-- The characters that may stand in comments and, apart from quotes and backslashes, in strings:
all but control characters, of which only the tab may. -/
def isVisible (c : Char) : Bool := c == '\t' || (0x20 ≤ c.toNat && c.toNat != 0x7F)

def spaces : Reader Unit := do
  let _ ← run isSpace

/-- Takes a line break if one comes next, and says whether it did. -/
def acceptBreak : Reader Bool := do
  if ← accept ['\n'] then return true
  accept ['\r', '\n']

/-- Takes `count` hexadecimal digits that are the number of a character. -/
def codePoint (count : Nat) : Reader Char := fun s =>
  match (s.take count).mapM Text.hexValue? with
  | none => none
  | some found =>
    let n := found.foldl (fun n d => n * 16 + d) 0
    if found.length = count ∧ n.isValidChar then some (Char.ofNat n, s.drop count) else none

/-- Takes what follows a backslash. -/
def escaped : Reader Char := do
  match ← next with
  | 'b' => return Char.ofNat 8
  | 't' => return '\t'
  | 'n' => return '\n'
  | 'f' => return Char.ofNat 12
  | 'r' => return '\r'
  | '"' => return '"'
  | '\\' => return '\\'
  | 'u' => codePoint 4
  | 'U' => codePoint 8
  | _ => failure

/-- Takes the rest of a string in double quotes; each round takes at least one character. -/
def basicRest : Nat → Reader Text
  | 0 => failure
  | rounds + 1 => do
    match ← next with
    | '"' => return []
    | '\\' => return (← escaped) :: (← basicRest rounds)
    | c => if isVisible c then return c :: (← basicRest rounds) else failure

/-- Takes the rest of a string in single quotes. -/
def literalRest : Reader Text := do
  let body ← run fun c => isVisible c && c != '\''
  word ['\'']
  return body

/-- Drops blanks and line breaks. -/
def dropSpace : Text → Text
  | '\r' :: '\n' :: r => dropSpace r
  | c :: r => if isSpace c || c == '\n' then dropSpace r else c :: r
  | [] => []

/-- Takes what a backslash at the end of a line stands for: nothing, with all blanks and line
breaks up to the next other character. -/
def lineEnding : Reader Unit := do
  spaces
  if ← acceptBreak then modify dropSpace else failure

/-- Takes the closing quotes of a string of tripled quotes if they come next, and makes what stands
before them of up to two more quotes. -/
def closingQuotes (quote : Char) : Reader (Option Text) := fun s =>
  let count := min 5 (s.takeWhile (· == quote)).length
  if 3 ≤ count then some (some (List.replicate (count - 3) quote), s.drop count)
  else some (none, s)

/-- Takes the rest of a string in tripled double quotes; each round takes at least one
character. -/
def multilineBasicRest : Nat → Reader Text
  | 0 => failure
  | rounds + 1 => do
    match ← closingQuotes '"' with
    | some last => return last
    | none =>
      if ← acceptBreak then return '\n' :: (← multilineBasicRest rounds)
      match ← next with
      | '\\' =>
        match ← attempt lineEnding with
        | some () => multilineBasicRest rounds
        | none => return (← escaped) :: (← multilineBasicRest rounds)
      | c => if isVisible c then return c :: (← multilineBasicRest rounds) else failure

/-- Takes the rest of a string in tripled single quotes; each round takes at least one
character. -/
def multilineLiteralRest : Nat → Reader Text
  | 0 => failure
  | rounds + 1 => do
    match ← closingQuotes '\'' with
    | some last => return last
    | none =>
      if ← acceptBreak then return '\n' :: (← multilineLiteralRest rounds)
      let c ← next
      if isVisible c then return c :: (← multilineLiteralRest rounds) else failure

def quotedLine : Reader Text := do
  match ← next with
  | '"' => basicRest (← remaining)
  | '\'' => literalRest
  | _ => failure

def quoted : Reader Text := do
  if ← accept ['"', '"', '"'] then
    let _ ← acceptBreak
    multilineBasicRest (← remaining)
  else if ← accept ['\'', '\'', '\''] then
    let _ ← acceptBreak
    multilineLiteralRest (← remaining)
  else quotedLine

/-- The characters of a key without quotes. -/
def isKeyChar (c : Char) : Bool := c.isAlphanum || c == '_' || c == '-'

def keyPart : Reader Text := do
  match ← peek with
  | some '"' => quotedLine
  | some '\'' => quotedLine
  | _ => run1 isKeyChar

/-- Takes the parts of a dotted key after its first one. -/
def keyRest : Nat → Reader (List Text)
  | 0 => failure
  | rounds + 1 => do
    spaces
    if ← accept ['.'] then
      spaces
      let part ← keyPart
      return part :: (← keyRest rounds)
    else return []

/-- The number of parts that a key may have, and of arrays and tables that may be nested. -/
def depthLimit : Nat := 79

/-- Takes a key, dotted or not, and the blanks around it. -/
def key : Reader (List Text) := do
  spaces
  let first ← keyPart
  let rest ← keyRest ((← remaining) + 1)
  if rest.length < depthLimit then return first :: rest else failure

end EditorToolbar.Toml
