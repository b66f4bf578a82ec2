import EditorToolbar.Toml.Numbers
import EditorToolbar.Toml.Strings
import EditorToolbar.Toml.Value

/-!
# TOML documents

A document is a sequence of statements, one to a line: keys with their values, headers that open
the tables the keys after them belong to, and comments. `Toml.ofText?` reads a document into a
value, or refuses it.
-/

namespace EditorToolbar.Toml

open Reader

/-- Takes a comment if one comes next. -/
def comment : Reader Unit := do
  if ← accept ['#'] then
    let _ ← run isVisible

/-- Takes blanks, line breaks and comments; each round takes at least one character. -/
def gap : Nat → Reader Unit
  | 0 => return
  | rounds + 1 => do
    spaces
    if (← peek) = some '#' then
      comment
      if ← acceptBreak then gap rounds else failure
    else if ← acceptBreak then gap rounds
    else return

def anyGap : Reader Unit := do
  gap ((← remaining) + 1)

/-- Takes the items of an array, up to its closing bracket; each round takes at least one
character. -/
def arrayRest (item : Reader Value) : Nat → Reader (List Value)
  | 0 => failure
  | rounds + 1 => do
    anyGap
    if ← accept [']'] then return []
    let first ← item
    anyGap
    if ← accept [','] then return first :: (← arrayRest item rounds)
    word [']']
    return [first]

/-- Takes the entries of a table on one line, up to its closing brace; each round takes at least one
character. -/
def inlineRest (item : Reader Value) (t : Table) : Nat → Reader Table
  | 0 => failure
  | rounds + 1 => do
    let path ← key
    word ['=']
    spaces
    let v ← item
    spaces
    let t ← StateT.lift (t.assign path v)
    if ← accept [','] then inlineRest item t rounds
    else
      word ['}']
      return t

/-- Takes a table on one line after its opening brace. -/
def inlineTable (item : Reader Value) : Reader Value := do
  spaces
  if ← accept ['}'] then return .table []
  let t ← inlineRest item {} (← remaining)
  return t.toValue

def numberOrDate : Reader Value :=
  orElse (.date <$> date)
    (orElse (.float <$> decimalFloat)
      (orElse (.float <$> specialFloat) (.integer <$> integer)))

/-- Takes a value in which arrays and tables are nested at most `depth` deep. -/
def value (depth : Nat) : Reader Value := do
  match ← peek with
  | some '"' => return .string (← quoted)
  | some '\'' => return .string (← quoted)
  | some 't' =>
    word "true".toList
    return .boolean true
  | some 'f' =>
    word "false".toList
    return .boolean false
  | some '[' =>
    match depth with
    | 0 => failure
    | depth + 1 =>
      word ['[']
      return .array (← arrayRest (value depth) (← remaining))
  | some '{' =>
    match depth with
    | 0 => failure
    | depth + 1 =>
      word ['{']
      inlineTable (value depth)
  | _ => numberOrDate

/-- A document being read: its root table and the header that the next keys belong to. -/
structure Progress where
  root : Table := {}
  header : List Text := []

def statement (progress : Progress) : Reader Progress := do
  if ← accept ['[', '['] then
    let path ← key
    word [']', ']']
    return ⟨← StateT.lift (progress.root.extend path), path⟩
  else if ← accept ['['] then
    let path ← key
    word [']']
    return ⟨← StateT.lift (progress.root.define path), path⟩
  else
    let path ← key
    word ['=']
    spaces
    let v ← value depthLimit
    let root ← StateT.lift (progress.root.within false progress.header (Table.assign path v))
    return { progress with root }

/-- Takes the lines of a document; each round takes at least one character. -/
def documentLines : Nat → Progress → Reader Progress
  | 0, progress => return progress
  | rounds + 1, progress => do
    spaces
    let progress ←
      match ← peek with
      | none => pure progress
      | some '#' => pure progress
      | some '\n' => pure progress
      | some '\r' => pure progress
      | some _ => statement progress
    spaces
    comment
    if ← acceptBreak then documentLines rounds progress
    else if ← atEnd then return progress
    else failure

/-- The value of a document. A byte order mark at the start is passed over. -/
def ofText? (text : Text) : Option Value :=
  let body :=
    match text with
    | c :: rest => if c.toNat = 0xFEFF then rest else text
    | [] => []
  match documentLines (body.length + 1) {} body with
  | some (progress, []) => some progress.root.toValue
  | _ => none

end EditorToolbar.Toml
