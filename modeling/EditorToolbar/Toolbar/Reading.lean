import EditorToolbar.Token

/-!
# Reading a toolbar

Every list of tokens describes a toolbar; malformed ones read as what they most plausibly mean.
Commas say nothing, since names are separate tokens already. A pipe ends the current group and is
remembered for the next one. Braces end the current group and say whether the next one is braced:
an opening brace holds until the next closing brace or divider, however often it is repeated. A
divider also ends the section.

The reader moves a `Cursor` along the tokens. A pipe that is never followed by a tool, as in `{}|`,
leaves an empty group behind, so that compaction can pass the pipe on to the next group.
-/

namespace EditorToolbar

/-- Where the reader stands: the tools of the group being read, whether a brace is open, and how
the next group will be attached. -/
structure Cursor where
  current : Option Group := none
  inBraces : Bool := false
  pending : Joint := .pipe
  deriving DecidableEq, Repr

namespace Cursor

/-- Adds a tool to the current group, which it opens if there is none. -/
def push (k : Cursor) (name : ToolName) : Cursor :=
  match k.current with
  | some g => { k with current := some { g with tools := g.tools ++ [name] } }
  | none =>
    { k with current := some ⟨k.inBraces, k.pending, [name]⟩, pending := .adjacent }

/-- The group that ends here: the current one, or an empty one that keeps a pending pipe. -/
def finished (k : Cursor) : List Group :=
  match k.current with
  | some g => [g]
  | none => if k.pending = .pipe then [⟨k.inBraces, .pipe, []⟩] else []

/-- The cursor after the current group has ended. -/
def afterGroup (k : Cursor) : Cursor :=
  match k.current with
  | some _ => { k with current := none }
  | none => { k with pending := .adjacent }

end Cursor

/-- Reads the tokens from a cursor on: the groups that remain to the current section, and the
sections after it. -/
def Cursor.read (k : Cursor) : List Token → List Group × List Section
  | [] => (k.finished, [])
  | .tool name :: rest => (k.push name).read rest
  | .comma :: rest => k.read rest
  | .pipe :: rest =>
    let (groups, sections) := { k.afterGroup with pending := .pipe }.read rest
    (k.finished ++ groups, sections)
  | .openBrace :: rest =>
    let (groups, sections) := { k.afterGroup with inBraces := true }.read rest
    (k.finished ++ groups, sections)
  | .closeBrace :: rest =>
    let (groups, sections) := { k.afterGroup with inBraces := false }.read rest
    (k.finished ++ groups, sections)
  | .divider d :: rest =>
    let (groups, sections) := Cursor.read {} rest
    (k.finished, ⟨some d, groups⟩ :: sections)

namespace Toolbar

def ofTokens (tokens : List Token) : Toolbar :=
  let (groups, sections) := Cursor.read {} tokens
  ⟨⟨none, groups⟩ :: sections⟩

def ofText (text : Text) : Toolbar := ofTokens (Token.tokenize text)

end Toolbar

end EditorToolbar
