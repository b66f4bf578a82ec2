import EditorToolbar.Text.Basic

/-!
# JSON values and their text

`Json.write` lays a value out over several lines, indented by two blanks for each level; an empty
array or object stays on its line. In a string only what has to be escaped is escaped: quotes,
backslashes and the characters below the blank.
-/

namespace EditorToolbar

/-- A JSON value. A number is kept as it is spelled and an object as the list of its fields. -/
inductive Json where
  | null
  | bool (b : Bool)
  | number (literal : Text)
  | string (s : Text)
  | array (items : List Json)
  | object (fields : List (Text × Json))
  deriving Inhabited

namespace Json

/-- The hexadecimal digit of a number below sixteen, in lower case. -/
def hexDigit (n : Nat) : Char := Nat.digitChar n

def escape (c : Char) : Text :=
  if c = '"' then ['\\', '"']
  else if c = '\\' then ['\\', '\\']
  else if c = '\n' then ['\\', 'n']
  else if c = '\r' then ['\\', 'r']
  else if c = '\t' then ['\\', 't']
  else if c.toNat = 8 then ['\\', 'b']
  else if c.toNat = 12 then ['\\', 'f']
  else if c.toNat < 32 then
    ['\\', 'u', '0', '0', hexDigit (c.toNat / 16), hexDigit (c.toNat % 16)]
  else [c]

def quote (s : Text) : Text := '"' :: s.flatMap escape ++ ['"']

/-- The start of a line at a level. -/
def newLine (level : Nat) : Text := '\n' :: List.replicate (2 * level) ' '

mutual

/-- A value whose first line stands at a level. -/
def writeAt (level : Nat) : Json → Text
  | .null => "null".toList
  | .bool true => "true".toList
  | .bool false => "false".toList
  | .number literal => literal
  | .string s => quote s
  | .array [] => "[]".toList
  | .array (item :: items) =>
    '[' :: newLine (level + 1) ++ writeAt (level + 1) item ++ writeItems (level + 1) items ++
      newLine level ++ [']']
  | .object [] => "\x7b\x7d".toList
  | .object ((key, value) :: fields) =>
    '{' :: newLine (level + 1) ++ quote key ++ [':', ' '] ++ writeAt (level + 1) value ++
      writeFields (level + 1) fields ++ newLine level ++ ['}']

/-- The items of an array after its first one. -/
def writeItems (level : Nat) : List Json → Text
  | [] => []
  | item :: items => ',' :: newLine level ++ writeAt level item ++ writeItems level items

/-- The fields of an object after its first one. -/
def writeFields (level : Nat) : List (Text × Json) → Text
  | [] => []
  | (key, value) :: fields =>
    ',' :: newLine level ++ quote key ++ [':', ' '] ++ writeAt level value ++
      writeFields level fields

end

def write (value : Json) : Text := writeAt 0 value

end Json

end EditorToolbar
