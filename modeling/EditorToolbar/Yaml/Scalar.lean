import EditorToolbar.Decimal.Binary64
import EditorToolbar.Text.Digit

/-!
# YAML scalars

A string is written in the plainest of four styles that reads back as the same string.

* Plain, as it is, if no part of it could be taken for something else.
* In single quotes if it is blank-edged, starts with an indicator, could be read as a mapping or a
  comment, or would read as null, a truth value or a number (`readsAsOther`).
* As a literal block if it has a line feed. The block is indented by two blanks.
* In double quotes, with escapes, if it has a character that must not stand as it is (`isSpecial`),
  or blanks next to line breaks that a block would lose.

A line separator or paragraph separator counts as a line break, but only a line feed calls for a
block.
-/

namespace EditorToolbar.Yaml

inductive Style where
  | plain
  | singleQuoted
  | literal
  | doubleQuoted
  deriving DecidableEq, Repr

/-- The line breaks. -/
def isBreak (c : Char) : Bool :=
  c == '\n' || c == '\r' || c.toNat == 0x85 || c.toNat == 0x2028 || c.toNat == 0x2029

/-- The characters that are written as escapes: control characters, the byte order mark and two
code points that are no characters. -/
def isSpecial (c : Char) : Bool :=
  let n := c.toNat
  (n < 0x20 && n != 0xA) || (0x7F ≤ n && n < 0xA0) || n == 0xFEFF || n == 0xFFFE || n == 0xFFFF

/-- The end of the string or a character that counts as blank after an indicator. -/
def endsIndicator (next : Option Char) : Bool :=
  next.all fun c => c == ' ' || c == '\t' || isBreak c

/-- The characters that cannot start a plain string. -/
def isIndicator (c : Char) : Bool :=
  "#,[]\x7b\x7d&*!|>'\"%@`".toList.contains c

/-- Whether a string starts in a way that a plain string must not. -/
def startsBadly (s : Text) : Bool :=
  "---".toList.isPrefixOf s || "...".toList.isPrefixOf s ||
    match s with
    | [] => false
    | c :: r => isIndicator c || ((c == '?' || c == '-') && endsIndicator r.head?)

/-- Whether a string has a colon that ends a key or a hash that starts a comment. -/
def hasStructure : Option Char → Text → Bool
  | _, [] => false
  | before, c :: r =>
    (c == ':' && endsIndicator r.head?) || (c == '#' && before.isSome && endsIndicator before) ||
      hasStructure (some c) r

/-- Whether two neighbours of a string are as `p` and `q` say. -/
def hasNeighbours (p q : Char → Bool) : Text → Bool
  | c :: d :: r => (p c && q d) || hasNeighbours p q (d :: r)
  | _ => false

def isSpace (c : Char) : Bool := c == ' '

/-- Whether a string is a numeral in a base, below a bound. -/
def isNumeral (base bound : Nat) (s : Text) : Bool :=
  !s.isEmpty && s.all (fun c => (Text.hexValue? c).any (· < base)) && Text.numberIn base s < bound

/-- A string without a given beginning. -/
def drop? (start s : Text) : Option Text :=
  if start.isPrefixOf s then some (s.drop start.length) else none

/-- Whether a string reads as an integer in base 16, 8 or 2. -/
def isBasedInteger (s : Text) : Bool :=
  let bound : Nat := if s.head? = some '-' then Nat.pow 2 127 + 1 else Nat.pow 2 128
  [("0x".toList, 16), ("0o".toList, 8), ("0b".toList, 2)].any fun form =>
    (drop? form.1 s.unsigned).any (isNumeral form.2 bound)

/-- Whether a string is a numeral with a zero in front. -/
def isPadded (s : Text) : Bool :=
  s.unsigned.head? == some '0' && 1 < s.unsigned.length && s.unsigned.isDigits

/-- The power of ten that an exponent part stands for; there may be none. -/
def exponentPart? : Text → Option Int
  | [] => some 0
  | c :: r =>
    if (c == 'e' || c == 'E') && (Text.unsigned r).isDigits then
      let n : Int := Text.numberIn 10 (Text.unsigned r)
      some (if r.head? = some '-' then -n else n)
    else none

/-- Whether a string reads as a finite decimal: digits with an optional point among or around
them, and an optional exponent. -/
def isDecimal (s : Text) : Bool :=
  let body := s.unsigned
  let whole := body.takeWhile Char.isDigit
  let afterWhole := body.dropWhile Char.isDigit
  let (fraction, rest) :=
    match afterWhole with
    | '.' :: r => (r.takeWhile Char.isDigit, r.dropWhile Char.isDigit)
    | _ => ([], afterWhole)
  let digits := whole ++ fraction
  !digits.isEmpty &&
    (exponentPart? rest).any fun exponent =>
      (Binary64.ofDecimal false (Text.numberIn 10 digits) (exponent - fraction.length)).isFinite

/-- The strings that read as infinity or as not a number. -/
def notFinite : List Text :=
  [".inf".toList, ".Inf".toList, ".INF".toList, "+.inf".toList, "+.Inf".toList, "+.INF".toList,
    "-.inf".toList, "-.Inf".toList, "-.INF".toList, ".nan".toList, ".NaN".toList, ".NAN".toList]

/-- The strings that read as null or as a truth value. -/
def constants : List Text :=
  ["~".toList, "null".toList, "Null".toList, "NULL".toList, "true".toList, "True".toList,
    "TRUE".toList, "false".toList, "False".toList, "FALSE".toList]

/-- Whether a plain string would read as something other than a string. -/
def readsAsOther (s : Text) : Bool :=
  s.isEmpty || constants.contains s || notFinite.contains s || isBasedInteger s || isPadded s ||
    isDecimal s

def style (s : Text) : Style :=
  if s.any isSpecial || hasNeighbours isSpace isBreak s then .doubleQuoted
  else if s.contains '\n' then
    if s.getLast?.any isSpace then .doubleQuoted else .literal
  else if hasNeighbours isBreak isSpace s then .doubleQuoted
  else if readsAsOther s || startsBadly s || hasStructure none s || s.any isBreak ||
      s.head?.any isSpace || s.getLast?.any isSpace then .singleQuoted
  else .plain

/-- The characters of a string as `write` writes them; after line breaks the text goes on two
blanks further in. -/
def indentBreaks (write : Char → Text) : Bool → Text → Text
  | _, [] => []
  | broken, c :: r =>
    if isBreak c then c :: indentBreaks write true r
    else (if broken then [' ', ' '] else []) ++ write c ++ indentBreaks write false r

/-- How many line breaks a block ends in, as its header says it. -/
def chomping (s : Text) : Text :=
  match s.reverse with
  | [] => ['-']
  | [c] => if isBreak c then ['+'] else ['-']
  | c :: d :: _ => if !isBreak c then ['-'] else if isBreak d then ['+'] else []

/-- A literal block: its header, and its lines. -/
def writeLiteral (s : Text) : Text :=
  let hint := if s.head?.any (fun c => isSpace c || isBreak c) then ['2'] else []
  '|' :: hint ++ chomping s ++ '\n' :: indentBreaks (fun c => [c]) true s

/-- A string in single quotes; a quote inside is doubled. -/
def writeSingleQuoted (s : Text) : Text :=
  let body := indentBreaks (fun c => if c = '\'' then ['\'', '\''] else [c]) false s
  '\'' :: body ++ (if s.getLast?.any isBreak then [' ', ' '] else []) ++ ['\'']

/-- The lowest digits of a number in hexadecimal, in upper case. -/
def hexDigits : Nat → Nat → Text
  | 0, _ => []
  | count + 1, n => hexDigits count (n / 16) ++ [(Nat.digitChar (n % 16)).toUpper]

def escape (c : Char) : Text :=
  let n := c.toNat
  let named : List (Nat × Char) :=
    [(0x0, '0'), (0x7, 'a'), (0x8, 'b'), (0x9, 't'), (0xA, 'n'), (0xB, 'v'), (0xC, 'f'),
      (0xD, 'r'), (0x1B, 'e'), (0x22, '"'), (0x5C, '\\'), (0x85, 'N'), (0x2028, 'L'),
      (0x2029, 'P')]
  match named.find? fun entry => entry.1 == n with
  | some entry => ['\\', entry.2]
  | none =>
    if n ≤ 0xFF then '\\' :: 'x' :: hexDigits 2 n
    else if n ≤ 0xFFFF then '\\' :: 'u' :: hexDigits 4 n
    else '\\' :: 'U' :: hexDigits 8 n

def writeDoubleQuoted (s : Text) : Text :=
  let write (c : Char) : Text :=
    if isSpecial c || isBreak c || c == '"' || c == '\\' then escape c else [c]
  '"' :: s.flatMap write ++ ['"']

def writeScalar (s : Text) : Text :=
  match style s with
  | .plain => s
  | .singleQuoted => writeSingleQuoted s
  | .literal => writeLiteral s
  | .doubleQuoted => writeDoubleQuoted s

/-- An entry of a mapping, up to the start of the next line. A block that ends in a line break has
reached it already. -/
def writeEntry (key value : Text) : Text :=
  key ++ [':', ' '] ++ writeScalar value ++
    if style value = .literal && value.getLast?.any isBreak then [] else ['\n']

def writeMapping (entries : List (Text × Text)) : Text :=
  entries.flatMap fun entry => writeEntry entry.1 entry.2

end EditorToolbar.Yaml
