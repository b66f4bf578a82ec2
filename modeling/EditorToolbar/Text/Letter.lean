import EditorToolbar.Text.Basic
import EditorToolbar.Text.Ranges

/-!
# Letters, digits and words

Two different questions are asked about a character when words are looked for in a text.

* `isWordPart`: does the character belong to a word of the text? A word boundary lies between two
  neighbours of which exactly one does.
* `isNameLetter`: does a name that starts or ends with this character have to stop at a word
  boundary there? A name such as `c++` ends in a character that is no letter, so nothing is
  asked about what follows it.

The two differ: a combining accent is part of a word but no name letter, and a superscript digit
is a name letter but part of no word.
-/

namespace EditorToolbar.Text

def inRanges (ranges : List (Nat × Nat)) (n : Nat) : Bool :=
  ranges.any fun range => range.1 ≤ n && n ≤ range.2

def isAlphabetic (c : Char) : Bool :=
  if c.toNat < 128 then c.isAlpha else inRanges Ranges.alphabetic c.toNat

/-- General categories Nd, Nl and No. -/
def isNumber (c : Char) : Bool :=
  if c.toNat < 128 then c.isDigit else inRanges Ranges.number c.toNat

/-- General category Nd. -/
def isDecimalDigit (c : Char) : Bool :=
  if c.toNat < 128 then c.isDigit else inRanges Ranges.decimal c.toNat

/-- General category M. -/
def isMark (c : Char) : Bool :=
  128 ≤ c.toNat && inRanges Ranges.mark c.toNat

/-- General category Pc. -/
def isConnector (c : Char) : Bool :=
  if c.toNat < 128 then c == '_' else inRanges Ranges.connector c.toNat

/-- Property Join_Control: the zero-width joiner and non-joiner. -/
def isJoinControl (c : Char) : Bool :=
  c.toNat == 0x200C || c.toNat == 0x200D

/-- The characters that words of a text are made of. -/
def isWordPart (c : Char) : Bool :=
  isAlphabetic c || isMark c || isDecimalDigit c || isConnector c || isJoinControl c

/-- The characters at which a name, looked for in a text, has to stop at a word boundary. -/
def isNameLetter (c : Char) : Bool :=
  isAlphabetic c || isNumber c || c == '_'

/-- Whether a word begins or ends between two neighbours. The ends of the text count as
neighbours outside every word. -/
def isBoundary (before after : Option Char) : Bool :=
  before.any isWordPart != after.any isWordPart

end EditorToolbar.Text
