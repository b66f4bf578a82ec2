import EditorToolbar.Json.Basic
import EditorToolbar.Text.Digit

/-!
# Reading JSON

`Json.ofText?` reads any JSON text, with blanks wherever they may stand, and refuses everything
else. The readers take a piece off the front of a text and give back the rest. Strings are read by
recursion on the text. For the nesting of values the readers carry a count of rounds, each of which
takes at least one character, so the length of the text is always enough.
-/

namespace EditorToolbar.Json

/-- The blanks that may stand between the parts of a value. -/
def isBlank (c : Char) : Bool := c == ' ' || c == '\n' || c == '\t' || c == '\r'

def skipBlanks (s : Text) : Text := s.dropWhile isBlank

def hexQuad? (a b c d : Char) : Option Nat := do
  let digits ← [a, b, c, d].mapM Text.hexValue?
  return digits.foldl (fun n digit => n * 16 + digit) 0

def isHighSurrogate (n : Nat) : Bool := 0xD800 ≤ n && n < 0xDC00

def isLowSurrogate (n : Nat) : Bool := 0xDC00 ≤ n && n < 0xE000

def ofSurrogates (high low : Nat) : Char :=
  Char.ofNat (0x10000 + (high - 0xD800) * 0x400 + (low - 0xDC00))

/-- The character that a letter stands for after a backslash. -/
def unescape? : Char → Option Char
  | '"' => some '"'
  | '\\' => some '\\'
  | '/' => some '/'
  | 'b' => some (Char.ofNat 8)
  | 'f' => some (Char.ofNat 12)
  | 'n' => some '\n'
  | 'r' => some '\r'
  | 't' => some '\t'
  | _ => none

/-- Reads a string after its opening quote. -/
def readString : Text → Option (Text × Text)
  | [] => none
  | '"' :: rest => some ([], rest)
  | '\\' :: 'u' :: a :: b :: c :: d :: rest => do
    let n ← hexQuad? a b c d
    if isHighSurrogate n then
      match rest with
      | '\\' :: 'u' :: e :: f :: g :: h :: rest => do
        let m ← hexQuad? e f g h
        if isLowSurrogate m then
          let (s, rest) ← readString rest
          return (ofSurrogates n m :: s, rest)
        else none
      | _ => none
    else if isLowSurrogate n then none
    else
      let (s, rest) ← readString rest
      return (Char.ofNat n :: s, rest)
  | '\\' :: e :: rest => do
    let c ← unescape? e
    let (s, rest) ← readString rest
    return (c :: s, rest)
  | c :: rest =>
    if c.toNat < 32 then none
    else do
      let (s, rest) ← readString rest
      return (c :: s, rest)

/-- A run of digits at the front of a text, at least one. -/
def readDigits (s : Text) : Option (Text × Text) :=
  match s.takeWhile Char.isDigit with
  | [] => none
  | found => some (found, s.dropWhile Char.isDigit)

/-- Reads the whole part of a number, which has no zero in front. -/
def readWhole : Text → Option (Text × Text)
  | '0' :: rest => some (['0'], rest)
  | s => readDigits s

/-- Reads the fraction of a number, if there is one. -/
def readFraction : Text → Option (Text × Text)
  | '.' :: rest => do
    let (found, rest) ← readDigits rest
    return ('.' :: found, rest)
  | s => some ([], s)

def readSign : Text → Text × Text
  | '+' :: rest => (['+'], rest)
  | '-' :: rest => (['-'], rest)
  | s => ([], s)

/-- Reads the exponent of a number, if there is one. -/
def readExponent : Text → Option (Text × Text)
  | [] => some ([], [])
  | c :: rest =>
    if c = 'e' ∨ c = 'E' then do
      let (sign, rest) := readSign rest
      let (found, rest) ← readDigits rest
      return (c :: sign ++ found, rest)
    else some ([], c :: rest)

def readNumber (s : Text) : Option (Json × Text) := do
  let (sign, rest) := match s with
    | '-' :: rest => (['-'], rest)
    | _ => ([], s)
  let (whole, rest) ← readWhole rest
  let (fraction, rest) ← readFraction rest
  let (exponent, rest) ← readExponent rest
  return (.number (sign ++ whole ++ fraction ++ exponent), rest)

/-- Takes a character after blanks. -/
def expect (c : Char) (s : Text) : Option Text :=
  match skipBlanks s with
  | d :: rest => if d = c then some rest else none
  | [] => none

mutual

def readValue : Nat → Text → Option (Json × Text)
  | 0, _ => none
  | rounds + 1, s =>
    match skipBlanks s with
    | 'n' :: 'u' :: 'l' :: 'l' :: rest => some (.null, rest)
    | 't' :: 'r' :: 'u' :: 'e' :: rest => some (.bool true, rest)
    | 'f' :: 'a' :: 'l' :: 's' :: 'e' :: rest => some (.bool false, rest)
    | '"' :: rest => do
      let (s, rest) ← readString rest
      return (.string s, rest)
    | '[' :: rest =>
      match expect ']' rest with
      | some rest => some (.array [], rest)
      | none => do
        let (items, rest) ← readItems rounds rest
        return (.array items, rest)
    | '{' :: rest =>
      match expect '}' rest with
      | some rest => some (.object [], rest)
      | none => do
        let (fields, rest) ← readFields rounds rest
        return (.object fields, rest)
    | rest => readNumber rest

/-- Reads the items of an array, at least one, and the closing bracket. -/
def readItems : Nat → Text → Option (List Json × Text)
  | 0, _ => none
  | rounds + 1, s => do
    let (item, rest) ← readValue rounds s
    match expect ',' rest with
    | some rest =>
      let (items, rest) ← readItems rounds rest
      return (item :: items, rest)
    | none => return ([item], ← expect ']' rest)

/-- Reads the fields of an object, at least one, and the closing brace. -/
def readFields : Nat → Text → Option (List (Text × Json) × Text)
  | 0, _ => none
  | rounds + 1, s => do
    let (key, rest) ← readString (← expect '"' s)
    let (value, rest) ← readValue rounds (← expect ':' rest)
    match expect ',' rest with
    | some rest =>
      let (fields, rest) ← readFields rounds rest
      return ((key, value) :: fields, rest)
    | none => return ([(key, value)], ← expect '}' rest)

end

def ofText? (text : Text) : Option Json :=
  match readValue (text.length + 1) text with
  | some (value, rest) => if (skipBlanks rest).isEmpty then some value else none
  | none => none

end EditorToolbar.Json
