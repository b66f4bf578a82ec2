import EditorToolbar.Decimal.Binary64
import EditorToolbar.Toml.Strings

/-!
# TOML numbers and dates

Integers have 64 bits. A single underscore may stand between two digits of a number. A decimal
integer has no zero in front; the other bases have no sign. Dates and times are checked against the
calendar and kept in their standard form: a `T` between date and time, and a fraction of at most
nine digits that does not end in zero.
-/

namespace EditorToolbar.Toml

open Reader

/-- The digits at the front of a text, between which single underscores may stand, and the rest. -/
def digitsFrom (isDigit : Char → Bool) : Text → Text × Text
  | [] => ([], [])
  | '_' :: d :: r =>
    if isDigit d then
      let (found, rest) := digitsFrom isDigit r
      (d :: found, rest)
    else ([], '_' :: d :: r)
  | c :: r =>
    if isDigit c then
      let (found, rest) := digitsFrom isDigit r
      (c :: found, rest)
    else ([], c :: r)

def digitRun (isDigit : Char → Bool) : Reader Text := fun s =>
  if s.head?.any isDigit then some (digitsFrom isDigit s) else none

/-- Takes a run of decimal digits without a zero in front. -/
def decimalRun : Reader Text := do
  let found ← digitRun Char.isDigit
  if found.head? = some '0' ∧ 1 < found.length then failure else return found

/-- Takes a sign if there is one; true stands for minus. -/
def sign : Reader Bool := do
  if ← accept ['-'] then return true
  let _ ← accept ['+']
  return false

/-- An integer that has to fit into 64 bits. -/
def bounded (n : Int) : Reader Int :=
  if -(Int.pow 2 63) ≤ n ∧ n < Int.pow 2 63 then return n else failure

def integer : Reader Int := do
  if ← accept ['0', 'x'] then
    bounded (Text.numberIn 16 (← digitRun fun c => (Text.hexValue? c).isSome))
  else if ← accept ['0', 'o'] then
    bounded (Text.numberIn 8 (← digitRun fun c => '0' ≤ c && c ≤ '7'))
  else if ← accept ['0', 'b'] then
    bounded (Text.numberIn 2 (← digitRun fun c => c == '0' || c == '1'))
  else
    let negative ← sign
    let n := Text.numberIn 10 (← decimalRun)
    bounded (if negative then -(n : Int) else n)

def exponent : Reader Int := do
  let mark ← next
  if mark = 'e' ∨ mark = 'E' then
    let negative ← sign
    let n := Text.numberIn 10 (← digitRun Char.isDigit)
    return if negative then -(n : Int) else n
  else failure

/-- Takes a floating-point number with a fraction or an exponent. A positive one must not be too
large for the format. -/
def decimalFloat : Reader Binary64 := do
  let negative ← sign
  let whole ← decimalRun
  let fraction ←
    if ← accept ['.'] then some <$> digitRun Char.isDigit else pure none
  let power ← attempt exponent
  if fraction.isNone && power.isNone then failure
  let places := fraction.getD []
  let x := Binary64.ofDecimal negative (Text.numberIn 10 (whole ++ places))
    (power.getD 0 - places.length)
  if x = .infinite false then failure else return x

/-- Takes an infinity or a value that is not a number. -/
def specialFloat : Reader Binary64 := do
  let negative ← sign
  if ← accept "inf".toList then return .infinite negative
  word "nan".toList
  return .notANumber

/-- A number with at least `width` digits. -/
def padded (width n : Nat) : Text :=
  let found := Text.ofNat n
  List.replicate (width - found.length) '0' ++ found

def daysIn (year month : Nat) : Nat :=
  if month = 2 then
    if (year % 4 = 0 ∧ year % 100 ≠ 0) ∨ year % 400 = 0 then 29 else 28
  else if month = 4 ∨ month = 6 ∨ month = 9 ∨ month = 11 then 30
  else 31

def calendarDate : Reader Text := do
  let year ← digits 4
  word ['-']
  let month ← digits 2
  word ['-']
  let day ← digits 2
  if 1 ≤ month ∧ month ≤ 12 ∧ 1 ≤ day ∧ day ≤ daysIn year month then
    return padded 4 year ++ ['-'] ++ padded 2 month ++ ['-'] ++ padded 2 day
  else failure

/-- A fraction of a second in its standard form. -/
def secondFraction (found : Text) : Text :=
  match ((found.take 9).reverse.dropWhile (· == '0')).reverse with
  | [] => []
  | places => '.' :: places

def hourMinute : Reader Text := do
  let hour ← digits 2
  word [':']
  let minute ← digits 2
  if hour ≤ 23 ∧ minute ≤ 59 then return padded 2 hour ++ [':'] ++ padded 2 minute else failure

def clockTime : Reader Text := do
  let start ← hourMinute
  word [':']
  let second ← digits 2
  if 60 < second then failure
  let fraction ←
    if ← accept ['.'] then secondFraction <$> run1 Char.isDigit else pure []
  return start ++ [':'] ++ padded 2 second ++ fraction

/-- Takes an offset from universal time. A zero offset is written with a plus sign. -/
def timeOffset : Reader Text := do
  match ← next with
  | 'Z' => return ['Z']
  | 'z' => return ['Z']
  | '+' => return '+' :: (← hourMinute)
  | '-' =>
    let amount ← hourMinute
    return (if amount = "00:00".toList then '+' else '-') :: amount
  | _ => failure

/-- Takes the time of day that may follow a date, after a `T` or one blank. -/
def dateTime : Reader Text := do
  let mark ← next
  if mark = 'T' ∨ mark = 't' ∨ mark = ' ' then
    let time ← clockTime
    let offset ← attempt timeOffset
    return 'T' :: time ++ offset.getD []
  else failure

/-- Takes a date, a time, or both. -/
def date : Reader Text :=
  orElse
    (do
      let day ← calendarDate
      let time ← attempt dateTime
      return day ++ time.getD [])
    clockTime

end EditorToolbar.Toml
