import EditorToolbar.Text.Basic

/-!
# Digits

Reading numbers from their digits. All digits are ASCII; those beyond nine are the letters from `a`
to `f` in either case.
-/

namespace EditorToolbar.Text

def hexValue? (c : Char) : Option Nat :=
  if c.isDigit then some (c.toNat - '0'.toNat)
  else if 'a' ≤ c ∧ c ≤ 'f' then some (c.toNat - 'a'.toNat + 10)
  else if 'A' ≤ c ∧ c ≤ 'F' then some (c.toNat - 'A'.toNat + 10)
  else none

/-- The number that digits are in a base. -/
def numberIn (base : Nat) (digits : Text) : Nat :=
  digits.foldl (fun n c => n * base + (hexValue? c).getD 0) 0

/-- Whether a text consists of decimal digits, of which it has at least one. -/
def isDigits (s : Text) : Bool := !s.isEmpty && s.all Char.isDigit

def unsigned : Text → Text
  | '+' :: r => r
  | '-' :: r => r
  | s => s

end EditorToolbar.Text
