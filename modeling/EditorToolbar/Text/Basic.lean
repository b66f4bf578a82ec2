/-!
# Text

A text is the list of its characters. Every part of the library reads and writes texts in this
form, so that a statement about a text is a statement about a list; only the command line turns
them into strings.

`isBlank` is the Unicode property White_Space. Blanks separate names in a toolbar and are trimmed
from names given by a user, and both places use this one predicate. The two trimming functions are
recursions on the text, so trimming at the end needs no reversal.
-/

namespace EditorToolbar

abbrev Text := List Char

namespace Text

/-- The characters with property White_Space. -/
def isBlank (c : Char) : Bool :=
  let n := c.toNat
  (0x9 ≤ n && n ≤ 0xD) || n == 0x20 || n == 0x85 || n == 0xA0 || n == 0x1680 ||
    (0x2000 ≤ n && n ≤ 0x200A) || n == 0x2028 || n == 0x2029 || n == 0x202F || n == 0x205F ||
    n == 0x3000

def trimStart (s : Text) : Text := s.dropWhile isBlank

def trimEnd : Text → Text
  | [] => []
  | c :: r =>
    match trimEnd r with
    | [] => if isBlank c then [] else [c]
    | d :: t => c :: d :: t

def trim (s : Text) : Text := trimEnd (trimStart s)

@[simp] theorem trimEnd_nil : trimEnd [] = [] := rfl

theorem trimEnd_cons_of_eq_nil {c : Char} {r : Text} (h : trimEnd r = []) :
    trimEnd (c :: r) = if isBlank c then [] else [c] := by
  simp [trimEnd, h]

theorem trimEnd_cons_of_ne_nil {c : Char} {r : Text} (h : trimEnd r ≠ []) :
    trimEnd (c :: r) = c :: trimEnd r := by
  cases hr : trimEnd r with
  | nil => exact absurd hr h
  | cons d t => simp [trimEnd, hr]

/-- A text trims to nothing exactly when it is blank throughout. -/
theorem trimEnd_eq_nil_iff (s : Text) : trimEnd s = [] ↔ ∀ c ∈ s, isBlank c = true := by
  induction s with
  | nil => simp
  | cons c r ih =>
    by_cases h : trimEnd r = []
    · rw [trimEnd_cons_of_eq_nil h, List.forall_mem_cons, ← ih]
      by_cases hc : isBlank c <;> simp [hc, h]
    · rw [trimEnd_cons_of_ne_nil h, List.forall_mem_cons, ← ih]
      simp [h]

/-- The ASCII letters in lower case, every other character as it is. -/
def lower (s : Text) : Text := s.map Char.toLower

/-- Equality up to the case of the ASCII letters. -/
def sameLetters (s t : Text) : Bool := lower s == lower t

def utf8Length (s : Text) : Nat := s.foldr (fun c n => c.utf8Size + n) 0

@[simp] theorem utf8Length_nil : utf8Length [] = 0 := rfl

@[simp] theorem utf8Length_cons (c : Char) (s : Text) :
    utf8Length (c :: s) = c.utf8Size + utf8Length s := by
  simp [utf8Length]

/-- The pieces between the characters that satisfy `p`; one more piece than there are such
characters. -/
def pieces (p : Char → Bool) (s : Text) : List Text := s.splitOnP p

def join (separator : Text) (parts : List Text) : Text := List.intercalate separator parts

def ofNat (n : Nat) : Text := Nat.toDigits 10 n

def ofInt : Int → Text
  | .ofNat n => ofNat n
  | .negSucc n => '-' :: ofNat (n + 1)

end Text

end EditorToolbar
