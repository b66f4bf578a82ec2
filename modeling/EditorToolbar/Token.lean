import EditorToolbar.Toolbar.Basic

/-!
# Tokens of a toolbar text

A toolbar text is made of six separators, of blanks, which only keep names apart, and of tool
names: the longest runs of characters that are neither. So every text has tokens, and nothing but
blanks is lost on the way: `tokenize` never fails.
-/

namespace EditorToolbar

/-- The lexical units of a toolbar text. -/
inductive Token where
  | openBrace
  | closeBrace
  | comma
  | pipe
  | divider (d : Divider)
  | tool (name : Text)
  deriving DecidableEq, Repr

namespace Token

def ofSeparator? : Char → Option Token
  | '{' => some openBrace
  | '}' => some closeBrace
  | ',' => some comma
  | '|' => some pipe
  | '#' => some (divider .hash)
  | '/' => some (divider .slash)
  | _ => none

/-- The characters that tool names are made of: all but separators and blanks. -/
def isNameChar (c : Char) : Bool :=
  (ofSeparator? c).isNone && !Text.isBlank c

/-- Puts a character in front of a name that the tokens start with, if it is `joined` to that
name, and else starts a name with it. -/
def consName (c : Char) (joined : Bool) : List Token → List Token
  | tool name :: rest => if joined then tool (c :: name) :: rest else tool [c] :: tool name :: rest
  | rest => tool [c] :: rest

def tokenize : Text → List Token
  | [] => []
  | c :: r =>
    match ofSeparator? c with
    | some separator => separator :: tokenize r
    | none =>
      if Text.isBlank c then tokenize r
      else consName c (r.head?.any isNameChar) (tokenize r)

@[simp] theorem tokenize_nil : tokenize [] = [] := rfl

theorem tokenize_cons_separator {c : Char} {t : Token} (h : ofSeparator? c = some t) (r : Text) :
    tokenize (c :: r) = t :: tokenize r := by
  simp [tokenize, h]

theorem tokenize_cons_blank {c : Char} (hs : ofSeparator? c = none) (h : Text.isBlank c = true)
    (r : Text) : tokenize (c :: r) = tokenize r := by
  simp [tokenize, hs, h]

theorem tokenize_cons_name {c : Char} (h : isNameChar c = true) (r : Text) :
    tokenize (c :: r) = consName c (r.head?.any isNameChar) (tokenize r) := by
  simp [isNameChar] at h
  simp [tokenize, h]

/-- A run of name characters that nothing continues is one tool. -/
theorem tokenize_name_append {name rest : Text} (hne : name ≠ [])
    (hname : ∀ c ∈ name, isNameChar c = true) (hrest : rest.head?.any isNameChar = false) :
    tokenize (name ++ rest) = tool name :: tokenize rest := by
  induction name with
  | nil => exact absurd rfl hne
  | cons c n ih =>
    have hc : isNameChar c = true := hname c (by simp)
    rw [List.cons_append, tokenize_cons_name hc]
    cases n with
    | nil =>
      rw [List.nil_append, hrest]
      cases tokenize rest with
      | nil => rfl
      | cons t ts => cases t <;> rfl
    | cons d n =>
      have hd : isNameChar d = true := hname d (by simp)
      rw [ih (by simp) (fun x hx => hname x (List.mem_cons_of_mem _ hx))]
      simp [consName, hd]

def spell : Token → Text
  | openBrace => ['{']
  | closeBrace => ['}']
  | comma => [',']
  | pipe => ['|']
  | divider .hash => ['#']
  | divider .slash => ['/']
  | tool name => name

theorem ofSeparator?_eq_some_spell {c : Char} {t : Token} (h : ofSeparator? c = some t) :
    t.spell = [c] := by
  unfold ofSeparator? at h
  split at h <;> simp_all <;> subst h <;> rfl

end Token

end EditorToolbar
