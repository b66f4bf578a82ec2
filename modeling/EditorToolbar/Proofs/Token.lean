import EditorToolbar.Token
import EditorToolbar.Proofs.Text.Letter
import EditorToolbar.Proofs.Text.Runs

/-!
# What the tokens of a text are

The tools of a text are its runs of name characters, so `Text.runInduction` at `isNameChar` reads a
text token by token: outside the runs `tokenize` keeps separators and drops blanks, and a run is one
tool. Three facts follow. Tools are names, that is, non-empty and made of name characters; written
one after another they are the name characters of the text; and a name that occurs in a text occurs
in one of its tools.
-/

namespace EditorToolbar

namespace Token

/-- What can be the name of a tool that is read from a text. -/
def IsName (name : Text) : Prop := name ≠ [] ∧ ∀ c ∈ name, isNameChar c = true

instance : DecidablePred IsName := fun name =>
  decidable_of_iff (name ≠ [] ∧ name.all isNameChar = true) (by simp [IsName])

def tools : List Token → List ToolName
  | [] => []
  | tool name :: rest => name :: tools rest
  | _ :: rest => tools rest

/-- Whether a token stays when only some tools are kept. -/
def isKept (keep : ToolName → Bool) : Token → Bool
  | tool name => keep name
  | _ => true

/-- The characters of a text that belong to names, in order. -/
def letters (s : Text) : Text := s.filter isNameChar

@[simp] theorem letters_append (s t : Text) : letters (s ++ t) = letters s ++ letters t :=
  List.filter_append ..

theorem letters_eq_self {s : Text} (h : ∀ c ∈ s, isNameChar c = true) : letters s = s :=
  List.filter_eq_self.mpr h

theorem ofSeparator?_ne_tool (c : Char) (name : Text) : ofSeparator? c ≠ some (tool name) := by
  unfold ofSeparator?
  split <;> simp

theorem isNameChar_of_isLower {c : Char} (h : c.isLower = true) : isNameChar c = true := by
  have hval : 97 ≤ c.toNat ∧ c.toNat ≤ 122 := Text.toNat_of_isLower h
  have hblank : Text.isBlank c = false := by
    simp [Text.isBlank]
    omega
  have hsep : ofSeparator? c = none := by
    unfold ofSeparator?
    split <;> first | rfl | (exact absurd hval (by decide))
  simp [isNameChar, hsep, hblank]

theorem isNameChar_of_isBlank {c : Char} (h : Text.isBlank c = true) : isNameChar c = false := by
  simp [isNameChar, h]

theorem isBlank_of_isNameChar {c : Char} (h : isNameChar c = true) : Text.isBlank c = false := by
  rw [isNameChar, Bool.and_eq_true, Bool.not_eq_true'] at h
  exact h.2

theorem IsName.isBlank_eq_false {name : Text} (h : IsName name) :
    ∀ c ∈ name, Text.isBlank c = false :=
  fun c hc => isBlank_of_isNameChar (h.2 c hc)

theorem ofSeparator?_of_isBlank {c : Char} (h : Text.isBlank c = true) :
    ofSeparator? c = none := by
  unfold ofSeparator?
  split <;> first | rfl | exact absurd h (by decide)

/-- Outside a name there is a separator, which is kept, or a blank, which is not. -/
theorem tokenize_cons_other {c : Char} (h : isNameChar c = false) (r : Text) :
    tokenize (c :: r) = (ofSeparator? c).toList ++ tokenize r := by
  cases hs : ofSeparator? c with
  | some t => rw [tokenize_cons_separator hs]; rfl
  | none =>
      have hblank : Text.isBlank c = true := by simpa [isNameChar, hs] using h
      rw [tokenize_cons_blank hs hblank]
      rfl

@[simp] theorem tools_append (ts us : List Token) : tools (ts ++ us) = tools ts ++ tools us := by
  induction ts with
  | nil => rfl
  | cons t ts ih => cases t <;> simp [tools, ih]

theorem mem_tools {ts : List Token} {name : ToolName} : name ∈ tools ts ↔ tool name ∈ ts := by
  induction ts with
  | nil => simp [tools]
  | cons t ts ih => cases t <;> simp [tools, ih]

/-- Every tool of some tokens has tokens before it and behind it. -/
theorem exists_eq_append_tool {ts : List Token} {i : Nat} (h : i < (tools ts).length) :
    ∃ before name after, ts = before ++ tool name :: after ∧ (tools before).length = i := by
  induction ts generalizing i with
  | nil => exact absurd h (Nat.not_lt_zero i)
  | cons t ts ih =>
      cases t with
      | tool name =>
          cases i with
          | zero => exact ⟨[], name, ts, rfl, rfl⟩
          | succ i =>
              obtain ⟨before, n, after, rfl, rfl⟩ := ih (Nat.lt_of_succ_lt_succ h)
              exact ⟨tool name :: before, n, after, rfl, rfl⟩
      | _ =>
          obtain ⟨before, n, after, rfl, hi⟩ := ih h
          exact ⟨_ :: before, n, after, rfl, hi⟩

@[simp] theorem tools_ofSeparator? (c : Char) : tools (ofSeparator? c).toList = [] := by
  cases h : ofSeparator? c with
  | none => rfl
  | some t =>
      cases t with
      | tool name => exact absurd h (ofSeparator?_ne_tool c name)
      | _ => rfl

/-- Every tool read from a text is a name, and a part of the text. -/
theorem isName_and_isInfix_of_mem_tokenize {s : Text} {name : ToolName}
    (h : name ∈ tools (tokenize s)) : IsName name ∧ name <:+: s := by
  induction s using Text.runInduction (p := isNameChar) with
  | nil => simp [tools] at h
  | other c r hc ih =>
      rw [tokenize_cons_other hc] at h
      simp only [tools_append, tools_ofSeparator?, List.nil_append] at h
      exact ⟨(ih h).1, List.infix_cons (ih h).2⟩
  | run u r hne hu hr ih =>
      rw [tokenize_name_append hne hu hr, tools, List.mem_cons] at h
      rcases h with rfl | h
      · exact ⟨⟨hne, hu⟩, (List.prefix_append name r).isInfix⟩
      · exact ⟨(ih h).1, (ih h).2.trans (List.suffix_append u r).isInfix⟩

theorem isName_of_mem_tokenize {s : Text} {name : ToolName} (h : name ∈ tools (tokenize s)) :
    IsName name :=
  (isName_and_isInfix_of_mem_tokenize h).1

/-- Every tool of a text stands between characters that belong to no name. -/
theorem exists_eq_append_of_mem_tokenize {s : Text} {name : ToolName}
    (h : name ∈ tools (tokenize s)) :
    ∃ u r, s = u ++ (name ++ r) ∧ u.getLast?.any isNameChar = false ∧
      r.head?.any isNameChar = false := by
  induction s using Text.runInduction (p := isNameChar) with
  | nil => simp [tools] at h
  | other c r hc ih =>
      rw [tokenize_cons_other hc, tools_append, tools_ofSeparator?, List.nil_append] at h
      obtain ⟨u, v, rfl, hu, hv⟩ := ih h
      refine ⟨c :: u, v, rfl, ?_, hv⟩
      rw [List.getLast?_cons]
      cases hlast : u.getLast? with
      | none => exact hc
      | some d => simpa [hlast] using hu
  | run w r hne hw hr ih =>
      rw [tokenize_name_append hne hw hr, tools, List.mem_cons] at h
      rcases h with rfl | h
      · exact ⟨[], r, rfl, rfl, hr⟩
      · obtain ⟨u, v, rfl, hu, hv⟩ := ih h
        refine ⟨w ++ u, v, by simp, ?_, hv⟩
        -- the run ends before the tool, so there is something in between
        have hune : u ≠ [] := by
          rintro rfl
          obtain ⟨hname, hletters⟩ := isName_of_mem_tokenize h
          obtain ⟨c, n, rfl⟩ := List.exists_cons_of_ne_nil hname
          rw [List.nil_append, List.cons_append, List.head?_cons, Option.any_some,
            hletters c (by simp)] at hr
          cases hr
        rwa [List.getLast?_append, List.getLast?_eq_some_getLast hune, Option.some_or,
          ← List.getLast?_eq_some_getLast hune]

/-- The tools of a text, written one after another, are its name characters. -/
theorem flatten_tools_tokenize (s : Text) : (tools (tokenize s)).flatten = letters s := by
  induction s using Text.runInduction (p := isNameChar) with
  | nil => rfl
  | other c r hc ih =>
      rw [tokenize_cons_other hc, tools_append, tools_ofSeparator?, List.nil_append, ih]
      simp [letters, hc]
  | run u r hne hu hr ih =>
      rw [tokenize_name_append hne hu hr, tools, List.flatten_cons, ih, letters_append,
        letters_eq_self hu]

/-- A name that occurs in a text occurs in one of its tools. -/
theorem exists_mem_tokenize_of_isInfix {w s : Text} (hw : IsName w) (h : w <:+: s) :
    ∃ name ∈ tools (tokenize s), w <:+: name := by
  induction s using Text.runInduction (p := isNameChar) with
  | nil => exact absurd (List.eq_nil_of_infix_nil h) hw.1
  | other c r hc ih =>
      obtain ⟨name, hmem, hname⟩ := ih (Text.isInfix_of_isInfix_cons hw.1 hw.2 hc h)
      refine ⟨name, ?_, hname⟩
      rw [tokenize_cons_other hc, tools_append, tools_ofSeparator?, List.nil_append]
      exact hmem
  | run u r hne hu hr ih =>
      rw [tokenize_name_append hne hu hr, tools]
      rcases Text.isInfix_or_isInfix_of_append hw.2 hr h with hin | hin
      · exact ⟨u, by simp, hin⟩
      · obtain ⟨name, hmem, hname⟩ := ih hin
        exact ⟨name, List.mem_cons_of_mem _ hmem, hname⟩

end Token

end EditorToolbar
