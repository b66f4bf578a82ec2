import EditorToolbar.Proofs.Modifier

/-!
# Stripping tool by tool

The stripper knows nothing of tokens. It goes over the whole text, again and again, as often as the
tool with the deepest nest of modifiers needs it. Stripping each tool by itself comes to the same: a
modifier is spelled like a name, so it lies within one tool, and what stands between two tools keeps
apart what is deleted from them. A tool that is nothing but modifiers is gone, and the separators
around it stay.
-/

namespace EditorToolbar

namespace Modifier

/-- A text that begins with no name is stripped apart from what stands before it. -/
theorem strip_append {r : Text} (hr : r.head?.any Token.isNameChar = false) (u : Text) :
    strip (u ++ r) = strip u ++ strip r := by
  cases r with
  | nil => rw [strip_nil, List.append_nil, List.append_nil]
  | cons c r => rw [strip_append_cons hr, strip_cons hr]

theorem head?_strip_eq {r : Text} (hr : r.head?.any Token.isNameChar = false) :
    (strip r).head? = r.head? := by
  cases r with
  | nil => rfl
  | cons c r => rw [strip_cons hr, List.head?_cons, List.head?_cons]

end Modifier

namespace Token

open Modifier (strip)

/-- What stripping leaves of a token: a separator stays, a tool loses its modifiers and, if nothing
else was in its name, is gone. -/
def strip? : Token → Option Token
  | tool name => if strip name = [] then none else some (tool (strip name))
  | separator => some separator

theorem filterMap_strip?_ofSeparator? (c : Char) :
    (ofSeparator? c).toList.filterMap strip? = (ofSeparator? c).toList := by
  cases h : ofSeparator? c with
  | none => rfl
  | some t =>
      cases t with
      | tool name => exact absurd h (ofSeparator?_ne_tool c name)
      | _ => rfl

/-- Stripping a text strips its tools, each by itself: the tokens of the stripped text are those of
the text, with every tool stripped and left out if nothing remains of its name. -/
theorem tokenize_strip (s : Text) : tokenize (strip s) = (tokenize s).filterMap strip? := by
  induction s using Text.runInduction (p := isNameChar) with
  | nil => rfl
  | other c r hc ih =>
      rw [Modifier.strip_cons hc, tokenize_cons_other hc, tokenize_cons_other hc,
        List.filterMap_append, filterMap_strip?_ofSeparator?, ih]
  | run u r hne hu hr ih =>
      have hletters : ∀ c ∈ strip u, isNameChar c = true :=
        fun c hc => hu c ((Modifier.strip_sublist u).subset hc)
      have hrest : (strip r).head?.any isNameChar = false := by
        rwa [Modifier.head?_strip_eq hr]
      rw [Modifier.strip_append hr, tokenize_name_append hne hu hr, List.filterMap_cons, strip?]
      by_cases hgone : strip u = []
      · rw [if_pos hgone, hgone, List.nil_append, ih]
      · rw [if_neg hgone, tokenize_name_append hgone hletters hrest, ih]

/-- The tool between the slash and the pipe vanishes, the modifiers of the last one are nested. -/
example : tokenize (strip "bold:toggle/:drop:toggledown|x:tog:togglegle".toList) =
    [.tool "bold".toList, .divider .slash, .pipe, .tool "x".toList] := by
  decide

end Token

end EditorToolbar
