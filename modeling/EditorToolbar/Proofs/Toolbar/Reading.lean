import EditorToolbar.Proofs.Token
import EditorToolbar.Proofs.Toolbar.Removal
import EditorToolbar.Toolbar.Reading

/-!
# What a text says about the layout

`Token.marks` reads gaps and tools off a list of tokens with nothing to remember but whether a brace
is open: a pipe is a pipe, a brace is a seam, a divider begins a section, and a comma is nothing.
The reader builds groups and sections, and empty ones to keep a pipe in; still the toolbar it builds
has the layout of these marks (`layout_ofTokens`). So removing tools before reading and after
reading is the same once the toolbar is compacted (`compact_ofTokens_filter`).
-/

namespace EditorToolbar

/-- The gaps and tools that tokens describe; the first argument says whether a brace is open. -/
def Token.marks : Bool → List Token → List Mark
  | _, [] => []
  | inBraces, tool name :: rest => .tool inBraces name :: marks inBraces rest
  | inBraces, comma :: rest => marks inBraces rest
  | inBraces, pipe :: rest => .gap .pipe :: marks inBraces rest
  | _, openBrace :: rest => .gap .seam :: marks true rest
  | _, closeBrace :: rest => .gap .seam :: marks false rest
  | _, divider d :: rest => .gap (.divided (some d)) :: marks false rest

theorem Token.tools_marks (inBraces : Bool) (tokens : List Token) :
    Mark.tools (marks inBraces tokens) = tools tokens := by
  induction tokens generalizing inBraces with
  | nil => rfl
  | cons t tokens ih => cases t <;> simp [marks, tools, Mark.tools, ih]

namespace Cursor

/-- The group being read is braced if a brace is open, and then nothing is pending. -/
def Sound (k : Cursor) : Prop :=
  ∀ g ∈ k.current, g.braced = k.inBraces ∧ k.pending = .adjacent

/-- What the cursor has read and not yet passed on. -/
def marks (k : Cursor) : List Mark :=
  match k.current with
  | some g => g.marks
  | none => [.gap k.pending.gap]

/-- The marks of what is read from a cursor on. -/
def readMarks (k : Cursor) (tokens : List Token) : List Mark :=
  (k.read tokens).1.flatMap Group.marks ++ (k.read tokens).2.flatMap Section.marks

theorem sound_of_current_eq_none {k : Cursor} (h : k.current = none) : k.Sound := by
  intro g hg
  rw [h] at hg
  cases hg

theorem Sound.push {k : Cursor} (h : k.Sound) (name : ToolName) : (k.push name).Sound := by
  intro g hg
  unfold Cursor.push at hg ⊢
  cases hc : k.current with
  | none =>
      rw [hc] at hg
      cases hg
      exact ⟨rfl, rfl⟩
  | some x =>
      rw [hc] at hg
      cases hg
      exact h x hc

theorem marks_push {k : Cursor} (h : k.Sound) (name : ToolName) :
    (k.push name).marks = k.marks ++ [.tool k.inBraces name] := by
  unfold Cursor.push marks
  cases hc : k.current with
  | none => rfl
  | some g => simp [Group.marks, (h g hc).1]

@[simp] theorem inBraces_push (k : Cursor) (name : ToolName) :
    (k.push name).inBraces = k.inBraces := by
  unfold Cursor.push
  cases k.current <;> rfl

@[simp] theorem current_afterGroup (k : Cursor) : k.afterGroup.current = none := by
  unfold afterGroup
  cases k.current <;> rfl

@[simp] theorem inBraces_afterGroup (k : Cursor) : k.afterGroup.inBraces = k.inBraces := by
  unfold afterGroup
  cases k.current <;> rfl

theorem pending_afterGroup {k : Cursor} (h : k.Sound) : k.afterGroup.pending = .adjacent := by
  unfold afterGroup
  cases hc : k.current with
  | none => rfl
  | some g => exact (h g hc).2

/-- A group that has ended may be left out if it holds nothing and something at least as strong as
a seam follows. -/
theorem place_finished (k : Cursor) {g : Gap} (hg : g ≠ .within) (p : Gap) (rest : List Mark) :
    Mark.place p (k.finished.flatMap Group.marks ++ .gap g :: rest) =
      Mark.place p (k.marks ++ .gap g :: rest) := by
  unfold finished marks
  cases k.current with
  | some x => simp
  | none =>
      cases k.pending with
      | pipe => simp [Group.marks]
      | adjacent =>
          have hseam : Gap.combine .seam g = g := by cases g <;> first | rfl | exact absurd rfl hg
          simp [Joint.gap, Gap.combine_assoc, hseam]

theorem place_finished_nil (k : Cursor) (p : Gap) :
    Mark.place p (k.finished.flatMap Group.marks) = Mark.place p k.marks := by
  unfold finished marks
  cases k.current with
  | some x => simp
  | none => cases k.pending <;> rfl

/-- What is read from a cursor on has the layout that the tokens describe. -/
theorem place_readMarks {k : Cursor} (hk : k.Sound) (tokens : List Token) (p : Gap) :
    Mark.place p (k.readMarks tokens) =
      Mark.place p (k.marks ++ Token.marks k.inBraces tokens) := by
  induction tokens generalizing k p with
  | nil => simpa [readMarks, read, Token.marks] using place_finished_nil k p
  | cons t tokens ih =>
      -- a brace or a pipe ends the current group; a new one begins with what it stands for
      have hbreak : ∀ (k' : Cursor) (g : Gap), k'.current = none → k'.pending.gap = g →
          Mark.place p (k.finished.flatMap Group.marks ++ k'.readMarks tokens) =
            Mark.place p (k.marks ++ .gap g :: Token.marks k'.inBraces tokens) := by
        intro k' g hcurrent hgap
        have hmarks : k'.marks = [.gap g] := by simp [marks, hcurrent, hgap]
        have hne : g ≠ .within := hgap ▸ k'.pending.gap_ne_within
        rw [Mark.place_append_congr fun q => ih (sound_of_current_eq_none hcurrent) q, hmarks,
          List.singleton_append, place_finished k hne]
      cases t with
      | tool name =>
          have htool := ih (hk.push name) p
          rw [marks_push hk, inBraces_push, List.append_assoc, List.singleton_append] at htool
          exact htool
      | comma => exact ih hk p
      | pipe =>
          have hpipe := hbreak { k.afterGroup with pending := .pipe } .pipe (by simp) rfl
          simpa [readMarks, read, Token.marks] using hpipe
      | openBrace =>
          have hopen := hbreak { k.afterGroup with inBraces := true } .seam (by simp)
            (by simp [pending_afterGroup hk, Joint.gap])
          simpa [readMarks, read, Token.marks] using hopen
      | closeBrace =>
          have hclose := hbreak { k.afterGroup with inBraces := false } .seam (by simp)
            (by simp [pending_afterGroup hk, Joint.gap])
          simpa [readMarks, read, Token.marks] using hclose
      | divider d =>
          have hsection : ∀ q, Mark.place q (.gap (.divided (some d)) :: readMarks {} tokens) =
              Mark.place q (.gap (.divided (some d)) :: Token.marks false tokens) := by
            intro q
            rw [Mark.place_gap, ih (sound_of_current_eq_none rfl), Mark.place_gap]
            simp [marks, Gap.combine_divided]
          have hfinished := place_finished k (g := .divided (some d)) (by simp) p
            (Token.marks false tokens)
          rw [Token.marks, ← hfinished, ← Mark.place_append_congr hsection]
          simp [readMarks, read, Section.marks]

end Cursor

namespace Toolbar

theorem layout_ofTokens (tokens : List Token) :
    (ofTokens tokens).layout = Mark.place .start (Token.marks false tokens) := by
  have hread := Cursor.place_readMarks (Cursor.sound_of_current_eq_none (k := {}) rfl) tokens .start
  simp only [Cursor.marks, List.singleton_append, Mark.place_gap, Gap.start_combine] at hread
  rw [← hread]
  simp [layout, marks, ofTokens, Section.marks, Cursor.readMarks]

@[simp] theorem tools_ofTokens (tokens : List Token) :
    (ofTokens tokens).tools = Token.tools tokens := by
  rw [← map_name_layout, layout_ofTokens, Mark.map_name_place, Token.tools_marks]

theorem tools_ofText (text : Text) : (ofText text).tools = Token.tools (Token.tokenize text) :=
  tools_ofTokens _

end Toolbar

end EditorToolbar
