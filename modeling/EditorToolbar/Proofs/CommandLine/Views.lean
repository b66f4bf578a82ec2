import EditorToolbar.CommandLine.Program
import EditorToolbar.Proofs.Normalization.Canonical
import EditorToolbar.Proofs.Toolbar.Json

/-!
# Two views of a normal form

Normalizing prints its result as a text or as JSON. The JSON is that of the toolbar which the text is
read as, so it has the parts that reading leaves empty. Whoever reads the JSON back has this toolbar,
and since a normal form is canonical, writing the toolbar gives the text that is printed otherwise.
-/

namespace EditorToolbar.CommandLine

open Toolbar (ofJsonText?)

/-- The text that is normalized: the one that is given, or the standard input if that is asked for.
-/
def World.source? (w : World) (toolbar : Text) : Option Text :=
  if toolbar = ['-'] then w.input else some toolbar

theorem World.source?_eq_none_iff {w : World} {toolbar : Text} :
    w.source? toolbar = none ↔ toolbar = ['-'] ∧ w.input = none := by
  unfold source?
  split
  · next h => simp [h]
  · next h => simp [h]

/-- Normalizing fails only if there is no text to normalize. -/
theorem Command.run_normalize (settings : Settings) (w : World) (toolbar : Text)
    (excluded : List Text) (asJson : Bool) :
    run settings w (.normalize toolbar excluded asJson) =
      match w.source? toolbar with
      | some source =>
        let output := (Normalizer.ofSettings settings.normalize).normalize
          (ExclusionSet.ofNames excluded) source
        .ok (line (if asJson then (Toolbar.ofText output).toJsonText else output))
      | none => .error .input := by
  rw [run, World.source?]
  split
  · cases w.input <;> rfl
  · rfl

theorem ofJsonText?_line (t : Toolbar) : ofJsonText? (line t.toJsonText) = some t := by
  apply t.ofJsonText?_toJsonText_append
  intro c hc
  rw [List.mem_singleton.mp hc]
  rfl

/-- A toolbar is recovered from its JSON text as it was. So if a normal form is read, put into JSON,
recovered and written again, it is still the same; and what the command line prints as JSON is the
toolbar that it prints as a text. -/
theorem json_view_agrees :
    (∀ t : Toolbar, ofJsonText? t.toJsonText = some t) ∧
      (∀ (n : Normalizer) (e : ExclusionSet) (text : Text),
        (ofJsonText? (Toolbar.ofText (n.normalize e text)).toJsonText).map Toolbar.toText =
          some (n.normalize e text)) ∧
      ∀ (settings : Settings) (w : World) (toolbar : Text) (excluded : List Text),
        let run asJson := Command.run settings w (.normalize toolbar excluded asJson)
        (∃ json t, run true = .ok json ∧ ofJsonText? json = some t ∧
            run false = .ok (line t.toText)) ∨
          toolbar = ['-'] ∧ w.input = none ∧ ∀ asJson, run asJson = .error .input := by
  refine ⟨Toolbar.ofJsonText?_toJsonText, fun n e text => ?_, fun settings w toolbar excluded => ?_⟩
  · rw [Toolbar.ofJsonText?_toJsonText, Option.map_some, Normalizer.toText_ofText_normalize]
  · intro run
    have hrun : ∀ asJson, run asJson = _ := Command.run_normalize settings w toolbar excluded
    cases hsource : w.source? toolbar with
    | none =>
        obtain ⟨htoolbar, hinput⟩ := World.source?_eq_none_iff.mp hsource
        refine .inr ⟨htoolbar, hinput, fun asJson => ?_⟩
        rw [hrun, hsource]
    | some source =>
        simp only [hsource] at hrun
        refine .inl ⟨_, _, hrun true, ofJsonText?_line _, ?_⟩
        rw [hrun false, Normalizer.toText_ofText_normalize]
        rfl

end EditorToolbar.CommandLine
