import EditorToolbar.Proofs.Text.Trim
import EditorToolbar.Yaml.Scalar

/-!
# Where a YAML text ends

A mapping ends in the value of its last entry and a line feed. Whoever trims the text at the end and
adds a line feed has the text again if no blank of the value has been lost, and none is lost if the
value ends in none: a plain string and a literal block end as the string does, and in the other two
styles a quote comes last.
-/

namespace EditorToolbar.Yaml

open Text (isBlank trimEnd)

theorem isBlank_of_isBreak {c : Char} (h : isBreak c = true) : isBlank c = true := by
  simp only [isBreak, Bool.or_eq_true, beq_iff_eq] at h
  rcases h with (((rfl | rfl) | h) | h) | h
  · rfl
  · rfl
  all_goals simp [isBlank, h]

theorem style_nil : style [] = .singleQuoted := by decide

/-! ### Scalars -/

/-- A block ends in the last character of the string that it holds. -/
theorem getLast?_indentBreaks (broken : Bool) (s : Text) :
    (indentBreaks (fun c => [c]) broken s).getLast? = s.getLast? := by
  induction s generalizing broken with
  | nil => rfl
  | cons c s ih =>
      rw [indentBreaks]
      split
      · rw [List.getLast?_cons, ih, List.getLast?_cons]
      · rw [List.append_assoc, List.getLast?_append, List.singleton_append, List.getLast?_cons, ih,
          Option.some_or, List.getLast?_cons]

theorem trimEnd_writeLiteral {s : Text} (hne : s ≠ []) (hs : trimEnd s = s) :
    trimEnd (writeLiteral s) = writeLiteral s := by
  rw [Text.trimEnd_eq_self_iff] at hs ⊢
  rw [writeLiteral, List.append_cons, List.getLast?_append, getLast?_indentBreaks,
    List.getLast?_eq_some_getLast hne, Option.some_or, ← List.getLast?_eq_some_getLast hne, hs]

theorem trimEnd_writeSingleQuoted (s : Text) :
    trimEnd (writeSingleQuoted s) = writeSingleQuoted s :=
  Text.trimEnd_concat rfl _

theorem trimEnd_writeDoubleQuoted (s : Text) :
    trimEnd (writeDoubleQuoted s) = writeDoubleQuoted s :=
  Text.trimEnd_concat rfl _

/-- A string that trimming leaves alone is written as one, whatever the style is. -/
theorem trimEnd_writeScalar {s : Text} (hs : trimEnd s = s) :
    trimEnd (writeScalar s) = writeScalar s := by
  rw [writeScalar]
  cases hstyle : style s with
  | plain => exact hs
  | singleQuoted => exact trimEnd_writeSingleQuoted s
  | literal =>
      refine trimEnd_writeLiteral ?_ hs
      rintro rfl
      cases style_nil.symm.trans hstyle
  | doubleQuoted => exact trimEnd_writeDoubleQuoted s

theorem writeScalar_ne_nil (s : Text) : writeScalar s ≠ [] := by
  rw [writeScalar]
  cases hstyle : style s with
  | plain =>
      rintro rfl
      cases style_nil.symm.trans hstyle
  | singleQuoted => exact List.cons_ne_nil _ _
  | literal => exact List.cons_ne_nil _ _
  | doubleQuoted => exact List.cons_ne_nil _ _

/-! ### Mappings -/

/-- After a value that does not end in a line break its entry has a line feed of its own. -/
theorem writeEntry_eq {value : Text} (h : trimEnd value = value) (key : Text) :
    writeEntry key value = key ++ [':', ' '] ++ writeScalar value ++ ['\n'] := by
  have hbreak : value.getLast?.any isBreak = false := by
    rw [Text.trimEnd_eq_self_iff] at h
    cases hlast : value.getLast? with
    | none => rfl
    | some c =>
        rw [hlast, Option.any_some] at h
        rw [Option.any_some, ← Bool.not_eq_true]
        intro hc
        rw [isBlank_of_isBreak hc] at h
        cases h
  rw [writeEntry, hbreak, Bool.and_false, if_neg Bool.false_ne_true]

/-- What is trimmed at the end of a mapping is one line feed, if the last value ends in no blank. -/
theorem trimEnd_writeMapping_concat {value : Text} (h : trimEnd value = value)
    (entries : List (Text × Text)) (key : Text) :
    trimEnd (writeMapping (entries ++ [(key, value)])) ++ ['\n'] =
      writeMapping (entries ++ [(key, value)]) := by
  have hscalar : trimEnd (writeScalar value) = writeScalar value := trimEnd_writeScalar h
  have hmapping : writeMapping (entries ++ [(key, value)]) =
      writeMapping entries ++ (key ++ [':', ' ']) ++ writeScalar value ++ ['\n'] := by
    rw [writeMapping, List.flatMap_append, List.flatMap_singleton, writeEntry_eq h, ← writeMapping]
    simp only [List.append_assoc]
  rw [hmapping, Text.trimEnd_append_of_isBlank (by decide),
    Text.trimEnd_append_of_ne_nil (hscalar.symm ▸ writeScalar_ne_nil value), hscalar]

/-- A block that ends in line breaks loses all but one, and a plain string a no-break space. -/
example :
    trimEnd (writeMapping [("a".toList, "b\n\n".toList)]) = "a: |+\n  b".toList ∧
      trimEnd (writeMapping [("a".toList, "b\u00a0".toList)]) = "a: b".toList := by
  decide

end EditorToolbar.Yaml
