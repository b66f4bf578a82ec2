import EditorToolbar.Text.Basic

/-!
# Trimmed texts

Trimming takes blanks away at both ends and nothing else. So it does not matter how many blanks have
been added there, and a text that has no blank at either end is left as it is.
-/

namespace EditorToolbar.Text

def IsBlank (s : Text) : Prop := ∀ c ∈ s, isBlank c = true

instance : DecidablePred IsBlank := fun s =>
  decidable_of_iff (s.all isBlank = true) List.all_eq_true

theorem exists_trimStart (s : Text) : ∃ u, IsBlank u ∧ s = u ++ trimStart s :=
  ⟨s.takeWhile isBlank, fun _ hc => List.all_eq_true.mp List.all_takeWhile _ hc,
    List.takeWhile_append_dropWhile.symm⟩

theorem exists_trimEnd (s : Text) : ∃ v, IsBlank v ∧ s = trimEnd s ++ v := by
  induction s with
  | nil => exact ⟨[], by simp [IsBlank], rfl⟩
  | cons c r ih =>
      obtain ⟨v, hv, hr⟩ := ih
      by_cases h : trimEnd r = []
      · rw [trimEnd_cons_of_eq_nil h]
        rw [h, List.nil_append] at hr
        split
        · next hc => exact ⟨c :: r, List.forall_mem_cons.mpr ⟨hc, hr ▸ hv⟩, rfl⟩
        · exact ⟨r, hr ▸ hv, rfl⟩
      · exact ⟨v, hv, by rw [trimEnd_cons_of_ne_nil h, List.cons_append, ← hr]⟩

/-- Trimming leaves a part of the text, and blanks on either side of it. -/
theorem exists_trim (s : Text) : ∃ u v, IsBlank u ∧ IsBlank v ∧ s = u ++ (trim s ++ v) := by
  obtain ⟨u, hu, hs⟩ := exists_trimStart s
  obtain ⟨v, hv, hstart⟩ := exists_trimEnd (trimStart s)
  exact ⟨u, v, hu, hv, hs.trans (congrArg (u ++ ·) hstart)⟩

theorem trimStart_append_of_isBlank {u : Text} (hu : IsBlank u) (s : Text) :
    trimStart (u ++ s) = trimStart s :=
  List.dropWhile_append_of_pos hu

theorem trimStart_eq_nil {s : Text} (hs : IsBlank s) : trimStart s = [] := by
  have happend := trimStart_append_of_isBlank hs []
  rwa [List.append_nil] at happend

theorem trimEnd_append_of_isBlank {v : Text} (hv : IsBlank v) (s : Text) :
    trimEnd (s ++ v) = trimEnd s := by
  induction s with
  | nil => exact (trimEnd_eq_nil_iff v).mpr hv
  | cons c r ih => rw [List.cons_append, trimEnd, trimEnd, ih]

/-- Trimming at the end does not go beyond what is left of the last part. -/
theorem trimEnd_append_of_ne_nil {s : Text} (hs : trimEnd s ≠ []) (u : Text) :
    trimEnd (u ++ s) = u ++ trimEnd s := by
  induction u with
  | nil => rfl
  | cons c u ih =>
      have hne : trimEnd (u ++ s) ≠ [] := by
        rw [ih]
        exact List.append_ne_nil_of_right_ne_nil _ hs
      rw [List.cons_append, trimEnd_cons_of_ne_nil hne, ih, List.cons_append]

theorem trimEnd_concat {c : Char} (hc : isBlank c = false) (u : Text) :
    trimEnd (u ++ [c]) = u ++ [c] := by
  have hlast : trimEnd [c] = [c] := by simp [trimEnd, hc]
  rw [trimEnd_append_of_ne_nil (by simp [hlast]), hlast]

/-- Blanks that are added at the ends are trimmed away. -/
theorem trim_append_of_isBlank {u v : Text} (hu : IsBlank u) (hv : IsBlank v) (s : Text) :
    trim (u ++ (s ++ v)) = trim s := by
  rw [trim, trim, trimStart_append_of_isBlank hu]
  by_cases hs : trimStart s = []
  · have hblank : IsBlank s := by
      obtain ⟨w, hw, heq⟩ := exists_trimStart s
      rw [hs, List.append_nil] at heq
      exact heq ▸ hw
    rw [trimStart_append_of_isBlank hblank, trimStart_eq_nil hv, hs]
  · have hdrop : trimStart (s ++ v) = trimStart s ++ v := by
      rw [trimStart, List.dropWhile_append, if_neg (by simpa [trimStart] using hs), ← trimStart]
    rw [hdrop, trimEnd_append_of_isBlank hv]

theorem head?_trimStart (s : Text) : (trimStart s).head?.any isBlank = false := by
  have hnot := List.head?_dropWhile_not isBlank s
  rw [← trimStart] at hnot
  cases h : (trimStart s).head? with
  | none => rfl
  | some c => simpa [h] using hnot

theorem getLast?_trimEnd (s : Text) : (trimEnd s).getLast?.any isBlank = false := by
  induction s with
  | nil => rfl
  | cons c r ih =>
      by_cases h : trimEnd r = []
      · rw [trimEnd_cons_of_eq_nil h]
        split
        · rfl
        · next hc => simpa using hc
      · rwa [trimEnd_cons_of_ne_nil h, List.getLast?_cons, List.getLast?_eq_some_getLast h,
          Option.getD_some, ← List.getLast?_eq_some_getLast h]

theorem trimStart_eq_self {s : Text} (h : s.head?.any isBlank = false) : trimStart s = s := by
  cases s with
  | nil => rfl
  | cons c r => exact List.dropWhile_cons_of_neg (by simpa using h)

theorem trimEnd_eq_self {s : Text} (h : s.getLast?.any isBlank = false) : trimEnd s = s := by
  obtain ⟨v, hv, hs⟩ := exists_trimEnd s
  by_cases hnil : v = []
  · rw [hnil, List.append_nil] at hs
    exact hs.symm
  · have hblank : isBlank (v.getLast hnil) = true := hv _ (List.getLast_mem hnil)
    rw [hs, List.getLast?_append, List.getLast?_eq_some_getLast hnil, Option.some_or,
      Option.any_some, hblank] at h
    cases h

theorem trimEnd_eq_self_iff (s : Text) : trimEnd s = s ↔ s.getLast?.any isBlank = false :=
  ⟨fun h => h ▸ getLast?_trimEnd s, trimEnd_eq_self⟩

/-- The texts that trimming leaves alone have no blank at either end. -/
theorem trim_eq_self_iff (s : Text) :
    trim s = s ↔ s.head?.any isBlank = false ∧ s.getLast?.any isBlank = false := by
  constructor
  · intro h
    have hlast := getLast?_trimEnd (trimStart s)
    rw [← trim, h] at hlast
    refine ⟨?_, hlast⟩
    cases s with
    | nil => rfl
    | cons c r =>
        -- trimming at the end cannot have put the first character there
        obtain ⟨v, -, hv⟩ := exists_trimEnd (trimStart (c :: r))
        rw [← trim, h] at hv
        have hfirst := head?_trimStart (c :: r)
        rwa [hv, List.cons_append] at hfirst
  · rintro ⟨hfirst, hlast⟩
    rw [trim, trimStart_eq_self hfirst, trimEnd_eq_self hlast]

theorem trim_trim (s : Text) : trim (trim s) = trim s := by
  obtain ⟨u, v, hu, hv, hs⟩ := exists_trim s
  have happend := trim_append_of_isBlank hu hv (trim s)
  rw [← hs] at happend
  exact happend.symm

end EditorToolbar.Text
