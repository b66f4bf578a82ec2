import EditorToolbar.Repair.Fragments

/-!
# Runs of fragments

`Short minRun k tools` says that no run of fragments in the list reaches `minRun`, where `k`
fragments precede the list. Such a list is left as it is by joining. One pass makes every list
short: a run that is long enough becomes a name of two or more letters, which is no fragment. So a
single pass is all that `rejoin` ever needs.
-/

namespace EditorToolbar.Fragments

/-- No run of fragments is long enough to be joined, `k` fragments standing before the list. -/
def Short (minRun : Nat) : Nat → List ToolName → Prop
  | k, [] => k < minRun
  | k, tool :: rest =>
    if isFragment tool then Short minRun (k + 1) rest else k < minRun ∧ Short minRun 0 rest

section

variable {minRun : Nat}

theorem isFragment_iff (tool : ToolName) :
    isFragment tool = true ↔ ∃ c : Char, tool = [c] ∧ c.isLower = true := by
  match tool with
  | [] => simp
  | [c] => simp
  | c :: d :: r => simp

theorem isFragment_of_two_le {tool : ToolName} (h : 2 ≤ tool.length) : isFragment tool = false := by
  cases hf : isFragment tool with
  | false => rfl
  | true =>
      obtain ⟨c, rfl, -⟩ := (isFragment_iff tool).mp hf
      simp at h

theorem length_flatten_of_isFragment {run : List ToolName} (h : ∀ f ∈ run, isFragment f = true) :
    run.flatten.length = run.length := by
  induction run with
  | nil => rfl
  | cons f run ih =>
      obtain ⟨c, rfl, -⟩ := (isFragment_iff f).mp (h f (by simp))
      have htail := ih fun g hg => h g (List.mem_cons_of_mem _ hg)
      simp [htail]

theorem isLower_of_mem_flatten {run : List ToolName} (h : ∀ f ∈ run, isFragment f = true)
    {c : Char} (hc : c ∈ run.flatten) : c.isLower = true := by
  obtain ⟨f, hf, hcf⟩ := List.mem_flatten.mp hc
  obtain ⟨d, rfl, hd⟩ := (isFragment_iff f).mp (h f hf)
  cases List.mem_singleton.mp hcf
  exact hd

/-- Fragments add to a run; anything else ends it. -/
theorem short_append_of_isFragment {run tools : List ToolName} {k : Nat}
    (h : ∀ f ∈ run, isFragment f = true) :
    Short minRun k (run ++ tools) ↔ Short minRun (k + run.length) tools := by
  induction run generalizing k with
  | nil => rfl
  | cons f run ih =>
      rw [List.cons_append, Short, if_pos (h f (by simp)),
        ih fun g hg => h g (List.mem_cons_of_mem _ hg), List.length_cons]
      rw [Nat.add_assoc, Nat.add_comm 1]

theorem forall_isFragment_concat {run : List ToolName} (hrun : ∀ f ∈ run, isFragment f = true)
    {tool : ToolName} (htool : isFragment tool = true) :
    ∀ f ∈ run ++ [tool], isFragment f = true := by
  intro f hf
  rcases List.mem_append.mp hf with hf | hf
  · exact hrun f hf
  · cases List.mem_singleton.mp hf
    exact htool

theorem short_append_of_not_isFragment {names tools : List ToolName} {k : Nat} (hne : names ≠ [])
    (hminRun : 0 < minRun) (h : ∀ n ∈ names, isFragment n = false) :
    Short minRun k (names ++ tools) ↔ k < minRun ∧ Short minRun 0 tools := by
  induction names generalizing k with
  | nil => exact absurd rfl hne
  | cons n names ih =>
      have hn : ¬ isFragment n = true := by simp [h n (by simp)]
      rw [List.cons_append, Short, if_neg hn]
      cases names with
      | nil => rfl
      | cons m names =>
          rw [ih (by simp) fun x hx => h x (List.mem_cons_of_mem _ hx)]
          simp [hminRun]

theorem Short.lt {k : Nat} {tools : List ToolName} (h : Short minRun k tools) : k < minRun := by
  induction tools generalizing k with
  | nil => exact h
  | cons tool tools ih =>
      rw [Short] at h
      split at h
      · exact Nat.lt_of_succ_lt (ih h)
      · exact h.1

theorem Short.exists_of_append {l tools : List ToolName} {k : Nat}
    (h : Short minRun k (l ++ tools)) : ∃ j, Short minRun j tools := by
  induction l generalizing k with
  | nil => exact ⟨k, h⟩
  | cons tool l ih =>
      rw [List.cons_append, Short] at h
      split at h
      · exact ih h
      · exact ih h.2

/-- In a short list no fragments in a row are enough to be joined, wherever they stand. -/
theorem Short.length_lt {k : Nat} {tools run : List ToolName} (h : Short minRun k tools)
    (hrun : ∀ f ∈ run, isFragment f = true) (hin : run <:+: tools) : run.length < minRun := by
  obtain ⟨before, after, rfl⟩ := hin
  rw [List.append_assoc] at h
  obtain ⟨j, hj⟩ := h.exists_of_append
  have hlt := ((short_append_of_isFragment hrun).mp hj).lt
  exact Nat.lt_of_le_of_lt (Nat.le_add_left _ _) hlt

theorem rejoinFrom_eq_self {run tools : List ToolName} (h : Short minRun run.length tools) :
    rejoinFrom minRun run tools = run ++ tools := by
  induction tools generalizing run with
  | nil =>
      have hlt : ¬ minRun ≤ run.length := Nat.not_le.mpr h
      rw [rejoinFrom, flush, if_neg hlt, List.append_nil]
  | cons tool tools ih =>
      rw [Short] at h
      rw [rejoinFrom]
      split
      · next hf =>
          rw [if_pos hf] at h
          rw [ih (by simpa using h), List.append_assoc, List.singleton_append]
      · next hf =>
          rw [if_neg hf] at h
          have hlt : ¬ minRun ≤ run.length := Nat.not_le.mpr h.1
          have htail : rejoinFrom minRun [] tools = [] ++ tools := ih h.2
          rw [htail, flush, if_neg hlt, List.nil_append]

theorem rejoinOnce_eq_self {tools : List ToolName} (h : Short minRun 0 tools) :
    rejoinOnce minRun tools = tools :=
  rejoinFrom_eq_self h

/-- A run that has been flushed is not joined again with what follows. -/
theorem short_flush_append (hminRun : 2 ≤ minRun) {run tools : List ToolName}
    (hrun : ∀ f ∈ run, isFragment f = true) (htools : ∀ k < minRun, Short minRun k tools) :
    Short minRun 0 (flush minRun run ++ tools) := by
  unfold flush
  split
  · next hle =>
      have hlen := length_flatten_of_isFragment hrun
      rw [short_append_of_not_isFragment (by simp) (by omega)]
      · exact ⟨by omega, htools 0 (by omega)⟩
      · intro n hn
        cases List.mem_singleton.mp hn
        exact isFragment_of_two_le (by omega)
  · next hlt =>
      rw [short_append_of_isFragment hrun, Nat.zero_add]
      exact htools _ (Nat.not_le.mp hlt)

theorem short_rejoinFrom (hminRun : 2 ≤ minRun) {run tools : List ToolName}
    (hrun : ∀ f ∈ run, isFragment f = true) : Short minRun 0 (rejoinFrom minRun run tools) := by
  induction tools generalizing run with
  | nil =>
      rw [rejoinFrom, ← List.append_nil (flush minRun run)]
      exact short_flush_append hminRun hrun fun k hk => hk
  | cons tool tools ih =>
      rw [rejoinFrom]
      split
      · next hf => exact ih (forall_isFragment_concat hrun hf)
      · next hf =>
          apply short_flush_append hminRun hrun
          intro k hk
          rw [Short, if_neg hf]
          exact ⟨hk, ih (by simp)⟩

/-- One pass is enough. -/
theorem rejoin_eq_rejoinOnce (hminRun : 2 ≤ minRun) (tools : List ToolName) :
    rejoin minRun tools = rejoinOnce minRun tools := by
  have hfixed : rejoinOnce minRun (rejoinOnce minRun tools) = rejoinOnce minRun tools :=
    rejoinOnce_eq_self (short_rejoinFrom hminRun (by simp))
  rw [rejoin, if_neg (by omega), settle_succ_eq_settle_step, settle_of_fixed hfixed]

/-- Without fragments there is nothing to join. -/
theorem rejoin_eq_self {tools : List ToolName} (h : ∀ tool ∈ tools, isFragment tool = false) :
    rejoin minRun tools = tools := by
  by_cases hminRun : minRun < 2
  · rw [rejoin, if_pos hminRun]
  · rw [rejoin_eq_rejoinOnce (by omega)]
    apply rejoinOnce_eq_self
    induction tools with
    | nil => exact Nat.lt_of_lt_of_le Nat.two_pos (Nat.not_lt.mp hminRun)
    | cons tool tools ih =>
        have htail := ih fun x hx => h x (List.mem_cons_of_mem _ hx)
        rw [Short, if_neg (by simp [h tool (by simp)])]
        exact ⟨by omega, htail⟩

theorem flatten_rejoin (minRun : Nat) (tools : List ToolName) :
    (rejoin minRun tools).flatten = tools.flatten := by
  by_cases hminRun : minRun < 2
  · rw [rejoin, if_pos hminRun]
  · rw [rejoin_eq_rejoinOnce (by omega), rejoinOnce, flatten_rejoinFrom]
    rfl

theorem rejoinFrom_ne_nil {run tools : List ToolName} (h : run ++ tools ≠ []) :
    rejoinFrom minRun run tools ≠ [] := by
  induction tools generalizing run with
  | nil =>
      rw [rejoinFrom, flush]
      split
      · simp
      · simpa using h
  | cons tool tools ih =>
      rw [rejoinFrom]
      split
      · exact ih (by simp)
      · simp

theorem rejoin_ne_nil {tools : List ToolName} (h : tools ≠ []) : rejoin minRun tools ≠ [] := by
  by_cases hminRun : minRun < 2
  · rwa [rejoin, if_pos hminRun]
  · rw [rejoin_eq_rejoinOnce (by omega)]
    exact rejoinFrom_ne_nil (by simpa using h)

/-- What joining leaves has been there before, or is spelled in small letters. -/
theorem mem_rejoinFrom (hminRun : 0 < minRun) {run tools : List ToolName}
    (hrun : ∀ f ∈ run, isFragment f = true) {name : ToolName}
    (h : name ∈ rejoinFrom minRun run tools) :
    name ∈ tools ∨ name ≠ [] ∧ ∀ c ∈ name, c.isLower = true := by
  have hflush : ∀ {run : List ToolName}, (∀ f ∈ run, isFragment f = true) →
      name ∈ flush minRun run → name ≠ [] ∧ ∀ c ∈ name, c.isLower = true := by
    intro run hrun hmem
    have hlen := length_flatten_of_isFragment hrun
    unfold flush at hmem
    split at hmem
    · cases List.mem_singleton.mp hmem
      exact ⟨List.ne_nil_of_length_pos (by omega), fun c => isLower_of_mem_flatten hrun⟩
    · obtain ⟨c, rfl, hc⟩ := (isFragment_iff name).mp (hrun name hmem)
      simp [hc]
  induction tools generalizing run with
  | nil => exact .inr (hflush hrun h)
  | cons tool tools ih =>
      rw [rejoinFrom] at h
      split at h
      · next hf =>
          rcases ih (forall_isFragment_concat hrun hf) h with hmem | hlower
          · exact .inl (List.mem_cons_of_mem _ hmem)
          · exact .inr hlower
      · rcases List.mem_append.mp h with hmem | hmem
        · exact .inr (hflush hrun hmem)
        · rcases List.mem_cons.mp hmem with rfl | hmem
          · exact .inl (by simp)
          · rcases ih (by simp) hmem with hmem | hlower
            · exact .inl (List.mem_cons_of_mem _ hmem)
            · exact .inr hlower

theorem mem_rejoin {tools : List ToolName} {name : ToolName} (h : name ∈ rejoin minRun tools) :
    name ∈ tools ∨ name ≠ [] ∧ ∀ c ∈ name, c.isLower = true := by
  by_cases hminRun : minRun < 2
  · rw [rejoin, if_pos hminRun] at h
    exact .inl h
  · rw [rejoin_eq_rejoinOnce (by omega)] at h
    exact mem_rejoinFrom (by omega) (by simp) h

end

end EditorToolbar.Fragments
