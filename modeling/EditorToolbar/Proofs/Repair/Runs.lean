import Mathlib.Logic.Function.Iterate
import EditorToolbar.Proofs.Repair.Fragments
import EditorToolbar.Proofs.Text.Runs

/-!
# Joining runs of fragments

`runs` cuts a list of tools into its longest runs of fragments and, between them, the other tools
one by one (`cutsIntoRuns_runs`). The recursion of `rejoinOnce` carries the run that it is in and
flushes it where it ends, in the middle of the list or at its end. It comes to the same as flushing
each run of the list, so every run that is long enough becomes one name and everything else stays as
it is. A name that has been joined is no fragment; thus it keeps the runs on its two sides apart,
and there is nothing left for a second pass.
-/

namespace EditorToolbar.Fragments

/-- The longest runs of fragments in order, and between them each other tool by itself. -/
def runs (tools : List ToolName) : List (List ToolName) :=
  tools.splitBy fun a b => isFragment a && isFragment b

/-- Blocks into which a list is cut: each is a run of fragments or a tool that is no fragment, and
no run goes on in the next block. -/
structure CutsIntoRuns (tools : List ToolName) (blocks : List (List ToolName)) : Prop where
  flatten : blocks.flatten = tools
  block : ∀ block ∈ blocks, block ≠ [] ∧
    ((∀ tool ∈ block, isFragment tool = true) ∨ ∃ tool, block = [tool] ∧ isFragment tool = false)
  apart : blocks.IsChain fun a b =>
    ∀ x ∈ a.getLast?, ∀ y ∈ b.head?, ¬ (isFragment x = true ∧ isFragment y = true)

theorem forall_isFragment_of_isChain {a b : ToolName} {block : List ToolName}
    (h : (a :: b :: block).IsChain fun x y => (isFragment x && isFragment y) = true) :
    ∀ tool ∈ a :: b :: block, isFragment tool = true := by
  induction block generalizing a b with
  | nil => simpa using h
  | cons c block ih =>
      rw [List.isChain_cons_cons, Bool.and_eq_true] at h
      exact List.forall_mem_cons.mpr ⟨h.1.1, ih h.2⟩

theorem cutsIntoRuns_runs (tools : List ToolName) : CutsIntoRuns tools (runs tools) where
  flatten := List.flatten_splitBy _ tools
  block := by
    intro block hblock
    refine ⟨List.ne_nil_of_mem_splitBy hblock, ?_⟩
    have hchain := List.isChain_of_mem_splitBy hblock
    match block with
    | [] => exact .inl (by simp)
    | [tool] =>
        cases hf : isFragment tool with
        | true => exact .inl (by simpa using hf)
        | false => exact .inr ⟨tool, rfl, hf⟩
    | a :: b :: block => exact .inl (forall_isFragment_of_isChain hchain)
  apart := by
    refine (List.isChain_getLast_head_splitBy _ tools).imp ?_
    rintro a b ⟨ha, hb, hnot⟩ x hx y hy ⟨hfx, hfy⟩
    obtain rfl : a.getLast ha = x := by
      rwa [List.getLast?_eq_some_getLast ha, Option.mem_some_iff] at hx
    obtain rfl : b.head hb = y := by rwa [List.head?_eq_some_head hb, Option.mem_some_iff] at hy
    rw [hfx, hfy] at hnot
    cases hnot

section

variable {minRun : Nat}

theorem flush_of_length_lt {run : List ToolName} (h : run.length < minRun) :
    flush minRun run = run := by
  rw [flush, if_neg (Nat.not_le.mpr h)]

/-- A run that is not continued is flushed by itself. -/
theorem flatMap_flush_runs_append (hminRun : 2 ≤ minRun) {run tools : List ToolName}
    (hrun : ∀ f ∈ run, isFragment f = true) (htools : tools.head?.any isFragment = false) :
    (runs (run ++ tools)).flatMap (flush minRun) =
      flush minRun run ++ (runs tools).flatMap (flush minRun) := by
  cases run with
  | nil => rw [flush_of_length_lt (Nat.lt_of_lt_of_le Nat.two_pos hminRun)]; rfl
  | cons f run => rw [runs, Text.splitBy_and_append (List.cons_ne_nil f run) hrun htools]; rfl

/-- A tool that is no fragment is kept. -/
theorem flatMap_flush_runs_cons (hminRun : 2 ≤ minRun) {tool : ToolName}
    (htool : isFragment tool = false) (tools : List ToolName) :
    (runs (tool :: tools)).flatMap (flush minRun) =
      tool :: (runs tools).flatMap (flush minRun) := by
  have hone : [tool].length < minRun := hminRun
  rw [runs, Text.splitBy_and_cons htool, List.flatMap_cons, flush_of_length_lt hone]
  rfl

theorem rejoinFrom_eq_flatMap_flush (hminRun : 2 ≤ minRun) {run tools : List ToolName}
    (hrun : ∀ f ∈ run, isFragment f = true) :
    rejoinFrom minRun run tools = (runs (run ++ tools)).flatMap (flush minRun) := by
  induction tools generalizing run with
  | nil =>
      rw [rejoinFrom, flatMap_flush_runs_append hminRun hrun rfl]
      exact (List.append_nil _).symm
  | cons tool tools ih =>
      rw [rejoinFrom]
      split
      · next hf =>
          rw [ih (forall_isFragment_concat hrun hf), List.append_assoc, List.singleton_append]
      · next hf =>
          have hnot : isFragment tool = false := eq_false_of_ne_true hf
          have hhead : (tool :: tools).head?.any isFragment = false := hnot
          rw [ih (List.forall_mem_nil _), List.nil_append,
            flatMap_flush_runs_append hminRun hrun hhead, flatMap_flush_runs_cons hminRun hnot]

theorem rejoin_eq_flatMap_flush (hminRun : 2 ≤ minRun) (tools : List ToolName) :
    rejoin minRun tools = (runs tools).flatMap (flush minRun) := by
  rw [rejoin_eq_rejoinOnce hminRun, rejoinOnce,
    rejoinFrom_eq_flatMap_flush hminRun (List.forall_mem_nil _), List.nil_append]

theorem rejoinOnce_rejoin (hminRun : 2 ≤ minRun) (tools : List ToolName) :
    rejoinOnce minRun (rejoin minRun tools) = rejoin minRun tools := by
  rw [rejoin_eq_rejoinOnce hminRun]
  exact rejoinOnce_eq_self (short_rejoinFrom hminRun (List.forall_mem_nil _))

theorem rejoin_rejoin (hminRun : 2 ≤ minRun) (tools : List ToolName) :
    rejoin minRun (rejoin minRun tools) = rejoin minRun tools := by
  rw [rejoin_eq_rejoinOnce hminRun (rejoin minRun tools), rejoinOnce_rejoin hminRun]

/-- Before the limit is reached there is a pass that has nothing left to join, and at most one pass
comes before it. -/
theorem exists_iterate_rejoinOnce (hminRun : 2 ≤ minRun) (tools : List ToolName) :
    ∃ passes ≤ 1, passes < tools.length + 1 ∧
      (rejoinOnce minRun)^[passes] tools = rejoin minRun tools := by
  rw [rejoin_eq_rejoinOnce hminRun]
  cases tools with
  | nil =>
      have hshort : Short minRun 0 [] := Nat.lt_of_lt_of_le Nat.two_pos hminRun
      exact ⟨0, Nat.zero_le 1, Nat.one_pos, (rejoinOnce_eq_self hshort).symm⟩
  | cons tool tools => exact ⟨1, Nat.le_refl 1, by simp, rfl⟩

/-- A list of tools is cut into its longest runs of fragments and the other tools. Each run of at
least `minRun` fragments is joined to one tool that is named by all of them, and all else stays as
it is. Joining again changes nothing; and before the limit for passes is reached there is a pass
that has nothing left to join, with at most one before it. -/
theorem rejoin_joins_runs (hminRun : 2 ≤ minRun) (tools : List ToolName) :
    let joined := rejoin minRun tools
    CutsIntoRuns tools (runs tools) ∧
      joined = (runs tools).flatMap (fun run =>
        if minRun ≤ run.length then [run.flatten] else run) ∧
      rejoin minRun joined = joined ∧
      ∃ passes ≤ 1, passes < tools.length + 1 ∧
        (rejoinOnce minRun)^[passes] tools = joined ∧ rejoinOnce minRun joined = joined := by
  intro joined
  obtain ⟨passes, hone, hlimit, hjoined⟩ := exists_iterate_rejoinOnce hminRun tools
  exact ⟨cutsIntoRuns_runs tools, rejoin_eq_flatMap_flush hminRun tools,
    rejoin_rejoin hminRun tools, passes, hone, hlimit, hjoined, rejoinOnce_rejoin hminRun tools⟩

/-- Of three runs, one at the end of the list, two are long enough. -/
theorem rejoin_code_and_bold :
    let tools := ["x", "y", "link", "c", "o", "d", "e", "-", "b", "o", "l", "d"].map String.toList
    let joined := ["x", "y", "link", "code", "-", "bold"].map String.toList
    2 ≤ 3 ∧ CutsIntoRuns tools (runs tools) ∧ (runs tools).map List.length = [2, 1, 4, 1, 4] ∧
      rejoin 3 tools = joined ∧ rejoin 3 joined = joined ∧ rejoinOnce 3 joined = joined := by
  intro tools joined
  have hminRun : 2 ≤ 3 := by decide
  have hjoined : rejoin 3 tools = joined := by decide +kernel
  obtain ⟨hcuts, -, hagain, -, -, -, -, hpass⟩ := rejoin_joins_runs hminRun tools
  rw [hjoined] at hagain hpass
  exact ⟨hminRun, hcuts, by decide +kernel, hjoined, hagain, hpass⟩

end

end EditorToolbar.Fragments
