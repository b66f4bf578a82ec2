import EditorToolbar.Proofs.Exclusion.Gaps
import EditorToolbar.Proofs.Normalization.Letters
import EditorToolbar.Proofs.RoundTrip

/-!
# The textual strategy

A text that has been repaired is not changed by repairing it again. So a pass that changes such a
text cuts a name out of it, and then there are fewer letters: writing, reading and mending keep the
letters as they are, though splitting a name makes the text longer and adds a tool. Hence the
letters are the measure that brings the run to a fixed point, and a text has at least as many bytes
as letters. At the fixed point nothing is cut and nothing is repaired.

If every excluded name is bounded, a cut leaves no modifier behind. The result is then a text from
which nothing has to be stripped, and normalizing it again starts at the fixed point.
-/

namespace EditorToolbar

open Token (IsName letters isNameChar)

theorem repairText_repairText (minRun : Nat) (s : Text) :
    repairText minRun (repairText minRun s) = repairText minRun s := by
  have hwell : ((Toolbar.ofText s).repair minRun).WellFormed :=
    (Toolbar.wellFormed_ofText s).repair minRun
  have hread := Toolbar.repair_congr minRun (Toolbar.compact_ofText_toText hwell)
  calc repairText minRun (repairText minRun s)
      = ((Toolbar.ofText ((Toolbar.ofText s).repair minRun).toText).repair minRun).toText := rfl
    _ = (((Toolbar.ofText s).repair minRun).repair minRun).toText := by rw [hread]
    _ = repairText minRun s := by rw [Toolbar.isRepaired_repair minRun _, repairText]

theorem unmodified_repairText (minRun : Nat) {s : Text} (hs : Modifier.Unmodified s) :
    Modifier.Unmodified (repairText minRun s) :=
  Toolbar.unmodified_toText ((Toolbar.wellFormed_ofText s).repair minRun)
    (Toolbar.unmodified_of_mem_tools_repair minRun (Toolbar.unmodified_of_mem_tools_ofText hs))

namespace Normalizer

variable {minRun : Nat} {e : ExclusionSet} {s : Text}

/-! ### One pass -/

theorem repairText_textualStep (minRun : Nat) (e : ExclusionSet) (s : Text) :
    repairText minRun (textualStep minRun e s) = textualStep minRun e s :=
  repairText_repairText minRun (e.cutWords s)

theorem textualStep_of_cutWords_eq_self (hs : repairText minRun s = s) (h : e.cutWords s = s) :
    textualStep minRun e s = s := by
  rw [textualStep, h, hs]

/-- A pass that changes a repaired text takes letters away. -/
theorem length_letters_textualStep_lt (he : ∀ name ∈ e.names, IsName name)
    (hs : repairText minRun s = s) (hne : textualStep minRun e s ≠ s) :
    (letters (textualStep minRun e s)).length < (letters s).length := by
  rw [textualStep, letters_repairText]
  rcases ExclusionSet.cutWords_eq_self_or_length_letters_lt he s with hcut | hlt
  · exact absurd (textualStep_of_cutWords_eq_self hs hcut) hne
  · exact hlt

theorem cutWords_eq_self_of_fixed (he : ∀ name ∈ e.names, IsName name)
    (h : textualStep minRun e s = s) : e.cutWords s = s := by
  rcases ExclusionSet.cutWords_eq_self_or_length_letters_lt he s with hcut | hlt
  · exact hcut
  · rw [← letters_repairText minRun (e.cutWords s), ← textualStep, h] at hlt
    exact absurd hlt (Nat.lt_irrefl _)

theorem textualStep_empty_of_fixed (h : textualStep minRun e s = s) :
    textualStep minRun {} s = s := by
  have hrepaired := repairText_textualStep minRun e s
  rw [h] at hrepaired
  exact textualStep_of_cutWords_eq_self hrepaired rfl

theorem unmodified_textualStep (he : ∀ name ∈ e.names, Bounded name)
    (hs : Modifier.Unmodified s) : Modifier.Unmodified (textualStep minRun e s) :=
  unmodified_repairText minRun (hs.cutWords fun name hname => (he name hname).endsInWord)

/-! ### The run -/

theorem textualStep_settle (he : ∀ name ∈ e.names, IsName name) (hs : repairText minRun s = s)
    {limit : Nat} (h : s.utf8Length ≤ limit) :
    textualStep minRun e (settle (textualStep minRun e) limit s) =
      settle (textualStep minRun e) limit s := by
  have hletters : (letters s).length ≤ limit :=
    calc (letters s).length
        ≤ s.length := List.length_filter_le ..
      _ ≤ s.utf8Length := Text.length_le_utf8Length s
      _ ≤ limit := h
  exact step_settle_of_size_le (fun t => repairText minRun t = t) (fun t => (letters t).length)
    (fun t _ => repairText_textualStep minRun e t)
    (fun _ => length_letters_textualStep_lt he) hs hletters

theorem textualStep_settledText (he : ∀ name ∈ e.names, IsName name) (minRun : Nat) (s : Text) :
    textualStep minRun e (settledText minRun e s) = settledText minRun e s :=
  textualStep_settle he (repairText_textualStep minRun e s) (Nat.le_succ _)

theorem settle_textualStep_eq (he : ∀ name ∈ e.names, IsName name) {limit : Nat}
    (h : (textualStep minRun e s).utf8Length ≤ limit) :
    settle (textualStep minRun e) limit (textualStep minRun e s) = settledText minRun e s := by
  have hfixed := textualStep_settle he (repairText_textualStep minRun e s) (Nat.le_refl _)
  rw [settledText, settle_eq_settle_of_le hfixed h]
  exact (settle_eq_settle_of_le hfixed (Nat.le_succ _)).symm

theorem settledText_induction {P : Text → Prop} (hstep : ∀ t, P t → P (textualStep minRun e t))
    (h : P s) : P (settledText minRun e s) :=
  settle_induction hstep _ (hstep _ h)

theorem settledText_empty (minRun : Nat) (s : Text) :
    settledText minRun {} s = repairText minRun s := by
  have hstep : ∀ u : Text, textualStep minRun {} u = repairText minRun u := fun _ => rfl
  rw [settledText, hstep, settle_of_fixed]
  rw [hstep, repairText_repairText]

/-- Without exclusions both strategies strip the text and repair it. -/
theorem normalize_empty (n : Normalizer) (text : Text) :
    n.normalize {} text = repairText n.minRun (Modifier.strip text) := by
  unfold normalize
  cases n.strategy with
  | structural =>
      dsimp only
      rw [settledToolbar_empty, repairText]
  | textual => exact settledText_empty n.minRun _

theorem settledText_of_fixed (h : textualStep minRun e s = s) : settledText minRun e s = s := by
  rw [settledText, h, settle_of_fixed h]

/-- The textual strategy ends in a text from which no excluded name is cut and which repair leaves
as it is; a limit of as many passes as the first pass left bytes suffices to reach it. If the
excluded names are bounded, that text is its own normal form, whether the names are excluded once
more or nothing is. -/
theorem normalize_textual_settled (minRun : Nat) (fallback text : Text) {e : ExclusionSet}
    (he : e.Built) (hletters : ∀ name ∈ e.names, ∀ c ∈ name, isNameChar c = true) :
    let n : Normalizer := ⟨.textual, minRun, fallback⟩
    let first := textualStep minRun e (Modifier.strip text)
    let out := n.normalize e text
    e.cutWords out = out ∧ repairText minRun out = out ∧
      (∀ limit, first.utf8Length ≤ limit → settle (textualStep minRun e) limit first = out) ∧
      ((∀ name ∈ e.names, Bounded name) → n.normalize e out = out ∧ n.normalize {} out = out) := by
  intro n first out
  have hnames : ∀ name ∈ e.names, IsName name := he.isName hletters
  have hfixed : textualStep minRun e out = out :=
    textualStep_settledText hnames minRun (Modifier.strip text)
  have hcut : e.cutWords out = out := cutWords_eq_self_of_fixed hnames hfixed
  refine ⟨hcut, ?_, fun _ => settle_textualStep_eq hnames, fun hbounded => ?_⟩
  · have hrepair := repairText_textualStep minRun e out
    rwa [hfixed] at hrepair
  · have hstrip : Modifier.strip out = out :=
      Modifier.strip_eq_self (settledText_induction (fun _ => unmodified_textualStep hbounded)
        (Modifier.unmodified_strip text))
    constructor
    · change settledText minRun e (Modifier.strip out) = out
      rw [hstrip, settledText_of_fixed hfixed]
    · change settledText minRun {} (Modifier.strip out) = out
      rw [hstrip, settledText_of_fixed (textualStep_empty_of_fixed hfixed)]

/-- One pass spells `bold`, which the next one cuts; the glued name becomes two. -/
theorem normalize_textual_settled_spelled_bold :
    let n : Normalizer := ⟨.textual, 3, []⟩
    let e := ExclusionSet.ofNames ["bold".toList]
    let out := n.normalize e ":bold,b,o,l,d|insertlinkunlink:toggle".toList
    (∀ name ∈ e.names, (∀ c ∈ name, isNameChar c = true) ∧ Bounded name) ∧
      out = ":|insertlink,unlink".toList ∧ e.cutWords out = out ∧ repairText 3 out = out ∧
      n.normalize e out = out ∧ n.normalize {} out = out := by
  intro n e out
  have hall : e.names.all (fun name => name.all isNameChar && decide (Bounded name)) = true := by
    decide
  have he : ∀ name ∈ e.names, (∀ c ∈ name, isNameChar c = true) ∧ Bounded name := by
    intro name hname
    have hboth := List.all_eq_true.mp hall name hname
    rw [Bool.and_eq_true, decide_eq_true_eq] at hboth
    exact ⟨List.all_eq_true.mp hboth.1, hboth.2⟩
  have hout : out = ":|insertlink,unlink".toList := by decide +kernel
  obtain ⟨hcut, hrepair, -, hagain⟩ := normalize_textual_settled 3 []
    ":bold,b,o,l,d|insertlinkunlink:toggle".toList (.ofNames ["bold".toList])
    fun name hname => (he name hname).1
  exact ⟨he, hout, hcut, hrepair, hagain fun name hname => (he name hname).2⟩

end Normalizer

end EditorToolbar
