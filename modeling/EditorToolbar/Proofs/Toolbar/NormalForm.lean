import EditorToolbar.Proofs.Toolbar.Between
import EditorToolbar.Proofs.Toolbar.Neighbours

/-!
# Compaction as a normal form

What compaction makes of a toolbar can be said without an algorithm. The toolbar that results is
compact, it holds the same tools, and between two neighbouring tools the strongest joint or divider
of all the parts that begin between them is left (`Toolbar.Condenses`); only two bare groups with
nothing but empty groups between them, and no pipe, become one. No other compact toolbar does so
(`compact_normal_form`).
-/

namespace EditorToolbar

open Placed (fuseFrom)

/-! ### What compaction leaves between two tools -/

/-- The seats `a` and `b` of two neighbouring tools of `t` have become `a'` and `b'`. The sections
that begin between the two leave the strongest of their dividers. If there are none, the groups that
begin between the two leave the strongest of their joints, unless that is no pipe and both tools are
bare. -/
structure Seat.Condensed (t : Toolbar) (a b a' b' : Seat) : Prop where
  row : a'.row ≠ b'.row ↔ a.row ≠ b.row
  divider : a'.row ≠ b'.row →
    b'.divider = Divider.strongest? ((t.sectionsTo (a.row + 1) b).map Section.divider)
  column : a'.row = b'.row → (a'.column ≠ b'.column ↔ a.column ≠ b.column ∧
    (Joint.strongest ((t.groupsTo (a.column + 1) b).map Group.joint) = .pipe ∨
      a.braced = true ∨ b.braced = true))
  joint : a'.row = b'.row → a'.column ≠ b'.column →
    b'.joint = Joint.strongest ((t.groupsTo (a.column + 1) b).map Group.joint)

namespace Toolbar

/-- A toolbar `u` condenses `t` if it holds the tools of `t` in order, braced as they are in `t`, and
separates neighbours as strongly as `t` does. -/
structure Condenses (u t : Toolbar) : Prop where
  tools : u.seats.map (fun a => (a.braced, a.name)) = t.seats.map fun a => (a.braced, a.name)
  neighbours : ∀ i a b a' b', t.seats[i]? = some a → t.seats[i + 1]? = some b →
    u.seats[i]? = some a' → u.seats[i + 1]? = some b' → Seat.Condensed t a b a' b'

variable {t u : Toolbar} {a b a' b' : Seat} {i : Nat}

/-- What fusing leaves of the gap between two seats. -/
theorem fuse_gap (t : Toolbar) (a b : Seat) :
    (t.gap a b).fuse a.braced b.braced =
      if a.row ≠ b.row then
        .divided (Divider.strongest? ((t.sectionsTo (a.row + 1) b).map Section.divider))
      else if a.column ≠ b.column ∧
          (Joint.strongest ((t.groupsTo (a.column + 1) b).map Group.joint) = .pipe ∨
            a.braced = true ∨ b.braced = true) then
        (Joint.strongest ((t.groupsTo (a.column + 1) b).map Group.joint)).gap
      else .within := by
  have hjoint (j : Joint) : j.gap.fuse a.braced b.braced =
      if j = .pipe ∨ a.braced = true ∨ b.braced = true then j.gap else .within := by
    cases j <;> cases a.braced <;> cases b.braced <;> rfl
  rw [gap]
  by_cases hrow : a.row ≠ b.row
  · rw [if_pos hrow, if_pos hrow, Gap.fuse_of_ne _ _ (by simp)]
  by_cases hcolumn : a.column ≠ b.column
  · rw [if_neg hrow, if_neg hrow, if_pos hcolumn, hjoint]
    simp only [hcolumn, ne_eq, not_false_eq_true, true_and]
  · rw [if_neg hrow, if_neg hrow, if_neg hcolumn, if_neg fun h => hcolumn h.1]
    exact Gap.fuse_of_ne _ _ (by simp)

/-- Two neighbours are condensed if the gap between them is the one before, fused. -/
theorem condensed_iff :
    Seat.Condensed t a b a' b' ↔ a'.gap b' = (t.gap a b).fuse a.braced b.braced := by
  rw [fuse_gap, Seat.gap_eq_ite_iff]
  constructor
  · rintro ⟨hrow, hdivider, hcolumn, hjoint⟩
    exact ⟨hrow, hdivider, hcolumn, hjoint⟩
  · rintro ⟨hrow, hdivider, hcolumn, hjoint⟩
    exact ⟨hrow, hdivider, hcolumn, hjoint⟩

/-! ### The fused layout, seat by seat -/

theorem getElem?_fuseFrom_layout_zero (t : Toolbar) :
    (fuseFrom true t.layout)[0]? = t.seats[0]?.map fun a => ⟨.start, a.braced, a.name⟩ := by
  rw [layout_eq_placeAfter]
  cases t.seats <;> rfl

theorem getElem?_fuseFrom_layout_succ (ha : t.seats[i]? = some a) (hb : t.seats[i + 1]? = some b) :
    (fuseFrom true t.layout)[i + 1]? =
      some ⟨(t.gap a b).fuse a.braced b.braced, b.braced, b.name⟩ := by
  obtain ⟨x, hx, heq⟩ := exists_getElem?_of_map_eq t.map_layout.symm ha
  obtain ⟨hbraced, -⟩ := Prod.mk.inj heq
  rw [Placed.getElem?_fuseFrom_succ hx (getElem?_layout_succ ha hb), hbraced]

/-- A toolbar condenses another one if its seats make the fused layout of that one. -/
theorem condenses_iff : u.Condenses t ↔ Seat.place u.seats = fuseFrom true t.layout := by
  constructor
  · intro h
    apply List.ext_getElem?
    intro i
    cases i with
    | zero =>
        have hzero := congrArg (fun l => l[0]?.map fun x => (⟨.start, x.1, x.2⟩ : Placed)) h.tools
        simp only [List.getElem?_map, Option.map_map] at hzero
        rw [Seat.getElem?_place_zero, getElem?_fuseFrom_layout_zero]
        exact hzero
    | succ i =>
        cases hb : t.seats[i + 1]? with
        | some b =>
            have hi := (List.getElem?_eq_some_iff.mp hb).1
            have ha : t.seats[i]? = some t.seats[i] := List.getElem?_eq_getElem (Nat.lt_of_succ_lt hi)
            obtain ⟨a', ha', -⟩ := exists_getElem?_of_map_eq h.tools.symm ha
            obtain ⟨b', hb', heq⟩ := exists_getElem?_of_map_eq h.tools.symm hb
            obtain ⟨hbraced, hname⟩ := Prod.mk.inj heq
            rw [Seat.getElem?_place_succ ha' hb', getElem?_fuseFrom_layout_succ ha hb,
              condensed_iff.mp (h.neighbours i _ b a' b' ha hb ha' hb'), hbraced, hname]
        | none =>
            have hplace := h.tools.symm.trans (Seat.map_place u.seats).symm
            have hfuse := t.map_layout.symm.trans (Placed.map_seat_fuseFrom true t.layout).symm
            rw [getElem?_eq_none_of_map_eq hplace hb, getElem?_eq_none_of_map_eq hfuse hb]
  · intro h
    refine ⟨?_, ?_⟩
    · rw [← Seat.map_place, h, Placed.map_seat_fuseFrom, map_layout]
    · intro i a b a' b' ha hb ha' hb'
      have hplace := Seat.getElem?_place_succ ha' hb'
      rw [h, getElem?_fuseFrom_layout_succ ha hb, Option.some_inj] at hplace
      exact condensed_iff.mpr (congrArg Placed.gap hplace).symm

/-- Compaction is a normal form. What it makes of a toolbar has no empty parts, nothing before the
first group of a section or before the first section, and no bare group attached to a bare group. It
condenses the toolbar, compacting it again changes nothing, and no other compact toolbar condenses
the same. -/
theorem compact_normal_form (t : Toolbar) :
    t.compact.IsCompact ∧ t.compact.Condenses t ∧ t.compact.compact = t.compact ∧
      ∀ u : Toolbar, u.IsCompact → u.Condenses t → u = t.compact := by
  have hc : t.compact.IsCompact := t.isCompact_compact
  refine ⟨hc, ?_, hc.compact_eq, ?_⟩
  · rw [condenses_iff, hc.place_seats, t.layout_compact true]
  · intro u hu hcondenses
    apply hu.ext_layout hc
    rw [← hu.place_seats, condenses_iff.mp hcondenses, t.layout_compact true]

/-- Behind `bold` an empty group, an empty section and a divider fall together, behind `undo` an
empty group with a pipe; the bare `code` and `link` are one group in the end. -/
theorem condensed_emptied_parts :
    let t : Toolbar :=
      ⟨[⟨none, [⟨false, .pipe, ["bold".toList]⟩, ⟨true, .pipe, []⟩]⟩,
        ⟨some .slash, [⟨false, .pipe, []⟩]⟩,
        ⟨some .hash, [⟨true, .pipe, ["undo".toList]⟩, ⟨true, .pipe, []⟩,
          ⟨false, .adjacent, ["code".toList]⟩, ⟨true, .adjacent, []⟩,
          ⟨false, .adjacent, ["link".toList]⟩]⟩]⟩
    let u : Toolbar :=
      ⟨[⟨none, [⟨false, .pipe, ["bold".toList]⟩]⟩,
        ⟨some .slash, [⟨true, .pipe, ["undo".toList]⟩,
          ⟨false, .pipe, ["code".toList, "link".toList]⟩]⟩]⟩
    u.IsCompact ∧ u.Condenses t ∧ u = t.compact := by
  intro t u
  have hu : u.IsCompact := u.isCompact_compact
  have hcondenses : u.Condenses t := condenses_iff.mpr (by decide)
  exact ⟨hu, hcondenses, (compact_normal_form t).2.2.2 u hu hcondenses⟩

end Toolbar

end EditorToolbar
