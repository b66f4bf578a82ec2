import EditorToolbar.Proofs.Toolbar.Seats

/-!
# What stands between two seats

In a compact toolbar the gap between two neighbouring seats is the difference between them
(`Seat.gap`). In general it is not: between two tools there may be groups and sections without a
tool, and their joints and dividers count as well. `Toolbar.gap` reads the gap off all the parts
that begin between two seats. The layout of a toolbar, which is made by going through its marks,
puts these gaps before the tools (`getElem?_layout_succ`).

The induction follows the marks (`layout_eq_placeAfter`). A position is given by the number of
sections that have been opened and the number of groups that have been opened in the last of them.
`Toolbar.Pends` says that the gap that is pending there, combined with what is still to be opened on
the way to a seat, is what separates that seat from the last one.
-/

namespace EditorToolbar

section

variable {α : Type} {l rest : List α} {x : α} {i j : Nat}

theorem drop_succ_of_drop_eq_cons (h : l.drop i = x :: rest) : l.drop (i + 1) = rest := by
  rw [← List.tail_drop, h, List.tail_cons]

theorem extract_eq_cons (h : l.drop i = x :: rest) (hij : i < j) :
    l.extract i j = x :: l.extract (i + 1) j := by
  have hlength : j - i = j - (i + 1) + 1 := by omega
  rw [List.extract_eq_take_drop, List.extract_eq_take_drop, h, drop_succ_of_drop_eq_cons h, hlength,
    List.take_succ_cons]

end

/-! ### The strongest of several separators -/

/-- The strongest of some joints. A pipe is stronger than none. -/
def Joint.strongest (joints : List Joint) : Joint := if .pipe ∈ joints then .pipe else .adjacent

/-- The strongest of some dividers that may be absent. A slash is stronger than a hash, and any
divider is stronger than none. -/
def Divider.strongest? (dividers : List (Option Divider)) : Option Divider :=
  if some .slash ∈ dividers then some .slash
  else if some .hash ∈ dividers then some .hash
  else none

theorem Joint.strongest_cons (j : Joint) (joints : List Joint) :
    strongest (j :: joints) = j.combine (strongest joints) := by
  cases j <;> simp [strongest]

theorem Divider.strongest?_cons (d : Option Divider) (dividers : List (Option Divider)) :
    strongest? (d :: dividers) = combine? d (strongest? dividers) := by
  rcases d with _ | _ | _ <;> simp only [strongest?, List.mem_cons] <;> simp <;> split_ifs <;> rfl

namespace Gap

def strongest : List Gap → Gap
  | [] => within
  | g :: gaps => g.combine (strongest gaps)

theorem strongest_map_joint {joints : List Joint} (h : joints ≠ []) :
    strongest (joints.map Joint.gap) = (Joint.strongest joints).gap := by
  induction joints with
  | nil => exact absurd rfl h
  | cons j joints ih =>
      rw [List.map_cons, strongest, Joint.strongest_cons, Joint.gap_combine]
      by_cases hj : joints = []
      · rw [hj]
        cases j <;> rfl
      · rw [ih hj]

/-- A divider absorbs joints. -/
theorem divided_combine_strongest (d : Option Divider) (joints : List Joint) :
    combine (divided d) (strongest (joints.map Joint.gap)) = divided d := by
  induction joints with
  | nil => rfl
  | cons j joints ih => rw [List.map_cons, strongest, ← combine_assoc, divided_combine_joint, ih]

end Gap

/-! ### The order of the seats -/

/-- Whether a seat is to the left of another one, as far as the two seats show it. -/
def Seat.Precedes (a b : Seat) : Prop := a.row < b.row ∨ a.row = b.row ∧ a.column ≤ b.column

theorem pairwise_zipIdx {α : Type} (l : List α) : l.zipIdx.Pairwise fun x y => x.2 < y.2 := by
  rw [← List.pairwise_map (f := Prod.snd) (R := (· < ·)), List.zipIdx_map_snd]
  exact List.pairwise_lt_range'

theorem Section.pairwise_seats (x : Section × Nat) : (seats x).Pairwise Seat.Precedes := by
  rw [seats, List.pairwise_flatMap]
  constructor
  · intro y _
    rw [Group.seats, List.pairwise_map]
    exact List.pairwise_of_forall fun _ _ => .inr ⟨rfl, Nat.le_refl _⟩
  · refine (pairwise_zipIdx x.1.groups).imp fun hlt a ha b hb => ?_
    obtain ⟨_, -, rfl⟩ := List.mem_map.mp ha
    obtain ⟨_, -, rfl⟩ := List.mem_map.mp hb
    exact .inr ⟨rfl, Nat.le_of_lt hlt⟩

theorem Section.row_of_mem_seats {x : Section × Nat} {a : Seat} (h : a ∈ seats x) :
    a.row = x.2 := by
  obtain ⟨y, -, h⟩ := List.mem_flatMap.mp h
  obtain ⟨_, -, rfl⟩ := List.mem_map.mp h
  rfl

theorem Toolbar.pairwise_seats (t : Toolbar) : t.seats.Pairwise Seat.Precedes := by
  rw [seats, List.pairwise_flatMap]
  refine ⟨fun x _ => Section.pairwise_seats x, (pairwise_zipIdx t.sections).imp ?_⟩
  intro x y hlt a ha b hb
  rw [← Section.row_of_mem_seats ha, ← Section.row_of_mem_seats hb] at hlt
  exact .inl hlt

/-! ### Gaps between seats of a toolbar -/

namespace Toolbar

variable {t : Toolbar}

/-- The sections with at least the number `n` up to the one that the seat is in. -/
def sectionsTo (t : Toolbar) (n : Nat) (b : Seat) : List Section := t.sections.extract n (b.row + 1)

/-- The groups with at least the number `n` in the section of a seat, up to the one that it is
in. -/
def groupsTo (t : Toolbar) (n : Nat) (b : Seat) : List Group :=
  (t.sections[b.row]?.elim [] Section.groups).extract n (b.column + 1)

/-- What separates a seat `b` from the seat `a` right before it. -/
def gap (t : Toolbar) (a b : Seat) : Gap :=
  if a.row ≠ b.row then
    .divided (Divider.strongest? ((t.sectionsTo (a.row + 1) b).map Section.divider))
  else if a.column ≠ b.column then
    (Joint.strongest ((t.groupsTo (a.column + 1) b).map Group.joint)).gap
  else .within

/-- The strongest of what is still to be opened on the way to a seat, when so many sections have
been opened and so many groups in the last of them. -/
def gapFrom (t : Toolbar) (rows columns : Nat) (b : Seat) : Gap :=
  if rows ≤ b.row then .divided (Divider.strongest? ((t.sectionsTo rows b).map Section.divider))
  else .strongest (((t.groupsTo columns b).map Group.joint).map Joint.gap)

/-- What separates a seat from the last one before it, if there is one. -/
def gapAfter (t : Toolbar) : Option Seat → Seat → Gap
  | none, _ => .start
  | some a, b => t.gapFrom (a.row + 1) (a.column + 1) b

/-- Puts before each tool what separates its seat from the last one. -/
def placeAfter (t : Toolbar) : Option Seat → List Seat → List Placed
  | _, [] => []
  | last, b :: rest => ⟨t.gapAfter last b, b.braced, b.name⟩ :: placeAfter t (some b) rest

/-- A gap is pending since the last seat, when so many sections have been opened and so many groups
in the last of them. -/
def Pends (t : Toolbar) (rows columns : Nat) (last : Option Seat) (pending : Gap) : Prop :=
  ∀ b : Seat, rows ≤ b.row ∨ rows = b.row + 1 ∧ columns ≤ b.column + 1 →
    t.gapAfter last b = pending.combine (t.gapFrom rows columns b)

section

variable {rows columns row column : Nat} {last : Option Seat} {pending : Gap}

theorem pends_start (t : Toolbar) : t.Pends 0 0 none .start :=
  fun b _ => (Gap.start_combine (t.gapFrom 0 0 b)).symm

theorem pends_some (t : Toolbar) (a : Seat) : t.Pends (a.row + 1) (a.column + 1) (some a) .within :=
  fun b _ => (Gap.within_combine (t.gapFrom (a.row + 1) (a.column + 1) b)).symm

theorem Pends.openSection {s : Section} {rest : List Section} (h : t.Pends rows columns last pending)
    (hs : t.sections.drop rows = s :: rest) :
    t.Pends (rows + 1) 0 last (pending.combine (.divided s.divider)) := by
  intro b hb
  have hrow : rows ≤ b.row := by omega
  rw [h b (.inl hrow), Gap.combine_assoc, gapFrom, if_pos hrow, sectionsTo,
    extract_eq_cons hs (Nat.lt_succ_of_le hrow), List.map_cons, Divider.strongest?_cons, gapFrom]
  split
  · rfl
  · next hlast =>
      have hnone : t.sections.extract (rows + 1) (b.row + 1) = [] := by
        rw [List.extract_eq_take_drop, Nat.sub_eq_zero_of_le (by omega), List.take_zero]
      rw [Gap.divided_combine_strongest, hnone]
      exact congrArg (fun d => pending.combine (.divided d)) (Divider.combine?_none s.divider)

theorem Pends.openGroup {s : Section} {g : Group} {rest : List Group}
    (h : t.Pends (row + 1) column last pending) (hs : t.sections[row]? = some s)
    (hg : s.groups.drop column = g :: rest) :
    t.Pends (row + 1) (column + 1) last (pending.combine g.joint.gap) := by
  intro b hb
  rw [h b (by omega), Gap.combine_assoc, gapFrom, gapFrom]
  split
  · next hrow => rw [Gap.joint_combine_divided]
  · next hrow =>
      have heq : row = b.row := by omega
      have hgroups : t.sections[b.row]?.elim [] Section.groups = s.groups := by
        rw [← heq, hs, Option.elim_some]
      rw [groupsTo, groupsTo, hgroups, extract_eq_cons hg (by omega), List.map_cons, List.map_cons,
        Gap.strongest]

/-- Nothing is left to be opened before a seat in the last group. -/
theorem Pends.gapAfter_eq {b : Seat} (h : t.Pends (b.row + 1) (b.column + 1) last pending) :
    t.gapAfter last b = pending := by
  have hnone : t.groupsTo (b.column + 1) b = [] := by
    rw [groupsTo, List.extract_eq_take_drop, Nat.sub_self, List.take_zero]
  rw [h b (.inr ⟨rfl, Nat.le_refl _⟩), gapFrom, if_neg (by omega), hnone]
  exact Gap.combine_within pending

/-! ### The layout of any toolbar -/

variable {rest : List Mark} {R : List Seat}

theorem place_tools_eq
    (hrest : ∀ last pending, t.Pends (row + 1) (column + 1) last pending →
      Mark.place pending rest = t.placeAfter last R)
    (h : t.Pends (row + 1) (column + 1) last pending) (d : Option Divider) (j : Joint)
    (braced : Bool) (names : List ToolName) :
    Mark.place pending (names.map (.tool braced) ++ rest) =
      t.placeAfter last (names.map (fun name => ⟨row, column, d, j, braced, name⟩) ++ R) := by
  induction names generalizing last pending with
  | nil => exact hrest last pending h
  | cons name names ih =>
      let b : Seat := ⟨row, column, d, j, braced, name⟩
      have hb : t.gapAfter last b = pending := Pends.gapAfter_eq h
      rw [List.map_cons, List.cons_append, Mark.place_tool, ih (t.pends_some b), List.map_cons,
        List.cons_append, placeAfter, hb]

theorem place_groups_eq {s : Section} (hs : t.sections[row]? = some s)
    (hrest : ∀ column last pending, t.Pends (row + 1) column last pending →
      Mark.place pending rest = t.placeAfter last R)
    {groups : List Group} (hgroups : s.groups.drop column = groups)
    (h : t.Pends (row + 1) column last pending) (d : Option Divider) :
    Mark.place pending (groups.flatMap Group.marks ++ rest) =
      t.placeAfter last ((groups.zipIdx column).flatMap (Group.seats row d) ++ R) := by
  induction groups generalizing column last pending with
  | nil => exact hrest column last pending h
  | cons g groups ih =>
      have htail := drop_succ_of_drop_eq_cons hgroups
      rw [List.flatMap_cons, List.append_assoc, Group.marks, List.cons_append, Mark.place_gap,
        place_tools_eq (fun _ _ => ih htail) (h.openGroup hs hgroups) d g.joint, List.zipIdx_cons,
        List.flatMap_cons, List.append_assoc]
      rfl

theorem place_sections_eq {sections : List Section} (hsections : t.sections.drop rows = sections)
    (h : t.Pends rows columns last pending) :
    Mark.place pending (sections.flatMap Section.marks) =
      t.placeAfter last ((sections.zipIdx rows).flatMap Section.seats) := by
  induction sections generalizing rows columns last pending with
  | nil => rfl
  | cons s sections ih =>
      have htail := drop_succ_of_drop_eq_cons hsections
      have hs : t.sections[rows]? = some s := by
        rw [← List.head?_drop, hsections, List.head?_cons]
      have hgroups : s.groups.drop 0 = s.groups := List.drop_zero
      rw [List.flatMap_cons, Section.marks, List.cons_append, Mark.place_gap,
        place_groups_eq hs (fun _ _ _ => ih htail) hgroups (h.openSection hsections) s.divider,
        List.zipIdx_cons, List.flatMap_cons]
      rfl

end

/-- The layout of a toolbar puts before each tool what separates its seat from the last one. -/
theorem layout_eq_placeAfter (t : Toolbar) : t.layout = t.placeAfter none t.seats :=
  place_sections_eq rfl t.pends_start

theorem getElem?_placeAfter_succ {last : Option Seat} {l : List Seat} {i : Nat} {a b : Seat}
    (ha : l[i]? = some a) (hb : l[i + 1]? = some b) :
    (t.placeAfter last l)[i + 1]? = some ⟨t.gapAfter (some a) b, b.braced, b.name⟩ := by
  induction l generalizing last i with
  | nil => cases ha
  | cons c l ih =>
      cases i with
      | succ i => exact ih ha hb
      | zero =>
          obtain rfl : c = a := Option.some_inj.mp ha
          obtain ⟨rest, rfl⟩ := List.head?_eq_some_iff.mp (List.head?_eq_getElem?.trans hb)
          rfl

theorem map_placeAfter (last : Option Seat) (l : List Seat) :
    (t.placeAfter last l).map (fun x => (x.braced, x.name)) = l.map fun a => (a.braced, a.name) := by
  induction l generalizing last with
  | nil => rfl
  | cons b l ih => rw [placeAfter, List.map_cons, List.map_cons, ih]

theorem map_layout (t : Toolbar) :
    t.layout.map (fun x => (x.braced, x.name)) = t.seats.map fun a => (a.braced, a.name) := by
  rw [layout_eq_placeAfter, map_placeAfter]

/-! ### Neighbours -/

variable {a b : Seat} {i : Nat}

theorem groupsTo_ne_nil (hb : b ∈ t.seats) {n : Nat} (h : n ≤ b.column) : t.groupsTo n b ≠ [] := by
  obtain ⟨s, g, hs, hg, -⟩ := exists_getElem?_of_mem_seats hb
  have hlength : b.column < s.groups.length := (List.getElem?_eq_some_iff.mp hg).1
  rw [groupsTo, hs, Option.elim_some, List.extract_eq_take_drop, ← List.length_pos_iff,
    List.length_take, List.length_drop]
  omega

/-- Before a seat that is a neighbour, what is found on the way is the gap between the two. -/
theorem gapAfter_eq_gap (ha : t.seats[i]? = some a) (hb : t.seats[i + 1]? = some b) :
    t.gapAfter (some a) b = t.gap a b := by
  obtain ⟨hi, rfl⟩ := List.getElem?_eq_some_iff.mp ha
  obtain ⟨hi', rfl⟩ := List.getElem?_eq_some_iff.mp hb
  have hab := List.pairwise_iff_getElem.mp t.pairwise_seats i (i + 1) hi hi' (Nat.lt_succ_self i)
  have hmem : t.seats[i + 1] ∈ t.seats := List.getElem_mem hi'
  generalize t.seats[i] = a at hab ⊢
  generalize t.seats[i + 1] = b at hab hmem ⊢
  rw [gapAfter, gapFrom, gap]
  rcases hab with hlt | ⟨hrow, hle⟩
  · rw [if_pos (Nat.succ_le_of_lt hlt), if_pos (Nat.ne_of_lt hlt)]
  · rw [if_neg (by omega), if_neg (not_not.mpr hrow)]
    rcases Nat.eq_or_lt_of_le hle with heq | hlt
    · rw [if_neg (not_not.mpr heq), groupsTo, heq, List.extract_eq_take_drop, Nat.sub_self,
        List.take_zero]
      rfl
    · rw [if_pos (Nat.ne_of_lt hlt), Gap.strongest_map_joint]
      rw [Ne, List.map_eq_nil_iff]
      exact groupsTo_ne_nil hmem hlt

theorem getElem?_layout_succ (ha : t.seats[i]? = some a) (hb : t.seats[i + 1]? = some b) :
    t.layout[i + 1]? = some ⟨t.gap a b, b.braced, b.name⟩ := by
  rw [layout_eq_placeAfter, getElem?_placeAfter_succ ha hb, gapAfter_eq_gap ha hb]

end Toolbar

end EditorToolbar
