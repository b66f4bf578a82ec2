import EditorToolbar.Proofs.Toolbar.Compaction

/-!
# The seats of the tools

The layout of a toolbar tells each tool from the tool before it. A `Seat` says outright where a tool
is to be found: in which section, in which group of that section, and what is written in front of
both. In a compact toolbar the two agree, since every section and every group has a tool: a gap is
the first difference between the seats of two neighbours (`Seat.gap`), and putting these gaps before
the tools gives the layout (`IsCompact.place_seats`).
-/

namespace EditorToolbar

section

variable {α β γ : Type} {f : α → γ} {g : β → γ} {l : List α} {m : List β} {i : Nat}

theorem exists_getElem?_of_map_eq (h : l.map f = m.map g) {a : α} (ha : l[i]? = some a) :
    ∃ b, m[i]? = some b ∧ g b = f a := by
  have hat : (m.map g)[i]? = some (f a) := by rw [← h, List.getElem?_map, ha, Option.map_some]
  rwa [List.getElem?_map, Option.map_eq_some_iff] at hat

theorem getElem?_eq_none_of_map_eq (h : l.map f = m.map g) (hl : l[i]? = none) : m[i]? = none := by
  have hat : (m.map g)[i]? = none := by rw [← h, List.getElem?_map, hl, Option.map_none]
  rwa [List.getElem?_map, Option.map_eq_none_iff] at hat

end

/-- Where a tool stands: the number of its section and the number of its group in that section,
with the divider of the one and the joint and the braces of the other. -/
structure Seat where
  row : Nat
  column : Nat
  divider : Option Divider
  joint : Joint
  braced : Bool
  name : ToolName
  deriving DecidableEq, Repr

/-- The seats of a group with its number, in a section with this number and divider. -/
def Group.seats (row : Nat) (divider : Option Divider) (x : Group × Nat) : List Seat :=
  x.1.tools.map fun name => ⟨row, x.2, divider, x.1.joint, x.1.braced, name⟩

def Section.seats (x : Section × Nat) : List Seat :=
  x.1.groups.zipIdx.flatMap (Group.seats x.2 x.1.divider)

def Toolbar.seats (t : Toolbar) : List Seat := t.sections.zipIdx.flatMap Section.seats

namespace Seat

/-- What separates a seat `b` from a seat `a` before it. -/
def gap (a b : Seat) : Gap :=
  if a.row ≠ b.row then .divided b.divider
  else if a.column ≠ b.column then b.joint.gap
  else .within

/-- Puts before each tool what separates its seat from the seat before; `a` is the seat before the
first. -/
def placeFrom (a : Seat) : List Seat → List Placed
  | [] => []
  | b :: rest => ⟨a.gap b, b.braced, b.name⟩ :: placeFrom b rest

/-- The layout that some seats make. -/
def place : List Seat → List Placed
  | [] => []
  | a :: rest => ⟨.start, a.braced, a.name⟩ :: placeFrom a rest

variable {a b : Seat}

theorem gap_eq_divided_iff {d : Option Divider} :
    a.gap b = .divided d ↔ a.row ≠ b.row ∧ b.divider = d := by
  unfold gap
  split
  · next hrow => simp [hrow]
  · next hrow =>
      split
      · simp [b.joint.gap_ne_divided, hrow]
      · simp [hrow]

theorem gap_eq_joint_iff {j : Joint} :
    a.gap b = j.gap ↔ a.row = b.row ∧ a.column ≠ b.column ∧ b.joint = j := by
  unfold gap
  split
  · next hrow => simp [(j.gap_ne_divided _).symm, hrow]
  · next hrow =>
      rw [not_not] at hrow
      split
      · next hcolumn =>
          have hjoint : b.joint.gap = j.gap ↔ b.joint = j :=
            ⟨Joint.gap_injective, congrArg Joint.gap⟩
          simp [hjoint, hrow, hcolumn]
      · next hcolumn => simp [j.gap_ne_within.symm, hcolumn]

theorem gap_eq_within_iff : a.gap b = .within ↔ a.row = b.row ∧ a.column = b.column := by
  unfold gap
  split
  · next hrow => simp [hrow]
  · next hrow =>
      rw [not_not] at hrow
      split
      · next hcolumn => simp [b.joint.gap_ne_within, hcolumn]
      · next hcolumn => simpa [hrow] using hcolumn

/-- When a gap is known by cases, so is how the two seats stand to each other. -/
theorem gap_eq_ite_iff {P Q : Prop} [Decidable P] [Decidable Q] {d : Option Divider} {j : Joint} :
    a.gap b = (if P then .divided d else if Q then j.gap else .within) ↔
      (a.row ≠ b.row ↔ P) ∧ (a.row ≠ b.row → b.divider = d) ∧
        (a.row = b.row → (a.column ≠ b.column ↔ Q)) ∧
        (a.row = b.row → a.column ≠ b.column → b.joint = j) := by
  constructor
  · intro h
    split_ifs at h with hP hQ
    · obtain ⟨hrow, hd⟩ := gap_eq_divided_iff.mp h
      exact ⟨iff_of_true hrow hP, fun _ => hd, fun heq => absurd heq hrow,
        fun heq => absurd heq hrow⟩
    · obtain ⟨hrow, hcolumn, hj⟩ := gap_eq_joint_iff.mp h
      exact ⟨iff_of_false (not_not.mpr hrow) hP, fun hne => absurd hrow hne,
        fun _ => iff_of_true hcolumn hQ, fun _ _ => hj⟩
    · obtain ⟨hrow, hcolumn⟩ := gap_eq_within_iff.mp h
      exact ⟨iff_of_false (not_not.mpr hrow) hP, fun hne => absurd hrow hne,
        fun _ => iff_of_false (not_not.mpr hcolumn) hQ, fun _ hne => absurd hcolumn hne⟩
  · rintro ⟨hrow, hd, hcolumn, hj⟩
    split_ifs with hP hQ
    · exact gap_eq_divided_iff.mpr ⟨hrow.mpr hP, hd (hrow.mpr hP)⟩
    all_goals have heq : a.row = b.row := not_not.mp (mt hrow.mp hP)
    · have hne := (hcolumn heq).mpr hQ
      exact gap_eq_joint_iff.mpr ⟨heq, hne, hj heq hne⟩
    · exact gap_eq_within_iff.mpr ⟨heq, not_not.mp (mt (hcolumn heq).mp hQ)⟩

/-- The tools of one group have nothing between them. -/
theorem placeFrom_names_append (a : Seat) (names : List ToolName) (rest : List Seat) :
    placeFrom a (names.map (fun n => { a with name := n }) ++ rest) =
      names.map (fun n => ⟨.within, a.braced, n⟩) ++ placeFrom a rest := by
  induction names generalizing a with
  | nil => rfl
  | cons n names ih =>
      have hgap : a.gap { a with name := n } = .within := gap_eq_within_iff.mpr ⟨rfl, rfl⟩
      -- what separates a seat from `a` does not depend on the name of the tool on `a`
      have hrest : placeFrom { a with name := n } rest = placeFrom a rest := by
        cases rest <;> rfl
      have htail := ih { a with name := n }
      rw [hrest] at htail
      rw [List.map_cons, List.cons_append, placeFrom, hgap, htail]
      rfl

theorem map_place (l : List Seat) :
    (place l).map (fun x => (x.braced, x.name)) = l.map fun a => (a.braced, a.name) := by
  have hfrom : ∀ (a : Seat) (l : List Seat), (placeFrom a l).map (fun x => (x.braced, x.name)) =
      l.map fun a => (a.braced, a.name) := by
    intro a l
    induction l generalizing a with
    | nil => rfl
    | cons b l ih => rw [placeFrom, List.map_cons, List.map_cons, ih]
  cases l with
  | nil => rfl
  | cons a l => rw [place, List.map_cons, List.map_cons, hfrom]

theorem length_place (l : List Seat) : (place l).length = l.length := by
  have hmap := congrArg List.length (map_place l)
  rwa [List.length_map, List.length_map] at hmap

/-- The gap before a tool that is not the first is the gap between two neighbouring seats. -/
theorem exists_getElem?_of_place {l : List Seat} {i : Nat} {y : Placed}
    (h : (place l)[i + 1]? = some y) :
    ∃ a b, l[i]? = some a ∧ l[i + 1]? = some b ∧ y = ⟨a.gap b, b.braced, b.name⟩ := by
  have hfrom : ∀ {i : Nat} {a : Seat} {l : List Seat}, (placeFrom a l)[i]? = some y →
      ∃ x b, (a :: l)[i]? = some x ∧ l[i]? = some b ∧ y = ⟨x.gap b, b.braced, b.name⟩ := by
    intro i a l h
    induction l generalizing a i with
    | nil => simp [placeFrom] at h
    | cons b l ih =>
        cases i with
        | zero =>
            rw [placeFrom, List.getElem?_cons_zero, Option.some_inj] at h
            exact ⟨a, b, rfl, rfl, h.symm⟩
        | succ i =>
            rw [placeFrom, List.getElem?_cons_succ] at h
            exact ih h
  cases l with
  | nil => simp [place] at h
  | cons a l =>
      rw [place, List.getElem?_cons_succ] at h
      exact hfrom h

theorem getElem?_place_zero (l : List Seat) :
    (place l)[0]? = l[0]?.map fun a => ⟨.start, a.braced, a.name⟩ := by
  cases l <;> rfl

theorem getElem?_place_succ {l : List Seat} {i : Nat} (ha : l[i]? = some a)
    (hb : l[i + 1]? = some b) : (place l)[i + 1]? = some ⟨a.gap b, b.braced, b.name⟩ := by
  obtain ⟨y, hy, -⟩ := exists_getElem?_of_map_eq (map_place l).symm hb
  obtain ⟨a', b', ha', hb', rfl⟩ := exists_getElem?_of_place hy
  obtain rfl : a = a' := Option.some_inj.mp (ha.symm.trans ha')
  obtain rfl : b = b' := Option.some_inj.mp (hb.symm.trans hb')
  exact hy

end Seat

theorem Section.seats_mk (row : Nat) (d : Option Divider) (g : Group) (groups : List Group) :
    Section.seats (⟨d, g :: groups⟩, row) =
      Group.seats row d (g, 0) ++ (groups.zipIdx 1).flatMap (Group.seats row d) := by
  simp [seats, List.zipIdx_cons]

namespace Group

variable {row : Nat} {rest : List Mark} {R : List Seat}

theorem seats_eq_cons {g : Group} {n : ToolName} {ns : List ToolName} (hg : g.tools = n :: ns)
    (d : Option Divider) (column : Nat) :
    seats row d (g, column) =
      ⟨row, column, d, g.joint, g.braced, n⟩ ::
        ns.map fun m => ⟨row, column, d, g.joint, g.braced, m⟩ := by
  rw [seats, hg, List.map_cons]

theorem placeFrom_seats (hR : ∀ a : Seat, a.row = row → a.placeFrom R = Mark.place .within rest)
    {groups : List Group} (hne : ∀ g ∈ groups, g.tools ≠ []) {a : Seat} (hrow : a.row = row)
    {column : Nat} (hcolumn : a.column < column) (d : Option Divider) :
    a.placeFrom ((groups.zipIdx column).flatMap (seats row d) ++ R) =
      Mark.place .within (groups.flatMap marks ++ rest) := by
  induction groups generalizing a column with
  | nil => exact hR a hrow
  | cons g groups ih =>
      obtain ⟨n, ns, hg⟩ := List.exists_cons_of_ne_nil (hne g (by simp))
      let b : Seat := ⟨row, column, d, g.joint, g.braced, n⟩
      have hgap : a.gap b = g.joint.gap :=
        Seat.gap_eq_joint_iff.mpr ⟨hrow, Nat.ne_of_lt hcolumn, rfl⟩
      have htail := ih (fun x hx => hne x (List.mem_cons_of_mem _ hx)) (a := b) rfl
        (Nat.lt_succ_self column)
      rw [List.zipIdx_cons, List.flatMap_cons, List.append_assoc, seats_eq_cons hg,
        List.cons_append, Seat.placeFrom, hgap, Seat.placeFrom_names_append b, htail,
        List.flatMap_cons, List.append_assoc, place_marks hg, Gap.within_combine]
      rfl

end Group

namespace Section

/-- The first seat of a compact section, and how the seats after it are placed. -/
theorem IsCompact.exists_seats {s : Section} (hs : s.IsCompact) (row : Nat) :
    ∃ b tail, seats (s, row) = b :: tail ∧ b.row = row ∧ b.divider = s.divider ∧
      ∀ (d : Option Divider) (rest : List Mark) (R : List Seat),
        (∀ a : Seat, a.row = row → a.placeFrom R = Mark.place .within rest) →
        Mark.place (.divided d) (s.groups.flatMap Group.marks ++ rest) =
          ⟨.divided d, b.braced, b.name⟩ :: b.placeFrom (tail ++ R) := by
  obtain ⟨divider, groups⟩ := s
  obtain ⟨hgroups, hne, -, -⟩ := hs
  obtain ⟨g, groups, rfl⟩ := List.exists_cons_of_ne_nil hgroups
  obtain ⟨n, ns, hg⟩ := List.exists_cons_of_ne_nil (hne g (by simp))
  let b : Seat := ⟨row, 0, divider, g.joint, g.braced, n⟩
  refine ⟨b, _, by rw [seats_mk, Group.seats_eq_cons hg, List.cons_append], rfl, rfl, ?_⟩
  intro d rest R hR
  have htail := Group.placeFrom_seats hR (fun x hx => hne x (List.mem_cons_of_mem _ hx)) (a := b)
    rfl Nat.one_pos divider
  rw [List.append_assoc, Seat.placeFrom_names_append b, htail, List.flatMap_cons,
    List.append_assoc, Group.place_marks hg, Gap.divided_combine_joint]
  rfl

theorem placeFrom_seats {sections : List Section} (hs : ∀ s ∈ sections, s.IsCompact) {a : Seat}
    {row : Nat} (hrow : a.row < row) :
    a.placeFrom ((sections.zipIdx row).flatMap seats) =
      Mark.place .within (sections.flatMap marks) := by
  induction sections generalizing a row with
  | nil => rfl
  | cons s sections ih =>
      obtain ⟨b, tail, hseats, hb, hdivider, hplace⟩ := (hs s (by simp)).exists_seats row
      have hgap : a.gap b = .divided s.divider :=
        Seat.gap_eq_divided_iff.mpr ⟨hb ▸ Nat.ne_of_lt hrow, hdivider⟩
      have htail : ∀ c : Seat, c.row = row →
          c.placeFrom ((sections.zipIdx (row + 1)).flatMap seats) =
            Mark.place .within (sections.flatMap marks) := fun c hc =>
        ih (fun x hx => hs x (List.mem_cons_of_mem _ hx)) (hc ▸ Nat.lt_succ_self row)
      rw [List.zipIdx_cons, List.flatMap_cons, hseats, List.cons_append, Seat.placeFrom, hgap,
        List.flatMap_cons, marks, List.cons_append, Mark.place_gap, Gap.within_combine,
        hplace s.divider _ _ htail]

end Section

namespace Toolbar

/-- A compact toolbar has the layout that its seats make. -/
theorem IsCompact.place_seats {t : Toolbar} (ht : t.IsCompact) : Seat.place t.seats = t.layout := by
  obtain ⟨sections⟩ := t
  cases sections with
  | nil => rfl
  | cons s sections =>
      obtain ⟨b, tail, hseats, hb, -, hplace⟩ := (ht.sections s (by simp)).exists_seats 0
      have htail : ∀ c : Seat, c.row = 0 →
          c.placeFrom ((sections.zipIdx 1).flatMap Section.seats) =
            Mark.place .within (sections.flatMap Section.marks) := fun c hc =>
        Section.placeFrom_seats (fun x hx => ht.sections x (List.mem_cons_of_mem _ hx))
          (hc ▸ Nat.one_pos)
      rw [layout, marks, List.flatMap_cons, Section.marks, List.cons_append, Mark.place_gap,
        Gap.start_combine]
      rw [seats, List.zipIdx_cons, List.flatMap_cons, hseats, List.cons_append, Seat.place]
      exact (hplace (some .slash) _ _ htail).symm

theorem IsCompact.map_name_seats {t : Toolbar} (ht : t.IsCompact) :
    t.seats.map Seat.name = t.tools := by
  have hplace := congrArg (List.map Prod.snd) (Seat.map_place t.seats)
  rw [ht.place_seats, List.map_map, List.map_map] at hplace
  rw [← map_name_layout]
  exact hplace.symm

/-- Seats number the sections and the groups from the left. -/
theorem exists_getElem?_of_mem_seats {t : Toolbar} {a : Seat} (h : a ∈ t.seats) :
    ∃ s g, t.sections[a.row]? = some s ∧ s.groups[a.column]? = some g ∧ a.name ∈ g.tools ∧
      a.divider = s.divider ∧ a.joint = g.joint ∧ a.braced = g.braced := by
  obtain ⟨⟨s, row⟩, hs, h⟩ := List.mem_flatMap.mp h
  obtain ⟨⟨g, column⟩, hg, h⟩ := List.mem_flatMap.mp h
  obtain ⟨name, hname, rfl⟩ := List.mem_map.mp h
  exact ⟨s, g, List.mem_zipIdx_iff_getElem?.mp hs, List.mem_zipIdx_iff_getElem?.mp hg, hname,
    rfl, rfl, rfl⟩

end Toolbar

end EditorToolbar
