import EditorToolbar.Toolbar.Compact

/-!
# The layout of a toolbar

What a toolbar means is where its tools stand. Its `layout` is the list of its tools, each with the
`Gap` that separates it from the tool before it and with whether it stands in braces. Gaps are
ordered by strength. Where tools have fallen away, several gaps come together and the strongest one
counts, so nothing else about empty groups and sections has to be remembered. The first tool has
nothing before it; it gets the strongest gap of all, `Gap.start`, which absorbs whatever else stands
at the front.

A layout is made in two steps. `marks` writes a toolbar as a flat list of gaps and tools, and
`Mark.place` combines the gaps that precede each tool. So the operations on toolbars can be stated
on marks: removing tools is filtering, and a text that is read produces marks of its own.

A seam between two bare tools separates nothing that could be seen; `Placed.fuseFrom` turns it into
no gap at all. That two layouts agree after fusing is what it means for two toolbars to be the same
for every reader.
-/

namespace EditorToolbar

/-- What separates a tool from the tool before it, in order of strength: nothing but a comma, the
edge of a group, a pipe, or the beginning of a section with its divider. -/
inductive Gap where
  | within
  | seam
  | pipe
  | divided (d : Option Divider)
  deriving DecidableEq, Repr

namespace Gap

/-- The stronger of two gaps. -/
def combine : Gap → Gap → Gap
  | divided d, divided d' => divided (Divider.combine? d d')
  | divided d, _ => divided d
  | _, divided d => divided d
  | pipe, _ => pipe
  | _, pipe => pipe
  | seam, _ => seam
  | within, g => g

/-- The gap before the first tool. No gap is stronger. -/
def start : Gap := divided (some .slash)

/-- A seam between two bare tools is no gap. -/
def fuse (before after : Bool) (g : Gap) : Gap :=
  if g = seam ∧ before = false ∧ after = false then within else g

@[simp] theorem within_combine (g : Gap) : combine within g = g := by cases g <;> rfl

@[simp] theorem combine_within (g : Gap) : combine g within = g := by cases g <;> rfl

theorem combine_assoc (a b c : Gap) : (a.combine b).combine c = a.combine (b.combine c) := by
  cases a <;> cases b <;> cases c <;> simp [combine, Divider.combine?_assoc]

@[simp] theorem start_combine (g : Gap) : start.combine g = start := by
  cases g with
  | divided d => cases d <;> rfl
  | _ => rfl

@[simp] theorem divided_combine_divided (d d' : Option Divider) :
    combine (divided d) (divided d') = divided (Divider.combine? d d') := rfl

theorem eq_within_of_combine {a b : Gap} (h : a.combine b = within) : a = within ∧ b = within := by
  cases a <;> cases b <;> simp_all [combine]

@[simp] theorem combine_seam_of_ne {g : Gap} (h : g ≠ within) : g.combine seam = g := by
  cases g <;> first | rfl | exact absurd rfl h

@[simp] theorem fuse_left (after : Bool) (g : Gap) : fuse true after g = g := by simp [fuse]

@[simp] theorem fuse_right (before : Bool) (g : Gap) : fuse before true g = g := by simp [fuse]

theorem fuse_of_ne {g : Gap} (before after : Bool) (h : g ≠ seam) : fuse before after g = g := by
  simp [fuse, h]

end Gap

def Joint.gap : Joint → Gap
  | .adjacent => .seam
  | .pipe => .pipe

@[simp] theorem Joint.gap_combine (j k : Joint) : (j.combine k).gap = j.gap.combine k.gap := by
  cases j <;> cases k <;> rfl

theorem Joint.gap_ne_within (j : Joint) : j.gap ≠ .within := by cases j <;> simp [gap]

theorem Joint.gap_ne_divided (j : Joint) (d : Option Divider) : j.gap ≠ .divided d := by
  cases j <;> simp [gap]

theorem Joint.gap_injective {j k : Joint} (h : j.gap = k.gap) : j = k := by
  cases j <;> cases k <;> simp_all [gap]

/-- A tool in its place: the gap before it, and whether it stands in braces. -/
structure Placed where
  gap : Gap
  braced : Bool
  name : ToolName
  deriving DecidableEq, Repr

/-- A gap or a tool, one after another. -/
inductive Mark where
  | gap (g : Gap)
  | tool (braced : Bool) (name : ToolName)
  deriving DecidableEq, Repr

namespace Mark

/-- Whether a mark stays when only some tools are kept. -/
def isKept (keep : ToolName → Bool) : Mark → Bool
  | gap _ => true
  | tool _ name => keep name

def tools : List Mark → List ToolName
  | [] => []
  | gap _ :: rest => tools rest
  | tool _ name :: rest => name :: tools rest

/-- Gives each tool the strongest of the gaps before it; `pending` has been passed already. -/
def place : Gap → List Mark → List Placed
  | _, [] => []
  | pending, gap g :: rest => place (pending.combine g) rest
  | pending, tool braced name :: rest => ⟨pending, braced, name⟩ :: place .within rest

@[simp] theorem isKept_gap (keep : ToolName → Bool) (g : Gap) : isKept keep (gap g) = true := rfl

@[simp] theorem isKept_tool (keep : ToolName → Bool) (braced : Bool) (name : ToolName) :
    isKept keep (tool braced name) = keep name := rfl

@[simp] theorem place_nil (pending : Gap) : place pending [] = [] := rfl

@[simp] theorem place_gap (pending g : Gap) (rest : List Mark) :
    place pending (gap g :: rest) = place (pending.combine g) rest := rfl

@[simp] theorem place_tool (pending : Gap) (braced : Bool) (name : ToolName) (rest : List Mark) :
    place pending (tool braced name :: rest) = ⟨pending, braced, name⟩ :: place .within rest := rfl

theorem map_name_place (pending : Gap) (marks : List Mark) :
    (place pending marks).map Placed.name = tools marks := by
  induction marks generalizing pending with
  | nil => rfl
  | cons m marks ih => cases m <;> simp [ih, tools]

@[simp] theorem tools_append (l m : List Mark) : tools (l ++ m) = tools l ++ tools m := by
  induction l with
  | nil => rfl
  | cons x l ih => cases x <;> simp [tools, ih]

@[simp] theorem tools_map_tool (braced : Bool) (names : List ToolName) :
    tools (names.map (tool braced)) = names := by
  induction names with
  | nil => rfl
  | cons n names ih => simp [tools, ih]

/-- What follows some marks may be replaced by what is placed alike after every gap. -/
theorem place_append_congr {r s : List Mark} (h : ∀ g, place g r = place g s) (pending : Gap)
    (marks : List Mark) : place pending (marks ++ r) = place pending (marks ++ s) := by
  induction marks generalizing pending with
  | nil => exact h pending
  | cons m marks ih => cases m <;> simp [ih]

theorem place_tools_append (pending : Gap) (braced : Bool) (name : ToolName)
    (names : List ToolName) (rest : List Mark) :
    place pending ((name :: names).map (tool braced) ++ rest) =
      ⟨pending, braced, name⟩ :: names.map (fun n => ⟨.within, braced, n⟩) ++
        place .within rest := by
  induction names generalizing pending name with
  | nil => rfl
  | cons n names ih => simpa using ih .within n

end Mark

def Group.marks (g : Group) : List Mark := .gap g.joint.gap :: g.tools.map (.tool g.braced)

def Section.marks (s : Section) : List Mark :=
  .gap (.divided s.divider) :: s.groups.flatMap Group.marks

namespace Toolbar

def marks (t : Toolbar) : List Mark := t.sections.flatMap Section.marks

/-- The tools of a toolbar in their places. -/
def layout (t : Toolbar) : List Placed := Mark.place .start t.marks

end Toolbar

namespace Placed

/-- Fuses the seams between bare tools; `before` says whether the tool before stands in braces. -/
def fuseFrom : Bool → List Placed → List Placed
  | _, [] => []
  | before, x :: rest =>
    { x with gap := x.gap.fuse before x.braced } :: fuseFrom x.braced rest

/-- Keeps some of the tools. The gap of a tool that is dropped passes to the next tool kept. -/
def thinFrom (keep : ToolName → Bool) : Gap → List Placed → List Placed
  | _, [] => []
  | pending, x :: rest =>
    if keep x.name then { x with gap := pending.combine x.gap } :: thinFrom keep .within rest
    else thinFrom keep (pending.combine x.gap) rest

/-- In a coherent layout braces begin and end only at gaps; `before` says whether the tool before
stands in braces. -/
def Coherent : Bool → List Placed → Prop
  | _, [] => True
  | before, x :: rest => (x.gap = .within → x.braced = before) ∧ Coherent x.braced rest

@[simp] theorem fuseFrom_nil (before : Bool) : fuseFrom before [] = [] := rfl

@[simp] theorem fuseFrom_cons (before : Bool) (x : Placed) (rest : List Placed) :
    fuseFrom before (x :: rest) =
      { x with gap := x.gap.fuse before x.braced } :: fuseFrom x.braced rest := rfl

@[simp] theorem coherent_nil (before : Bool) : Coherent before [] := trivial

@[simp] theorem coherent_cons (before : Bool) (x : Placed) (rest : List Placed) :
    Coherent before (x :: rest) ↔ (x.gap = .within → x.braced = before) ∧ Coherent x.braced rest :=
  Iff.rfl

@[simp] theorem map_name_fuseFrom (before : Bool) (l : List Placed) :
    (fuseFrom before l).map name = l.map name := by
  induction l generalizing before with
  | nil => rfl
  | cons x l ih => simp [ih]

end Placed

/-- A group that has tools, placed: its joint adds to the gap before the first of them. -/
theorem Group.place_marks {g : Group} {n : ToolName} {ns : List ToolName} (hg : g.tools = n :: ns)
    (p : Gap) (l : List Mark) :
    Mark.place p (g.marks ++ l) =
      ⟨p.combine g.joint.gap, g.braced, n⟩ ::
        ns.map (fun m => ⟨.within, g.braced, m⟩) ++ Mark.place .within l := by
  rw [marks, List.cons_append, Mark.place_gap, hg, Mark.place_tools_append]

theorem Group.coherent_place_tools {before braced : Bool} {pending : Gap} {names : List ToolName}
    {rest : List Mark} (h : pending = .within → braced = before)
    (hrest : ∀ b g, Placed.Coherent b (Mark.place g rest)) :
    Placed.Coherent before (Mark.place pending (names.map (.tool braced) ++ rest)) := by
  induction names generalizing before pending with
  | nil => exact hrest before pending
  | cons name names ih =>
      rw [List.map_cons, List.cons_append, Mark.place_tool, Placed.coherent_cons]
      exact ⟨h, ih fun _ => rfl⟩

/-- A group begins with a joint, so it may follow anything. -/
theorem Group.coherent_place_marks {groups : List Group} {rest : List Mark}
    (hrest : ∀ b g, Placed.Coherent b (Mark.place g rest)) (before : Bool) (pending : Gap) :
    Placed.Coherent before (Mark.place pending (groups.flatMap Group.marks ++ rest)) := by
  induction groups generalizing before pending with
  | nil => exact hrest before pending
  | cons g groups ih =>
      rw [List.flatMap_cons, List.append_assoc, Group.marks, List.cons_append, Mark.place_gap]
      refine coherent_place_tools (fun h => ?_) ih
      exact absurd (Gap.eq_within_of_combine h).2 g.joint.gap_ne_within

namespace Toolbar

theorem coherent_layout (t : Toolbar) (before : Bool) : Placed.Coherent before t.layout := by
  have hsections : ∀ (sections : List Section) (b : Bool) (g : Gap),
      Placed.Coherent b (Mark.place g (sections.flatMap Section.marks)) := by
    intro sections
    induction sections with
    | nil => intro b g; trivial
    | cons s sections ih =>
        intro b g
        rw [List.flatMap_cons, Section.marks, List.cons_append, Mark.place_gap]
        exact Group.coherent_place_marks ih b _
  exact hsections t.sections before _

@[simp] theorem map_name_layout (t : Toolbar) : t.layout.map Placed.name = t.tools := by
  have hgroups : ∀ l : List Group, Mark.tools (l.flatMap Group.marks) = l.flatMap Group.tools := by
    intro l
    induction l with
    | nil => rfl
    | cons g l ih => simp [Group.marks, Mark.tools, ih]
  obtain ⟨sections⟩ := t
  rw [layout, Mark.map_name_place, marks]
  induction sections with
  | nil => rfl
  | cons s sections ih =>
      rw [tools_cons, List.flatMap_cons, Mark.tools_append, ih, Section.marks, Mark.tools, hgroups,
        Section.tools]

end Toolbar

end EditorToolbar
