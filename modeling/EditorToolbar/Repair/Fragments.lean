import EditorToolbar.Settling
import EditorToolbar.Toolbar.Basic

/-!
# Rejoining fragments

A tool that has been spelled out, as in `b,o,l,d`, is a run of one-letter tools. `rejoin` makes one
tool of each run that is long enough and leaves shorter runs alone, since a toolbar may well have
a few genuine one-letter tools.
-/

namespace EditorToolbar.Fragments

/-- A fragment is a tool named by one small ASCII letter. -/
def isFragment : ToolName → Bool
  | [c] => c.isLower
  | _ => false

/-- A complete run of fragments as it is kept: joined to one tool if it has at least `minRun`
of them. -/
def flush (minRun : Nat) (run : List ToolName) : List ToolName :=
  if minRun ≤ run.length then [run.flatten] else run

/-- Joins the runs in a list of tools, which `run`, a run of fragments, precedes. -/
def rejoinFrom (minRun : Nat) : List ToolName → List ToolName → List ToolName
  | run, [] => flush minRun run
  | run, tool :: rest =>
    if isFragment tool then rejoinFrom minRun (run ++ [tool]) rest
    else flush minRun run ++ tool :: rejoinFrom minRun [] rest

/-- Joins each longest run of at least `minRun` fragments. -/
def rejoinOnce (minRun : Nat) (tools : List ToolName) : List ToolName :=
  rejoinFrom minRun [] tools

/-- Joins runs of at least `minRun` fragments until there are none. A limit below two asks for
no joining at all. -/
def rejoin (minRun : Nat) (tools : List ToolName) : List ToolName :=
  if minRun < 2 then tools else settle (rejoinOnce minRun) (tools.length + 1) tools

@[simp] theorem isFragment_nil : isFragment [] = false := rfl

@[simp] theorem isFragment_singleton (c : Char) : isFragment [c] = c.isLower := rfl

@[simp] theorem isFragment_cons_cons (c d : Char) (r : Text) :
    isFragment (c :: d :: r) = false := rfl

@[simp] theorem flatten_flush (minRun : Nat) (run : List ToolName) :
    (flush minRun run).flatten = run.flatten := by
  unfold flush
  split <;> simp

theorem flatten_rejoinFrom (minRun : Nat) (run tools : List ToolName) :
    (rejoinFrom minRun run tools).flatten = run.flatten ++ tools.flatten := by
  induction tools generalizing run with
  | nil => simp [rejoinFrom]
  | cons tool rest ih =>
    rw [rejoinFrom]
    split
    · simp [ih]
    · simp [ih]

end EditorToolbar.Fragments
