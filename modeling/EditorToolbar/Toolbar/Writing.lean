import EditorToolbar.Toolbar.Compact

/-!
# Writing a toolbar

A compacted toolbar is written with the fewest separators that keep its structure. Tools of a
group are joined by commas and braces enclose a braced group. Between two groups stands a pipe, or
nothing where braces already separate them; two bare groups that are merely adjacent are one list,
so a comma stands between them. A section is preceded by its divider.

`Toolbar.toText` compacts first, so what it writes has no empty parts and no separator that
separates nothing.
-/

namespace EditorToolbar

namespace Group

/-- A group as it is written, without what attaches it. -/
def write (g : Group) : Text :=
  let names := Text.join [','] g.tools
  if g.braced then '{' :: names ++ ['}'] else names

/-- What is written between two neighbouring groups. -/
def between (g h : Group) : Text :=
  match h.joint with
  | .pipe => ['|']
  | .adjacent => if g.braced || h.braced then [] else [',']

/-- Neighbouring groups as they are written. -/
def writeAll : List Group → Text
  | [] => []
  | [g] => g.write
  | g :: h :: rest => g.write ++ g.between h ++ writeAll (h :: rest)

end Group

/-- A section as it is written, after its divider. -/
def Section.write (s : Section) : Text :=
  (s.divider.map Divider.toChar).toList ++ Group.writeAll s.groups

/-- A toolbar as it is written, every part of it. -/
def Toolbar.write (t : Toolbar) : Text := t.sections.flatMap Section.write

def Toolbar.toText (t : Toolbar) : Text := t.compact.write

end EditorToolbar
