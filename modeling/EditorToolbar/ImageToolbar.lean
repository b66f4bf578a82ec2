import EditorToolbar.Error

/-!
# The image toolbar

The editor shows a toolbar of its own while an image is selected. It is given as a list of image
tools and row breaks; the tools of a row form one group in braces and rows are separated by
slashes. Rows without tools are left out.
-/

namespace EditorToolbar

inductive ImageTool where
  | menuControlsize
  | imagecaption
  | controlalt
  | controlinsertlink
  | controleditlink
  | controlopenlink
  | controlunlink
  | menuControljustify
  | imagestyle
  | delete
  deriving DecidableEq, Repr

namespace ImageTool

def all : List ImageTool :=
  [menuControlsize, imagecaption, controlalt, controlinsertlink, controleditlink, controlopenlink,
    controlunlink, menuControljustify, imagestyle, delete]

def name : ImageTool → Text
  | menuControlsize => "menu_controlsize".toList
  | imagecaption => "imagecaption".toList
  | controlalt => "controlalt".toList
  | controlinsertlink => "controlinsertlink".toList
  | controleditlink => "controleditlink".toList
  | controlopenlink => "controlopenlink".toList
  | controlunlink => "controlunlink".toList
  | menuControljustify => "menu_controljustify".toList
  | imagestyle => "imagestyle".toList
  | delete => "delete".toList

def ofName? (given : Text) : Option ImageTool := all.find? fun t => t.name == given

/-- The image tool that a user means by a name: blanks around it do not matter. -/
def ofText (given : Text) : Except NameError ImageTool :=
  match ofName? given.trim with
  | some t => .ok t
  | none => .error (.imageTool given)

end ImageTool

inductive ImageItem where
  | tool (t : ImageTool)
  | rowBreak
  deriving DecidableEq, Repr

/-- The item that a user means: a slash is a row break, anything else the name of a tool. -/
def ImageItem.ofText (given : Text) : Except NameError ImageItem :=
  if given.trim = ['/'] then .ok .rowBreak else (ImageTool.ofText given).map .tool

namespace ImageToolbar

/-- The rows between the row breaks; one more than there are breaks. -/
def rows : List ImageItem → List (List ImageTool)
  | [] => [[]]
  | .rowBreak :: rest => [] :: rows rest
  | .tool t :: rest =>
    match rows rest with
    | [] => [[t]]
    | row :: more => (t :: row) :: more

def writeRow (row : List ImageTool) : Text :=
  '{' :: Text.join [','] (row.map ImageTool.name) ++ ['}']

def toText (items : List ImageItem) : Text :=
  Text.join ['/'] (((rows items).filter fun row => !row.isEmpty).map writeRow)

end ImageToolbar

end EditorToolbar
