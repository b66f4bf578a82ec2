import EditorToolbar.Normalizer

/-!
# The mobile toolbar

On small screens the editor shows a basic toolbar, and a second toolbar with more tools on demand.
The second one is derived from a preset by removing the tools that the basic toolbar has already,
and those the caller excludes. When nothing is left, or there is no preset, a default toolbar takes
its place.
-/

namespace EditorToolbar

/-- The tools of the basic mobile toolbar and the default for the toolbar with more tools. -/
structure MobileToolbar where
  basicTools : ExclusionSet
  default : Text
  deriving DecidableEq, Repr

namespace MobileToolbar

def standardTools : List Text :=
  ["paragraphs:dropdown".toList, "paragraphs:toggle".toList, "fontname:toggle".toList,
    "fontsize:toggle".toList, "bold".toList, "italic".toList, "underline".toList,
    "fontname".toList, "fontsize".toList, "insertlink".toList, "insertemoji".toList,
    "insertimage".toList, "insertvideo".toList, "removeformat".toList, "code".toList,
    "toggleborder".toList, "fullscreenenter".toList, "fullscreenexit".toList, "undo".toList,
    "redo".toList, "togglemore".toList, "fontname:dropdown".toList, "fontsize:dropdown".toList]

def standardRows : List Text :=
  ["\x7bstrike,subscript,superscript\x7d|\x7bforecolor,backcolor\x7d|".toList,
    "\x7bjustifyleft,justifycenter,justifyright,justifyfull\x7d|".toList,
    "\x7binsertorderedlist,insertunorderedlist\x7d|\x7boutdent,indent\x7d|".toList,
    "\x7binserthorizontalrule,insertblockquote,inserttable\x7d|".toList,
    "\x7bcut,copy,paste,pastetext,pasteword\x7d|".toList,
    "\x7bfind,replace\x7d|\x7bselectall,print,spellcheck\x7d|\x7bhelp\x7d".toList]

def standard : MobileToolbar :=
  ⟨ExclusionSet.ofNames standardTools, standardRows.flatten⟩

def deriveDefault (m : MobileToolbar) (n : Normalizer) : Text := n.normalize {} m.default

/-- The toolbar with more tools for a preset. -/
def derive (m : MobileToolbar) (n : Normalizer) (preset : Option Preset) (e : ExclusionSet) :
    Text :=
  match preset with
  | none => m.deriveDefault n
  | some p =>
    let derived := n.normalize (m.basicTools.chain e) p.toolbar
    if derived.isEmpty then m.deriveDefault n else derived

end MobileToolbar

end EditorToolbar
