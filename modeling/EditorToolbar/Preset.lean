import EditorToolbar.Error

/-!
# Presets

The toolbars that come with the editor. `full` is deliberately irregular: groups in braces follow
each other directly, pipes stand inside braces, and there are loose blanks around its dividers.
-/

namespace EditorToolbar

/-- A toolbar that comes with the editor. -/
inductive Preset where
  | basic
  | standard
  | full
  | minimal
  deriving DecidableEq, Repr

namespace Preset

def all : List Preset := [basic, standard, full, minimal]

def name : Preset → Text
  | basic => "BASIC".toList
  | standard => "STANDARD".toList
  | full => "FULL".toList
  | minimal => "MINIMAL".toList

def toolbar : Preset → Text
  | basic =>
    "bold,italic,underline|fontname,fontsize|forecolor,backcolor|removeformat".toList
  | standard =>
    "bold,italic,underline,strikethrough|fontname,fontsize|forecolor,backcolor".toList ++
      "|removeformat|undo,redo".toList
  | full =>
    "\x7bbold,italic,underline,forecolor,backcolor\x7d".toList ++
      "|\x7bjustifyleft,justifycenter,justifyright,justifyfull\x7d".toList ++
      "|\x7binsertorderedlist,insertunorderedlist,indent,outdent\x7d".toList ++
      "\x7bsuperscript,subscript\x7d".toList ++
      " #\x7bparagraphs:toggle,fontname:toggle,fontsize:toggle,inlinestyle,lineheight\x7d".toList ++
      " / \x7bremoveformat,cut,copy,paste,delete,find\x7d".toList ++
      "|\x7binsertlink,unlink,insertblockquote,insertemoji,insertchars,inserttable".toList ++
      ",insertimage,insertgallery,insertvideo,insertdocument,insertcode\x7d".toList ++
      "#\x7bpreview,code,selectall\x7d".toList ++
      " /\x7bparagraphs:dropdown | fontname:dropdown | fontsize:dropdown\x7d".toList ++
      " \x7bparagraphstyle,toggle_paragraphop,menu_paragraphop\x7d".toList ++
      "#\x7btoggleborder,fullscreenenter,fullscreenexit,undo,redo,togglemore\x7d".toList
  | minimal => "bold,italic|fontsize|forecolor|removeformat".toList

def ofName? (given : Text) : Option Preset := all.find? fun p => p.name == given

/-- The preset that a user means by a name: blanks around it and the case of its letters do not
matter. -/
def ofText (given : Text) : Except NameError Preset :=
  match all.find? fun p => p.name.sameLetters given.trim with
  | some p => .ok p
  | none => .error (.preset given)

end Preset

end EditorToolbar
