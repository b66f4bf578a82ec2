import EditorToolbar.Text.Basic

/-!
# The default settings file

The library comes with a settings file of its own. Other settings files are laid over it, so that
they need only the keys they change.
-/

namespace EditorToolbar.Settings

def defaultLines : List Text :=
  ["# Default settings for rte-toolbar.".toList,
   "#".toList,
   "# This file is embedded into the library; user files passed with --config are".toList,
   "# layered on top of it, so they only need the keys they change.".toList,
   "".toList,
   "[normalize]".toList,
   "# \"structural\" excludes tools on the parsed toolbar, \"textual\" cuts whole words".toList,
   "# out of the raw string and repairs the leftovers.".toList,
   "strategy = \"structural\"".toList,
   "# Preset used when normalization leaves nothing.".toList,
   "fallback_preset = \"BASIC\"".toList,
   "# Runs of at least this many single-letter tools are rejoined into one tool.".toList,
   "min_fragment_run = 3".toList,
   "".toList,
   "[mobile]".toList,
   "# Tools already present on the mobile basic toolbar; removed from the".toList,
   "# \"more\" toolbar.".toList,
   "basic_tools = [".toList,
   "    \"paragraphs:dropdown\",".toList,
   "    \"paragraphs:toggle\",".toList,
   "    \"fontname:toggle\",".toList,
   "    \"fontsize:toggle\",".toList,
   "    \"bold\",".toList,
   "    \"italic\",".toList,
   "    \"underline\",".toList,
   "    \"fontname\",".toList,
   "    \"fontsize\",".toList,
   "    \"insertlink\",".toList,
   "    \"insertemoji\",".toList,
   "    \"insertimage\",".toList,
   "    \"insertvideo\",".toList,
   "    \"removeformat\",".toList,
   "    \"code\",".toList,
   "    \"toggleborder\",".toList,
   "    \"fullscreenenter\",".toList,
   "    \"fullscreenexit\",".toList,
   "    \"undo\",".toList,
   "    \"redo\",".toList,
   "    \"togglemore\",".toList,
   "    \"fontname:dropdown\",".toList,
   "    \"fontsize:dropdown\",".toList,
   "]".toList,
   "default_toolbar = \"\"\"".toList,
   "\x7bstrike,subscript,superscript\x7d|\x7bforecolor,backcolor\x7d|".toList,
   "\x7bjustifyleft,justifycenter,justifyright,justifyfull\x7d|".toList,
   "\x7binsertorderedlist,insertunorderedlist\x7d|\x7boutdent,indent\x7d|".toList,
   "\x7binserthorizontalrule,insertblockquote,inserttable\x7d|".toList,
   "\x7bcut,copy,paste,pastetext,pasteword\x7d|".toList,
   "\x7bfind,replace\x7d|\x7bselectall,print,spellcheck\x7d|\x7bhelp\x7d".toList,
   "\"\"\"".toList,
   "".toList,
   "[editor]".toList,
   "toolbar_mobile = \"basic\"".toList]

def defaultFile : Text := defaultLines.flatMap fun line => line ++ ['\n']

end EditorToolbar.Settings
