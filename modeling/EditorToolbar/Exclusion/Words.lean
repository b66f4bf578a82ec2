import EditorToolbar.Exclusion.Basic
import EditorToolbar.Text.Deletion
import EditorToolbar.Text.Letter

/-!
# Cutting words out of a text

Instead of removing tools from a toolbar one can cut their names out of its text, before it is
read. A name is cut only where it stands as a whole word: at an end of the name that is a name
letter there must be a word boundary. Separators are left behind, as in `{,italic}`, for repair to
clean up.
-/

namespace EditorToolbar

/-- Whether an occurrence of `word` between two neighbours stands as a whole word. -/
def standsAlone (word : Text) (before after : Option Char) : Bool :=
  (!word.head?.any Text.isNameLetter || Text.isBoundary before word.head?) &&
    (!word.getLast?.any Text.isNameLetter || Text.isBoundary word.getLast? after)

/-- Cuts a word out of a text wherever it stands alone. -/
def cutWord (word text : Text) : Text := Text.deleteWhere (standsAlone word) word text

/-- Cuts the names of a set out of a text, one name after another. Each name is looked for, however
long it is; that a search skips names which are too long for it is not modelled. -/
def ExclusionSet.cutWords (e : ExclusionSet) (text : Text) : Text :=
  e.names.foldl (fun t name => cutWord name t) text

/-- What cutting one of the names preserves, cutting all of them preserves. -/
theorem ExclusionSet.cutWords_induction {motive : Text → Prop} {e : ExclusionSet}
    (hcut : ∀ name ∈ e.names, ∀ t, motive t → motive (cutWord name t)) {text : Text}
    (htext : motive text) : motive (e.cutWords text) :=
  List.foldlRecOn e.names _ htext fun t ht name hname => hcut name hname t ht

end EditorToolbar
