import EditorToolbar.CommandLine.Program

/-!
# Entry point

Looks up what the arguments refer to, hands it to `CommandLine.run` and prints what comes back. A
file is read only if the arguments name it, and the standard input only if they ask for it.
-/

namespace EditorToolbar.CommandLine

/-- The text of a file, if there is such a file and it holds text. -/
def readTextFile (path : Text) : BaseIO (Option Text) := do
  match ← (IO.FS.readFile (String.ofList path)).toBaseIO with
  | .ok content => return some content.toList
  | .error _ => return none

def readInput : IO (Option Text) := do
  let bytes ← (← IO.getStdin).readBinToEnd
  return (String.fromUTF8? bytes).map String.toList

/-- The part of the world that some arguments refer to. -/
def worldFor (arguments : List Text) : IO World := do
  match Invocation.ofArguments arguments with
  | .error _ => return { file := fun _ => none, input := none }
  | .ok i =>
    let paths := (i.settingsPath.map settingsCandidates).getD []
    let files ← paths.mapM fun path => return (path, ← readTextFile path)
    let input ← if i.readsInput then readInput else pure none
    return { file := fun path => (files.lookup path).join, input }

end EditorToolbar.CommandLine

open EditorToolbar EditorToolbar.CommandLine in
/-- Runs the program. Misuse ends in status 2, any other failure in status 1. -/
def main (arguments : List String) : IO UInt32 := do
  let arguments := arguments.map String.toList
  match run arguments (← worldFor arguments) with
  | .printed output =>
    IO.print (String.ofList output)
    return 0
  | .failed message =>
    IO.eprintln (String.ofList message)
    return 1
  | .misused =>
    IO.eprintln (String.ofList usageText)
    return 2
