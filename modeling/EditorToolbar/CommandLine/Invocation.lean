import EditorToolbar.CommandLine.Arguments

/-!
# Invocations

The commands of the program with their options. Options about settings may stand before the
command or after it, and the ones after it win. All other options belong to a command and follow
it.
-/

namespace EditorToolbar.CommandLine

inductive Format where
  | json
  | yaml
  deriving DecidableEq, Repr

inductive Command where
  | normalize (toolbar : Text) (excluded : List Text) (asJson : Bool)
  | preset (name : Text) (excluded : List Text)
  | mobile (name : Text) (excluded : List Text)
  | config (name : Option Text) (excluded : List Text) (imageItems : Option (List Text))
      (format : Format)
  | presets
  deriving DecidableEq, Repr

structure Invocation where
  settingsPath : Option Text
  strategy : Option Text
  fallback : Option Text
  command : Command
  deriving DecidableEq, Repr

def configRule : OptionRule := { long := "config".toList, short := 'c', effect := .value }

def strategyRule : OptionRule := { long := "strategy".toList, short := 's', effect := .value }

def fallbackRule : OptionRule := { long := "fallback".toList, effect := .value }

def verboseRule : OptionRule :=
  { long := "verbose".toList, short := 'v', effect := .flag, repeats := true }

def helpRule : OptionRule := { long := "help".toList, short := 'h', effect := .stop .help }

def versionRule : OptionRule := { long := "version".toList, short := 'V', effect := .stop .version }

def excludeRule : OptionRule :=
  { long := "exclude".toList, short := 'x', effect := .value, repeats := true }

def jsonRule : OptionRule := { long := "json".toList, effect := .flag }

def imageToolRule : OptionRule :=
  { long := "image-tool".toList, short := 'i', effect := .value, repeats := true }

def formatRule : OptionRule := { long := "format".toList, short := 'f', effect := .value }

def sharedRules : List OptionRule := [configRule, strategyRule, fallbackRule, verboseRule, helpRule]

def commandLevel (own : List OptionRule) : Level := { rules := sharedRules ++ own }

def helpWord : Text := "help".toList

def topLevel : Level where
  rules := sharedRules ++ [versionRule]
  subcommands :=
    ["normalize".toList, "preset".toList, "mobile".toList, "config".toList, "presets".toList,
      helpWord]

def oneOperand (found : Reading) : Except Stop Text :=
  match found.operands with
  | [operand] => .ok operand
  | _ => .error .usage

def operand? (found : Reading) : Except Stop (Option Text) :=
  match found.operands with
  | [] => .ok none
  | [operand] => .ok (some operand)
  | _ => .error .usage

def formatOf (found : Reading) : Except Stop Format :=
  match found.value? formatRule.long with
  | none => .ok .json
  | some name =>
    if name = "json".toList then .ok .json
    else if name = "yaml".toList then .ok .yaml
    else .error .usage

def valuesIfAny (found : Reading) (rule : OptionRule) : Option (List Text) :=
  match found.values rule.long with
  | [] => none
  | values => some values

def readCommand (name : Text) (arguments : List Text) : Except Stop (Reading × Command) := do
  let excluded (found : Reading) : List Text := found.values excludeRule.long
  if name = "normalize".toList then
    let (found, _) ← (commandLevel [excludeRule, jsonRule]).read arguments
    return (found, .normalize (← oneOperand found) (excluded found) (found.given jsonRule.long))
  else if name = "preset".toList then
    let (found, _) ← (commandLevel [excludeRule]).read arguments
    return (found, .preset (← oneOperand found) (excluded found))
  else if name = "mobile".toList then
    let (found, _) ← (commandLevel [excludeRule]).read arguments
    return (found, .mobile (← oneOperand found) (excluded found))
  else if name = "config".toList then
    let (found, _) ← (commandLevel [excludeRule, imageToolRule, formatRule]).read arguments
    let format ← formatOf found
    return (found,
      .config (← operand? found) (excluded found) (valuesIfAny found imageToolRule) format)
  else if name = "presets".toList then
    let (found, _) ← (commandLevel []).read arguments
    if found.operands.isEmpty then return (found, .presets) else throw .usage
  else throw .help

def Invocation.ofArguments (arguments : List Text) : Except Stop Invocation := do
  let (before, rest) ← topLevel.read arguments
  match before.operands, rest with
  | [], name :: rest =>
    let (after, command) ← readCommand name rest
    let last (rule : OptionRule) : Option Text :=
      (after.value? rule.long).or (before.value? rule.long)
    return ⟨last configRule, last strategyRule, last fallbackRule, command⟩
  | _, _ => throw .usage

end EditorToolbar.CommandLine
