import EditorToolbar.Text.Basic

/-!
# Arguments

The rules by which the arguments of a command are told apart. An argument that starts with a hyphen
is an option: a long one after two hyphens, or a cluster of short ones after one. A value follows
its option, or is attached to it, with or without an equals sign if the option is short. Two
hyphens alone end the options, and a single hyphen is a value like any other.

`Level.read` reads the arguments of one level: the options that the level knows, and operands. It
stops at an operand that names a subcommand, if the level has any.
-/

namespace EditorToolbar.CommandLine

/-- Why no command can be run: the arguments are malformed, or they ask for the version or for
help. -/
inductive Stop where
  | usage
  | version
  | help
  deriving DecidableEq, Repr

inductive Effect where
  | flag
  | value
  | stop (s : Stop)
  deriving DecidableEq, Repr

structure OptionRule where
  long : Text
  short : Option Char := none
  effect : Effect
  repeats : Bool := false

/-- What a level of a command accepts. -/
structure Level where
  rules : List OptionRule
  subcommands : List Text := []

/-- What has been read at a level: the options, by their long names and with their values, and the
operands. -/
structure Reading where
  options : List (Text × Text) := []
  operands : List Text := []

def looksLikeOption : Text → Bool
  | '-' :: _ :: _ => true
  | _ => false

namespace Reading

/-- Records an option, unless it has been given before and may not be repeated. -/
def record (found : Reading) (rule : OptionRule) (value : Text) : Except Stop Reading :=
  if !rule.repeats && found.options.any (fun o => o.1 == rule.long) then .error .usage
  else .ok { found with options := found.options ++ [(rule.long, value)] }

def operand (found : Reading) (value : Text) : Reading :=
  { found with operands := found.operands ++ [value] }

def values (found : Reading) (long : Text) : List Text :=
  (found.options.filter fun o => o.1 == long).map Prod.snd

/-- The value of an option that is not repeated. -/
def value? (found : Reading) (long : Text) : Option Text := (found.values long).head?

def given (found : Reading) (long : Text) : Bool := (found.value? long).isSome

end Reading

namespace Level

/-- Reads the rest of a cluster of short options. If the last one lacks its value, it is given back
to wait for it. -/
def readCluster (level : Level) (found : Reading) :
    Text → Except Stop (Reading × Option OptionRule)
  | [] => .ok (found, none)
  | c :: rest =>
    match level.rules.find? fun rule => rule.short == some c with
    | none => .error .usage
    | some rule =>
      match rule.effect with
      | .stop s => .error s
      | .flag => do level.readCluster (← found.record rule []) rest
      | .value =>
        match rest with
        | [] => .ok (found, some rule)
        | '=' :: value => do return (← found.record rule value, none)
        | value => do return (← found.record rule value, none)

/-- Reads a long option, without its hyphens. If it lacks its value, it is given back to wait for
it. -/
def readLong (level : Level) (found : Reading) (body : Text) :
    Except Stop (Reading × Option OptionRule) :=
  let name := body.takeWhile (· != '=')
  let attached := body.drop name.length
  match level.rules.find? fun rule => rule.long == name with
  | none => .error .usage
  | some rule =>
    match rule.effect, attached with
    | .stop s, [] => .error s
    | .flag, [] => do return (← found.record rule [], none)
    | .value, [] => .ok (found, some rule)
    | .value, _ :: value => do return (← found.record rule value, none)
    | _, _ :: _ => .error .usage

/-- Reads an option, without its first hyphen. -/
def readOption (level : Level) (found : Reading) :
    Text → Except Stop (Reading × Option OptionRule)
  | '-' :: body => level.readLong found body
  | cluster => level.readCluster found cluster

/-- Reads the arguments of a level. What is left over starts with a subcommand or is empty. -/
def readFrom (level : Level) (found : Reading) (waiting : Option OptionRule) :
    List Text → Except Stop (Reading × List Text)
  | [] => if waiting.isSome then .error .usage else .ok (found, [])
  | argument :: rest =>
    match waiting with
    | some rule =>
      if looksLikeOption argument then .error .usage
      else do level.readFrom (← found.record rule argument) none rest
    | none =>
      if argument = ['-', '-'] then .ok (rest.foldl Reading.operand found, [])
      else if looksLikeOption argument then do
        let (found, waiting) ← level.readOption found argument.tail
        level.readFrom found waiting rest
      else if level.subcommands.contains argument then .ok (found, argument :: rest)
      else level.readFrom (found.operand argument) none rest

def read (level : Level) (arguments : List Text) : Except Stop (Reading × List Text) :=
  level.readFrom {} none arguments

end Level

end EditorToolbar.CommandLine
