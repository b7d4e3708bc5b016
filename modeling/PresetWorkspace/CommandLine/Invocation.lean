import PresetWorkspace.CommandLine.Option

/-!
# Invocations

What a command line asks for. Arguments are read from left to right, first
those before the command and then those after it. A global option counts on
either side; after the command it beats the one before, and a given value
beats the default on the other side.
-/

namespace PresetWorkspace.CommandLine

inductive Command where
  | list (format : OutputFormat)
  | «show» (name : String) (format : OutputFormat)
  | init (name : String) (dryRun : Bool) (format : OutputFormat)
  deriving DecidableEq

def Command.format : Command → OutputFormat
  | .list f | .show _ f | .init _ _ f => f

def modeName (dryRun : Bool) : String := if dryRun then "dry-run" else "create"

structure Invocation where
  config : Option String
  database : Option String
  presetFolder : Option String
  user : Option String
  verbose : Bool
  log : String
  command : Command
  deriving DecidableEq

/-- Whether log lines go to standard output; results in JSON keep it for themselves. -/
def Invocation.logsToOutput (i : Invocation) : Bool :=
  (i.log = "1" || i.log = "stdout") && i.command.format ≠ .json

inductive UsageError where
  | invalidValue
  | unknownArgument
  | unknownCommand
  | needlessValue
  | repeatedOption
  | missingName
  | missingCommand
  | help
  | helpForNothing
  | version
  deriving DecidableEq

def versionLine : String := "todo-presets 0.1.0\n"

def usage : String :=
  "Usage: todo-presets [OPTIONS] <COMMAND>\n\nCommands:\n" ++
    "  list         List the presets\n  show <NAME>  Show a preset\n  init <NAME>  Set up a preset\n"

/-! ## One side of the command -/

/-- What has been given on one side of the command. A setting whose value has just been read, or
    is still to come, is open until the next argument that is no value. -/
structure Given where
  settings : List (Setting × String) := []
  flags : List Flag := []
  name : Option String := none
  opened : Option (Setting × Option String) := none

namespace Given

def awaitsValue (g : Given) : Bool :=
  match g.opened with
  | some (_, none) => true
  | _ => false

def give (g : Given) (s : Setting) (v : String) : Except UsageError Given :=
  if (g.settings.lookup s).isSome then .error .repeatedOption
  else if ¬ s.accepts v then .error .invalidValue
  else .ok { g with settings := g.settings ++ [(s, v)], opened := none }

def settle (g : Given) : Except UsageError Given :=
  match g.opened with
  | none => .ok g
  | some (_, none) => .error .invalidValue
  | some (s, some v) => g.give s v

def raise (g : Given) : Flag → Except UsageError Given
  | .help => .error .help
  | .version => .error .version
  | f => if f ∈ g.flags then .error .repeatedOption else .ok { g with flags := g.flags ++ [f] }

def giveOrOpen (g : Given) (s : Setting) (v : Option String) : Except UsageError Given := do
  let g ← g.settle
  match v with
  | some v => g.give s v
  | none => .ok { g with opened := some (s, none) }

def readLong (place : Option Verb) (g : Given) (name : String) (v : Option String) : Except UsageError Given :=
  match ofLong? place name, v with
  | none, _ => .error .unknownArgument
  | some (.setting s), v => g.giveOrOpen s v
  | some (.flag _), some _ => .error .needlessValue
  | some (.flag f), none => g.settle.bind (·.raise f)

/-- Takes letters; the rest after the letter of a setting is its value. -/
def readLetters (place : Option Verb) (g : Given) : List Char → Except UsageError Given
  | [] => .ok g
  | c :: cs =>
    match ofLetter? place c with
    | none => .error .unknownArgument
    | some (.flag f) => (g.settle.bind (·.raise f)).bind fun g => readLetters place g cs
    | some (.setting s) =>
      g.giveOrOpen s (match cs with
        | [] => none
        | '=' :: v => some (String.ofList v)
        | v => some (String.ofList v))

inductive Form where
  | ending
  | long (name : String) (value : Option String)
  | letters (cs : List Char)
  | plain

/-- The form of an argument: a lone hyphen is plain, and two hyphens end the options. -/
def formOf (arg : String) : Form :=
  match arg.toList with
  | ['-', '-'] => .ending
  | '-' :: '-' :: cs =>
    match cs.span (· ≠ '=') with
    | (name, []) => .long (String.ofList name) none
    | (name, _ :: value) => .long (String.ofList name) (some (String.ofList value))
  | '-' :: c :: cs => .letters (c :: cs)
  | _ => .plain

def helpName : String := "help"

def readPlain (place : Option Verb) (ended : Bool) (g : Given) (arg : String) : Except UsageError Given :=
  match place with
  | none =>
    if ended ∧ ((Verb.ofName? arg).isSome ∨ arg = helpName) then .error .unknownArgument else .error .unknownCommand
  | some verb =>
    if verb.takesName ∧ g.name.isNone then g.settle.map fun g => { g with name := some arg }
    else .error .unknownArgument

def readHelp : List String → UsageError
  | [] => .help
  | [topic] => if (Verb.ofName? topic).isSome ∨ topic = helpName then .help else .unknownCommand
  | _ => .unknownCommand

/-- Reads one side of the command line; before the command, it ends where the command stands. -/
def readSide (place : Option Verb) :
    (ended : Bool) → Given → List String → Except UsageError (Given × Option (Verb × List String))
  | _, g, [] => .ok (g, none)
  | true, g, arg :: args => (readPlain place true g arg).bind fun g => readSide place true g args
  | false, g, arg :: args =>
    match (if place.isNone ∧ ¬ g.awaitsValue then Verb.ofName? arg else none) with
    | some verb => .ok (g, some (verb, args))
    | none =>
      if place.isNone ∧ ¬ g.awaitsValue ∧ arg = helpName then .error (readHelp args)
      else match formOf arg with
        | .ending => readSide place true g args
        | .long name v => (g.readLong place name v).bind fun g => readSide place false g args
        | .letters cs => (g.readLetters place cs).bind fun g => readSide place false g args
        | .plain =>
          match g.opened with
          | some (s, none) => readSide place false { g with opened := some (s, some arg) } args
          | _ => (readPlain place false g arg).bind fun g => readSide place false g args

end Given

/-! ## Both sides -/

def Given.command (g : Given) (verb : Verb) : Except UsageError Command :=
  let format := ((g.settings.lookup .format).bind (OutputFormat.ofName? · false)).getD .markdown
  match verb, g.name with
  | .list, _ => .ok (.list format)
  | .show, some name => .ok (.show name format)
  | .init, some name => .ok (.init name (.dryRun ∈ g.flags) format)
  | _, none => .error .missingName

def combine (before after : Given) (command : Command) : Invocation :=
  let setting (s : Setting) : Option String := (after.settings.lookup s).or (before.settings.lookup s)
  { config := setting .config
    database := setting .database
    presetFolder := setting .presetFolder
    user := setting .user
    verbose := .verbose ∈ after.flags ∨ .verbose ∈ before.flags
    log := (setting .log).getD "2"
    command }

def parse (args : List String) : Except UsageError Invocation := do
  let (before, found) ← Given.readSide none false {} args
  match found with
  | none => do
    let before ← before.settle
    throw (if before.settings.isEmpty ∧ before.flags.isEmpty then .helpForNothing else .missingCommand)
  | some (verb, rest) => do
    let (after, _) ← Given.readSide (some verb) false {} rest
    let after ← after.settle
    let command ← after.command verb
    let before ← before.settle
    pure (combine before after command)

end PresetWorkspace.CommandLine
