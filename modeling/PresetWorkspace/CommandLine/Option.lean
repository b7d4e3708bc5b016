import PresetWorkspace.OutputFormat

/-!
# Options

The commands of the program, and the options that each of them knows. The
options before a command are known to every command too, except the one that
asks for the version.
-/

namespace PresetWorkspace.CommandLine

inductive Verb where
  | list
  | «show»
  | init
  deriving DecidableEq

namespace Verb

def name : Verb → String
  | .list => "list"
  | .show => "show"
  | .init => "init"

def all : List Verb := [.list, .show, .init]

def ofName? (name : String) : Option Verb := all.find? (·.name = name)

def takesName : Verb → Bool
  | .list => false
  | .show | .init => true

end Verb

inductive Setting where
  | config
  | database
  | presetFolder
  | user
  | log
  | format
  deriving DecidableEq

/-- Whether a setting may have a value: a path is not empty, and a format has a known name. -/
def Setting.accepts : Setting → String → Bool
  | .config, v | .database, v | .presetFolder, v => v ≠ ""
  | .user, _ | .log, _ => true
  | .format, v => (OutputFormat.ofName? v false).isSome

inductive Flag where
  | verbose
  | dryRun
  | help
  | version
  deriving DecidableEq

inductive Switch where
  | setting (s : Setting)
  | flag (f : Flag)
  deriving DecidableEq

structure Spelling where
  letter : Option Char
  long : String
  switch : Switch

def globalSpellings : List Spelling :=
  [⟨'c', "config", .setting .config⟩, ⟨'d', "database", .setting .database⟩,
    ⟨'p', "presets-dir", .setting .presetFolder⟩, ⟨'u', "user", .setting .user⟩,
    ⟨'v', "verbose", .flag .verbose⟩, ⟨'l', "log", .setting .log⟩, ⟨'h', "help", .flag .help⟩]

/-- The switches that are known after a command, or before any. -/
def spellings : Option Verb → List Spelling
  | none => globalSpellings ++ [⟨'V', "version", .flag .version⟩]
  | some .init => globalSpellings ++ [⟨'f', "format", .setting .format⟩, ⟨none, "dry-run", .flag .dryRun⟩]
  | some _ => globalSpellings ++ [⟨'f', "format", .setting .format⟩]

def ofLong? (place : Option Verb) (name : String) : Option Switch :=
  ((spellings place).find? (·.long = name)).map (·.switch)

def ofLetter? (place : Option Verb) (letter : Char) : Option Switch :=
  ((spellings place).find? (·.letter = some letter)).map (·.switch)

end PresetWorkspace.CommandLine
