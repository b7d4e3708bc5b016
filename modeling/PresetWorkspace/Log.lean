import PresetWorkspace.Call
import PresetWorkspace.CommandLine.Invocation
import PresetWorkspace.Failure
import PresetWorkspace.Preset
import PresetWorkspace.Text.Quoted
import PresetWorkspace.Uuid

/-!
# Log lines

What a run tells about its steps, and where it tells it. A line has a level,
the part of the program that speaks, a message and named values. Details are
told on request only.
-/

namespace PresetWorkspace

namespace Log

inductive Level where
  | detail
  | notice
  | warning
  deriving DecidableEq

def Level.name : Level → String
  | .detail => "DEBUG"
  | .notice => "INFO"
  | .warning => "WARN"

inductive Event where
  | settingsFound (path : String)
  | settingsRead (path : String)
  | presetsAt (place : String)
  | presetsMissing (place : String)
  | presetSkipped (reason : PresetError)
  | setUpAsked (name : String) (dryRun : Bool)
  | setUpStarted (name user : String)
  | recordCreated (call : Call Uuid) (id : Uuid)
  | setUpDone (result : Initialized Uuid)

namespace Event

def level : Event → Level
  | .settingsFound _ | .settingsRead _ | .presetsAt _ | .presetsMissing _ | .recordCreated .. => .detail
  | .setUpAsked .. | .setUpStarted .. | .setUpDone _ => .notice
  | .presetSkipped _ => .warning

def speaker : Event → String
  | .settingsFound _ => "todo_presets::config"
  | .settingsRead _ | .presetsAt _ | .setUpAsked .. => "todo_presets"
  | .presetsMissing _ | .presetSkipped _ => "todo_presets::preset::repository"
  | .setUpStarted .. => "todo_presets::service"
  | .recordCreated .. | .setUpDone _ => "todo_presets::preset::materialize"

def message : Event → String
  | .settingsFound _ => "Loading config"
  | .settingsRead _ => "Using config file"
  | .presetsAt _ => "Using preset directory"
  | .presetsMissing _ => "Preset directory does not exist"
  | .presetSkipped _ => "Skipping invalid preset"
  | .setUpAsked .. => "Running init"
  | .setUpStarted .. => "Initializing preset"
  | .recordCreated (.group _) _ => "Created tag group"
  | .recordCreated (.tag _) _ => "Created tag"
  | .recordCreated (.todo _) _ => "Created todo"
  | .setUpDone _ => "Materialized preset"

def parentText : Option Uuid → String
  | none => "None"
  | some id => "Some(" ++ id.text ++ ")"

def values : Event → List (String × String)
  | .settingsFound path | .settingsRead path => [("path", path)]
  | .presetsAt place | .presetsMissing place => [("dir", place)]
  | .presetSkipped reason => [("error", reason.message)]
  | .setUpAsked name dryRun => [("preset", name), ("mode", Text.quoted (CommandLine.modeName dryRun))]
  | .setUpStarted name user => [("preset", Text.quoted name), ("user", user)]
  | .recordCreated (.group r) id => [("tag_group_id", id.text), ("name", r.name)]
  | .recordCreated (.tag r) id => [("tag_id", id.text), ("name", r.name)]
  | .recordCreated (.todo r) id => [("todo_id", id.text), ("parent_id", parentText r.parent), ("title", r.title)]
  | .setUpDone i =>
    [("preset", Text.quoted i.presetName), ("tag_group_id", i.groupId.text),
      ("tags_created", toString i.tagsCreated), ("todos_created", toString i.todosCreated)]

def line (e : Event) : String :=
  e.level.name ++ " " ++ e.speaker ++ ": " ++ e.message ++
    String.join (e.values.map fun (name, value) => " " ++ name ++ "=" ++ value) ++ "\n"

end Event

inductive Sink where
  | nowhere
  | output
  | errors
  | file (path : String)
  deriving DecidableEq

end Log

structure Log where
  sink : Log.Sink
  detailed : Bool
  deriving DecidableEq

namespace Log

/-- The log that a command line asks for. Any other value than the known words is a file. -/
def ofInvocation (i : CommandLine.Invocation) : Log where
  sink :=
    if i.log ∈ ["0", "off"] then .nowhere
    else if i.log ∈ ["1", "stdout"] then if i.logsToOutput then .output else .errors
    else if i.log ∈ ["2", "stderr"] then .errors
    else .file i.log
  detailed := i.verbose

def tells (log : Log) (e : Event) : Bool := log.detailed || e.level ≠ .detail

end Log

end PresetWorkspace
