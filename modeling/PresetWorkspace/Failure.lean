import PresetWorkspace.Document.Fault
import PresetWorkspace.Json

/-!
# Failures

A failure is a message with the chain of its causes, outermost first. What can
go wrong with a preset is told apart by a code, for programs that read it. The
report of a failure is meant for people.
-/

namespace PresetWorkspace

inductive Origin where
  | storage
  | file
  | other
  deriving DecidableEq

structure Failure where
  message : String
  causes : List String := []
  origin : Origin := .other
  deriving DecidableEq

/-- The failure seen from further out; the message so far becomes its first cause. -/
def Failure.within (f : Failure) (message : String) : Failure :=
  { f with message, causes := f.message :: f.causes }

/-! ## Reports -/

def indented (width : Nat) (s : String) : String :=
  String.ofList (s.toList.flatMap fun c => if c = '\n' then '\n' :: List.replicate width ' ' else [c])

def causeLine (cause : String) : String := "    " ++ indented 4 cause

def numberedLine (n : Nat) (cause : String) : String :=
  let number := toString n
  "".pushn ' ' (5 - number.length) ++ number ++ ": " ++ indented 7 cause

/-- The message and the causes for a reader; several causes are numbered. -/
def Failure.report (f : Failure) : String :=
  let causes := match f.causes with
    | [] => []
    | [cause] => [causeLine cause]
    | causes => causes.mapIdx numberedLine
  let heading := if causes.isEmpty then "" else "\n\nCaused by:"
  "Error: " ++ f.message ++ heading ++ String.join (causes.map ("\n" ++ ·)) ++ "\n"

/-! ## Presets -/

inductive PresetError where
  | notFound (name : String)
  | malformed (path : String) (problem : Document.Problem)
  | unreadable (path : String) (reason : String)
  | storage (failure : Failure)

namespace PresetError

def code : PresetError → String
  | .notFound _ => "PRESET_NOT_FOUND"
  | .malformed .. => "MALFORMED_PRESET"
  | .unreadable .. => "IO_ERROR"
  | .storage _ => "DATABASE_ERROR"

def failure : PresetError → Failure
  | .notFound name => { message := "Preset not found: " ++ name }
  | .malformed path problem =>
    { message := "Malformed preset " ++ path ++ ": " ++ problem.message, causes := [problem.message] }
  | .unreadable path reason =>
    { message := "Failed to read " ++ path ++ ": " ++ reason, causes := [reason], origin := .file }
  | .storage failure => failure

def message (e : PresetError) : String := e.failure.message

/-- The error as a document: its code and message, and the name that was not found. -/
def toJson (e : PresetError) : Json :=
  .object <|
    [("code", .text e.code), ("message", .text e.message)] ++
      match e with
      | .notFound name => [("name", .text name)]
      | _ => []

end PresetError

end PresetWorkspace
