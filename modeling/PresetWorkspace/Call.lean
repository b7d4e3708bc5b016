import PresetWorkspace.Ratios

/-!
# Create calls

The three requests by which records come into being, and stores that answer
them. A store hands out an id for each call that it accepts; requests name
earlier records by these ids, whatever their type `ι` is.
-/

namespace PresetWorkspace

structure GroupRequest where
  name : String
  color : String
  description : Option String
  goalRatios : Option Ratios
  isTodoGroup : Bool
  deriving DecidableEq

structure TagRequest (ι : Type) where
  name : String
  color : String
  description : Option String
  group : ι
  deriving DecidableEq

/-- Asks for a todo in a group. A todo that names no tags at all has no tag list. -/
structure TodoRequest (ι : Type) where
  title : String
  description : Option String
  group : ι
  tags : Option (List ι)
  parent : Option ι
  deriving DecidableEq

inductive Call (ι : Type) where
  | group (request : GroupRequest)
  | tag (request : TagRequest ι)
  | todo (request : TodoRequest ι)
  deriving DecidableEq

inductive Subject where
  | group
  | tag
  | todo
  deriving DecidableEq

namespace Call

variable {ι : Type}

def subject : Call ι → Subject
  | .group _ => .group
  | .tag _ => .tag
  | .todo _ => .todo

def label : Call ι → String
  | .group r => r.name
  | .tag r => r.name
  | .todo r => r.title

end Call

/-- A computation over a store's state; the state stays when it fails. -/
abbrev Creating (ε σ α : Type) := ExceptT ε (StateM σ) α

abbrev Store (ι ε σ : Type) := Call ι → Creating ε σ ι

/-- A store that also lists the calls it has accepted, each with its id, the latest one first. -/
def Store.recording {ι ε σ : Type} (store : Store ι ε σ) : Store ι ε (σ × List (Call ι × ι)) :=
  fun call => ExceptT.mk fun (s, log) =>
    match store call s with
    | (.ok id, s) => (.ok id, s, (call, id) :: log)
    | (.error e, s) => (.error e, s, log)

end PresetWorkspace
