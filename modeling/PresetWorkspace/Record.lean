import PresetWorkspace.Ratios
import PresetWorkspace.Uuid

/-!
# Records

Tag groups, tags and todos as they are read back from a workspace. Every
record belongs to one user and carries the time of its creation in
milliseconds.
-/

namespace PresetWorkspace

structure Group where
  id : Uuid
  user : String
  name : String
  color : String
  description : Option String
  goalRatios : Option Ratios
  isTodoGroup : Bool
  createdAt : Int
  deriving DecidableEq

structure Tag where
  id : Uuid
  user : String
  group : Uuid
  name : String
  color : String
  description : Option String
  createdAt : Int
  deriving DecidableEq

/-- A todo of a tag group; its tags stand in the order of their attachment. -/
structure Todo where
  id : Uuid
  user : String
  group : Uuid
  parent : Option Uuid
  title : String
  description : Option String
  tags : List Uuid
  createdAt : Int
  deriving DecidableEq

def Todo.isRoot (t : Todo) : Bool := t.parent.isNone

end PresetWorkspace
