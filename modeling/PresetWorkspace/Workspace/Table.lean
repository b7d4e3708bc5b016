import PresetWorkspace.Workspace.Key

/-!
# Tables

A workspace keeps four tables as lists of rows in the order of their creation.
Tags and todos name their group, a todo may name a parent, and a link joins a
todo and a tag; a row goes when a row that it names goes.
-/

namespace PresetWorkspace

namespace Workspace

inductive Table where
  | groups
  | tags
  | todos
  | links
  deriving DecidableEq

/-- A tag group as it is stored, its ratios as the text of a document. -/
structure GroupRow where
  id : Key
  user : String
  name : String
  color : String
  description : Option String
  goalRatios : Option String
  isTodoGroup : Cell
  createdAt : Cell
  deriving DecidableEq

structure TagRow where
  id : Key
  user : String
  group : Key
  name : String
  color : String
  description : Option String
  createdAt : Cell
  deriving DecidableEq

structure TodoRow where
  id : Key
  user : String
  group : Key
  parent : Key
  title : String
  description : Option String
  createdAt : Cell
  deriving DecidableEq

structure LinkRow where
  todo : Key
  tag : Key
  deriving DecidableEq

end Workspace

/-- The rows of all tables, in the order of their creation, and the tables that are gone. -/
structure Workspace where
  groups : List Workspace.GroupRow := []
  tags : List Workspace.TagRow := []
  todos : List Workspace.TodoRow := []
  links : List Workspace.LinkRow := []
  dropped : List Workspace.Table := []
  deriving DecidableEq

namespace Workspace

def empty : Workspace := {}

def hasTable (w : Workspace) (t : Table) : Bool := t ∉ w.dropped

namespace Table

def all : List Table := [.groups, .tags, .todos, .links]

def name : Table → String
  | .groups => "tag_groups"
  | .tags => "tags"
  | .todos => "todos"
  | .links => "todo_tags"

def columns : Table → List String
  | .groups => ["id", "user_id", "name", "color", "description", "goal_ratios", "is_todo_group", "created_at"]
  | .tags => ["id", "user_id", "group_id", "name", "color", "description", "created_at"]
  | .todos => ["id", "user_id", "tag_group_id", "parent_id", "title", "description", "created_at"]
  | .links => ["todo_id", "tag_id"]

def nullable : Table → List String
  | .groups => ["id", "description", "goal_ratios"]
  | .tags => ["id", "description"]
  | .todos => ["id", "parent_id", "description"]
  | .links => []

/-- The columns that name rows of other tables, the latest one first. -/
def references : Table → List (String × Table)
  | .groups => []
  | .tags => [("group_id", .groups)]
  | .todos => [("parent_id", .todos), ("tag_group_id", .groups)]
  | .links => [("tag_id", .tags), ("todo_id", .todos)]

def indexes : Table → List String
  | .groups => ["idx_tag_groups_user"]
  | .tags => ["idx_tags_group"]
  | .todos => ["idx_todos_group", "idx_todos_parent"]
  | .links => ["idx_todo_tags_tag"]

def ofName? (name : String) : Option Table := all.find? (·.name = name)

end Table

end Workspace

end PresetWorkspace
