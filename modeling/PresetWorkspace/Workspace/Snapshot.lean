import PresetWorkspace.Document.Writer
import PresetWorkspace.Workspace.Read

/-!
# Snapshots

A workspace as the records of its tables, and the text of them that a file
holds: one line each for the groups, the tags and the todos.
-/

namespace PresetWorkspace.Workspace

structure Snapshot where
  groups : List Group
  tags : List Tag
  todos : List Todo

/-- The records of a workspace all of whose rows can be read. -/
def snapshot (w : Workspace) : Except Error Snapshot := do
  let groups ← w.groups.mapM GroupRow.read
  let tags ← w.tags.mapM TagRow.read
  let bare ← w.todos.mapM TodoRow.read
  let links ← w.links.mapM LinkRow.read
  return { groups, tags, todos := bare.map fun t => { t with tags := (links.filter (·.1 = t.id)).map (·.2) } }

namespace Snapshot

/-! ## Rows of the records -/

def groupRow (g : Group) : GroupRow where
  id := .id g.id
  user := g.user
  name := g.name
  color := g.color
  description := g.description
  goalRatios := g.goalRatios.map fun m => (Json.ofRatios m).compact
  isTodoGroup := .integer (if g.isTodoGroup then 1 else 0)
  createdAt := .integer g.createdAt

def tagRow (t : Tag) : TagRow where
  id := .id t.id
  user := t.user
  group := .id t.group
  name := t.name
  color := t.color
  description := t.description
  createdAt := .integer t.createdAt

def todoRow (t : Todo) : TodoRow where
  id := .id t.id
  user := t.user
  group := .id t.group
  parent := .ofId? t.parent
  title := t.title
  description := t.description
  createdAt := .integer t.createdAt

def workspace (s : Snapshot) : Workspace where
  groups := s.groups.map groupRow
  tags := s.tags.map tagRow
  todos := s.todos.map todoRow
  links := s.todos.flatMap fun t => t.tags.map fun tag => ⟨.id t.id, .id tag⟩

/-! ## Text -/

def text (s : Snapshot) : String :=
  let line (records : List Json) : String := (Json.array records).compact ++ "\n"
  line (s.groups.map Group.toJson) ++ line (s.tags.map Tag.toJson) ++ line (s.todos.map Todo.toJson)

def ofText? (text : String) : Option Snapshot :=
  match text.splitOn "\n" with
  | [groups, tags, todos, ""] => do
    let groups ← (Document.read (.list (.record .groupRecord)) groups).toOption
    let tags ← (Document.read (.list (.record .tagRecord)) tags).toOption
    let todos ← (Document.read (.list (.record .todoRecord)) todos).toOption
    return { groups, tags, todos }
  | _ => none

end Snapshot

end PresetWorkspace.Workspace
