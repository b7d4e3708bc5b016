import PresetWorkspace.Document.Reader
import PresetWorkspace.Workspace.Error

/-!
# Reading records

Rows become records, in the order of their creation. A row whose columns do
not parse makes the whole reading fail.
-/

namespace PresetWorkspace.Workspace

/-! ## Columns -/

def readId (index : Nat) (column : String) : Key → Except Error Uuid
  | .id u => .ok u
  | .text s =>
    match Uuid.ofText? s with
    | some u => .ok u
    | none => .error (.badText index Document.Cause.badId.describe)
  | .none => .error (.badCell "Null" index column)

def readId? (index : Nat) (column : String) : Key → Except Error (Option Uuid)
  | .none => .ok none
  | key => (readId index column key).map some

def readInteger (index : Nat) (column : String) : Cell → Except Error Int
  | .integer n => .ok n
  | .real => .error (.badCell "Real" index column)
  | .text _ => .error (.badCell "Text" index column)

def readRatios (index : Nat) : Option String → Except Error (Option Ratios)
  | none => .ok none
  | some s =>
    match Document.read .ratios s with
    | .ok m => .ok (some m)
    | .error p => .error (.badText index p.message)

/-! ## Rows -/

def GroupRow.read (r : GroupRow) : Except Error Group := do
  let goalRatios ← readRatios 5 r.goalRatios
  let id ← readId 0 "id" r.id
  let flag ← readInteger 6 "is_todo_group" r.isTodoGroup
  let createdAt ← readInteger 7 "created_at" r.createdAt
  pure { id, user := r.user, name := r.name, color := r.color, description := r.description, goalRatios,
         isTodoGroup := flag ≠ 0, createdAt }

def TagRow.read (r : TagRow) : Except Error Tag := do
  let id ← readId 0 "id" r.id
  let group ← readId 2 "group_id" r.group
  let createdAt ← readInteger 6 "created_at" r.createdAt
  pure { id, user := r.user, group, name := r.name, color := r.color, description := r.description, createdAt }

def TodoRow.read (r : TodoRow) : Except Error Todo := do
  let id ← readId 0 "id" r.id
  let group ← readId 2 "tag_group_id" r.group
  let parent ← readId? 3 "parent_id" r.parent
  let createdAt ← readInteger 6 "created_at" r.createdAt
  pure { id, user := r.user, group, parent, title := r.title, description := r.description, tags := [], createdAt }

def LinkRow.read (r : LinkRow) : Except Error (Uuid × Uuid) := do
  let todo ← readId 0 "todo_id" r.todo
  let tag ← readId 1 "tag_id" r.tag
  pure (todo, tag)

/-! ## Queries -/

def group? (w : Workspace) (id : Uuid) : Except Error (Option Group) := do
  w.requireTable .groups
  match w.groups.find? (·.id = .id id) with
  | none => pure none
  | some r => some <$> r.read

def groupsOf (w : Workspace) (user : String) : Except Error (List Group) := do
  w.requireTable .groups
  (w.groups.filter (·.user = user)).mapM GroupRow.read

def tagsOf (w : Workspace) (group : Uuid) : Except Error (List Tag) := do
  w.requireTable .tags
  (w.tags.filter (·.group = .id group)).mapM TagRow.read

def linksOf (w : Workspace) (group : Uuid) : List LinkRow :=
  w.links.filter fun l => w.todos.any fun t => t.id = l.todo && t.group = .id group

/-- The todos of a group, each with its tags in the order of their attachment. -/
def todosOf (w : Workspace) (group : Uuid) : Except Error (List Todo) := do
  w.requireTable .todos
  let rows := w.todos.filter (·.group = .id group)
  let bare ← rows.mapM TodoRow.read
  w.requireTable .links
  let links ← (w.linksOf group).mapM LinkRow.read
  pure (bare.map fun t => { t with tags := (links.filter (·.1 = t.id)).map (·.2) })

/-- The todos directly below a todo. Their tags are not looked up. -/
def childrenOf (w : Workspace) (parent : Uuid) : Except Error (List Todo) := do
  w.requireTable .todos
  (w.todos.filter (·.parent = .id parent)).mapM TodoRow.read

end PresetWorkspace.Workspace
