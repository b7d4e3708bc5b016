import PresetWorkspace.Call
import PresetWorkspace.Document.Writer
import PresetWorkspace.Workspace.Error

/-!
# Creating records

A user creates groups, tags in own groups, and todos in own groups below own
todos of the same group and with own tags. What a request names is checked
first; a title must have characters before its first NUL.
-/

namespace PresetWorkspace.Workspace

/-- What a new record draws from outside: its id, and the time in milliseconds. -/
structure Draw where
  id : Uuid
  time : Int

/-! ## Checks -/

def ownsGroup (w : Workspace) (user : String) (id : Uuid) : Bool :=
  w.groups.any fun g => g.id = .id id && g.user = user

def ownsTag (w : Workspace) (user : String) (id : Uuid) : Bool :=
  w.tags.any fun t => t.id = .id id && t.user = user

def ownsTodo (w : Workspace) (user : String) (group id : Uuid) : Bool :=
  w.todos.any fun t => t.id = .id id && t.user = user && t.group = .id group

def requireGroup (w : Workspace) (user : String) (id : Uuid) : Except Error Unit := do
  w.requireTable .groups
  if w.ownsGroup user id then pure () else throw (.groupNotFound id)

def requireParent (w : Workspace) (user : String) (group : Uuid) : Option Uuid → Except Error Unit
  | none => pure ()
  | some id => do
    w.requireTable .todos
    if w.ownsTodo user group id then pure () else throw (.parentNotFound id)

def requireTags (w : Workspace) (user : String) : List Uuid → Except Error Unit
  | [] => pure ()
  | id :: ids => do
    w.requireTable .tags
    if w.ownsTag user id then w.requireTags user ids else throw (.tagNotFound id)

/-- Whether a title has a character before its first NUL. -/
def isTitle (s : String) : Bool := s.toList.head?.any (· ≠ '\x00')

/-! ## Groups and tags -/

def addGroup (w : Workspace) (user : String) (draw : Draw) (r : GroupRequest) : Except Error Workspace := do
  w.requireTable .groups
  if w.groups.any (·.id = .id draw.id) then throw (.repeatedId .groups)
  pure { w with groups := w.groups ++ [{
    id := .id draw.id
    user
    name := r.name
    color := r.color
    description := r.description
    goalRatios := r.goalRatios.map fun m => (Json.ofRatios m).compact
    isTodoGroup := .integer (if r.isTodoGroup then 1 else 0)
    createdAt := .integer draw.time }] }

def addTag (w : Workspace) (user : String) (draw : Draw) (r : TagRequest Uuid) : Except Error Workspace := do
  w.requireGroup user r.group
  w.requireTable .tags
  if w.tags.any (·.id = .id draw.id) then throw (.repeatedId .tags)
  pure { w with tags := w.tags ++ [{
    id := .id draw.id
    user
    group := .id r.group
    name := r.name
    color := r.color
    description := r.description
    createdAt := .integer draw.time }] }

/-! ## Todos -/

def addTodo (w : Workspace) (user : String) (draw : Draw) (r : TodoRequest Uuid) : Except Error Workspace := do
  w.requireGroup user r.group
  w.requireParent user r.group r.parent
  w.requireTags user (r.tags.getD [])
  w.requireTable .todos
  if ¬ isTitle r.title then throw .emptyTitle
  if w.todos.any (·.id = .id draw.id) then throw (.repeatedId .todos)
  pure { w with todos := w.todos ++ [{
    id := .id draw.id
    user
    group := .id r.group
    parent := .ofId? r.parent
    title := r.title
    description := r.description
    createdAt := .integer draw.time }] }

def addLink (links : List LinkRow) (link : LinkRow) : List LinkRow :=
  if link ∈ links then links else links ++ [link]

def attach (w : Workspace) (todo : Uuid) : List Uuid → Except Error Workspace
  | [] => pure w
  | tags => do
    w.requireTable .links
    pure { w with links := tags.foldl (fun ls tag => addLink ls ⟨.id todo, .id tag⟩) w.links }

/-- Answers a create call of a user. A todo whose tags cannot be linked stays without them. -/
def create (user : String) (draw : Draw) (call : Call Uuid) (w : Workspace) : Except Error Uuid × Workspace :=
  match call with
  | .group r => finish w (w.addGroup user draw r)
  | .tag r => finish w (w.addTag user draw r)
  | .todo r =>
    match w.addTodo user draw r with
    | .error e => (.error e, w)
    | .ok w => finish w (w.attach draw.id (r.tags.getD []))
where
  /-- The new id with the new workspace, or the rejection with the old one. -/
  finish (w : Workspace) : Except Error Workspace → Except Error Uuid × Workspace
    | .ok w => (.ok draw.id, w)
    | .error e => (.error e, w)

end PresetWorkspace.Workspace
