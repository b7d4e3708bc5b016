import PresetWorkspace.Workspace.Create

/-!
# Editing tables

Deletions, changes of single columns, and removals of whole tables. A deleted
row takes with it all rows that name it, and those that name them. A change
must leave every column filled that has to be, every id unique, and every
reference met.
-/

namespace PresetWorkspace.Workspace

/-! ## Deletions -/

/-- The keys of the todos below some todos, level by level, added to those seen before. -/
def keysBelow (todos : List TodoRow) : (fuel : Nat) → (level seen : List Key) → List Key
  | 0, _, seen => seen
  | fuel + 1, level, seen =>
    let next := (todos.filter fun t => t.parent ∈ level && t.id ≠ .none && t.id ∉ seen).map (·.id)
    if next.isEmpty then seen else keysBelow todos fuel next (seen ++ next)

def keysOf (ids : List Key) : List Key := ids.filter (· ≠ .none)

/-- Deletes todos with all todos below them and all links of these. -/
def removeTodos (w : Workspace) (p : TodoRow → Bool) : Workspace :=
  let first := keysOf ((w.todos.filter p).map (·.id))
  let gone := keysBelow w.todos w.todos.length first first
  { w with
    todos := w.todos.filter fun t => !p t && t.parent ∉ gone
    links := w.links.filter fun l => l.todo ∉ gone }

def removeTags (w : Workspace) (p : TagRow → Bool) : Workspace :=
  let gone := keysOf ((w.tags.filter p).map (·.id))
  { w with
    tags := w.tags.filter fun t => !p t
    links := w.links.filter fun l => l.tag ∉ gone }

def removeGroups (w : Workspace) (p : GroupRow → Bool) : Workspace :=
  let gone := keysOf ((w.groups.filter p).map (·.id))
  let w := { w with groups := w.groups.filter fun g => !p g }
  (w.removeTags fun t => t.group ∈ gone).removeTodos fun t => t.group ∈ gone

def reached (w : Workspace) : Table → List Table
  | .groups => under [.tags, .todos]
  | .tags => under [.tags]
  | .todos => .todos :: under [.todos]
  | .links => []
where
  under (ts : List Table) : List Table :=
    let there := ts.filter w.hasTable
    there ++ if there.isEmpty then [] else [Table.links].filter w.hasTable

def requireReferences (w : Workspace) (ts : List Table) : Except Error Unit :=
  ts.forM fun t => t.references.forM fun (_, parent) =>
    if w.hasTable parent then .ok () else .error (.noTable ("main." ++ parent.name))

def delete (w : Workspace) (t : Table) (id : Key) : Except Error (Nat × Workspace) := do
  w.requireTable t
  if t = .links then throw (.noColumn "id")
  w.requireReferences (t :: w.reached t)
  let known := id ≠ .none && match t with
    | .groups => w.groups.any (·.id = id)
    | .tags => w.tags.any (·.id = id)
    | .todos => w.todos.any (·.id = id)
    | .links => false
  if ¬ known then return (0, w)
  pure (1, match t with
    | .groups => w.removeGroups (·.id = id)
    | .tags => w.removeTags (·.id = id)
    | .todos => w.removeTodos (·.id = id)
    | .links => w)

def drop (w : Workspace) (t : Table) : Except Error Workspace := do
  w.requireTable t
  w.requireReferences (w.reached t)
  let w := match t with
    | .groups => w.removeGroups fun _ => true
    | .tags => w.removeTags fun _ => true
    | .todos => w.removeTodos fun _ => true
    | .links => { w with links := [] }
  pure { w with dropped := t :: w.dropped }

/-! ## Changes -/

def GroupRow.set (r : GroupRow) (column : String) (v : Value) : GroupRow :=
  match column with
  | "id" => { r with id := v.key }
  | "user_id" => { r with user := v.text?.getD r.user }
  | "name" => { r with name := v.text?.getD r.name }
  | "color" => { r with color := v.text?.getD r.color }
  | "description" => { r with description := v.text? }
  | "goal_ratios" => { r with goalRatios := v.text? }
  | "is_todo_group" => { r with isTodoGroup := v.cell?.getD r.isTodoGroup }
  | "created_at" => { r with createdAt := v.cell?.getD r.createdAt }
  | _ => r

def TagRow.set (r : TagRow) (column : String) (v : Value) : TagRow :=
  match column with
  | "id" => { r with id := v.key }
  | "user_id" => { r with user := v.text?.getD r.user }
  | "group_id" => { r with group := v.key }
  | "name" => { r with name := v.text?.getD r.name }
  | "color" => { r with color := v.text?.getD r.color }
  | "description" => { r with description := v.text? }
  | "created_at" => { r with createdAt := v.cell?.getD r.createdAt }
  | _ => r

def TodoRow.set (r : TodoRow) (column : String) (v : Value) : TodoRow :=
  match column with
  | "id" => { r with id := v.key }
  | "user_id" => { r with user := v.text?.getD r.user }
  | "tag_group_id" => { r with group := v.key }
  | "parent_id" => { r with parent := v.key }
  | "title" => { r with title := v.text?.getD r.title }
  | "description" => { r with description := v.text? }
  | "created_at" => { r with createdAt := v.cell?.getD r.createdAt }
  | _ => r

def ids (w : Workspace) : Table → List Key
  | .groups => w.groups.map (·.id)
  | .tags => w.tags.map (·.id)
  | .todos => w.todos.map (·.id)
  | .links => []

def references (w : Workspace) : Table → List Key
  | .groups => w.tags.map (·.group) ++ w.todos.map (·.group)
  | .tags => w.links.map (·.tag)
  | .todos => w.todos.map (·.parent) ++ w.links.map (·.todo)
  | .links => []

def write (w : Workspace) (t : Table) (id : Key) (column : String) (v : Value) : Workspace :=
  match t with
  | .groups => { w with groups := w.groups.map fun r => if r.id = id then r.set column v else r }
  | .tags => { w with tags := w.tags.map fun r => if r.id = id then r.set column v else r }
  | .todos => { w with todos := w.todos.map fun r => if r.id = id then r.set column v else r }
  | .links => w

/-- Whether every key that names a row of a table has that row. -/
def referencesMet (w : Workspace) (t : Table) : Bool :=
  (w.references t).all fun key => key = .none || key ∈ w.ids t

def set (w : Workspace) (t : Table) (id : Key) (column : String) (v : Value) : Except Error (Nat × Workspace) := do
  w.requireTable t
  if column ∉ t.columns then throw (.noColumn column)
  if t = .links then throw (.noColumn "id")
  let parents := (t.references.filter (·.1 = column)).map (·.2)
  parents.forM fun parent =>
    if w.hasTable parent then pure () else throw (.noTable ("main." ++ parent.name))
  if id = .none ∨ id ∉ w.ids t then return (0, w)
  if v = .null ∧ column ∉ t.nullable then throw (.emptyColumn t column)
  if t = .todos ∧ column = "title" ∧ ¬ (v.text?.any isTitle) then throw .emptyTitle
  if column = "id" ∧ v.key ≠ .none ∧ v.key ≠ id ∧ v.key ∈ w.ids t then throw (.repeatedId t)
  let w' := w.write t id column v
  let touched := if column = "id" then t :: parents else parents
  if ¬ touched.all w'.referencesMet then throw .brokenReference
  pure (1, w')

/-! ## Sizes and schema -/

def count (w : Workspace) (t : Table) : Except Error Nat := do
  w.requireTable t
  pure (match t with
    | .groups => w.groups.length
    | .tags => w.tags.length
    | .todos => w.todos.length
    | .links => w.links.length)

def schema (w : Workspace) : List String :=
  let tables := Table.all.filter w.hasTable
  ((tables.flatMap Table.indexes).map ("index " ++ ·) ++ tables.map ("table " ++ ·.name)).mergeSort
    fun a b => decide (a ≤ b)

end PresetWorkspace.Workspace
