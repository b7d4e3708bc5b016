import PresetWorkspace.Call
import PresetWorkspace.Preset

/-!
# Setting up a preset

`Preset.materialize` issues the create calls of a preset: its group, its tags
in order, then its todos depth first, so that a parent exists before its
children name it. It stops at the first call that the store rejects.
-/

namespace PresetWorkspace

structure Rejected (ε : Type) where
  subject : Subject
  name : String
  cause : ε
  deriving DecidableEq

def Rejected.message {ε : Type} (r : Rejected ε) : String :=
  let subject := match r.subject with
    | .group => "tag group"
    | .tag => "tag"
    | .todo => "todo"
  "Failed to create " ++ subject ++ " '" ++ r.name ++ "'"

variable {ι ε σ : Type}

def Store.issue (store : Store ι ε σ) (call : Call ι) : Creating (Rejected ε) σ ι :=
  (store call).adapt fun e => ⟨call.subject, call.label, e⟩

def GroupTemplate.request (g : GroupTemplate) : GroupRequest :=
  { name := g.name
    color := g.color
    description := g.description
    goalRatios := g.goalRatios
    isTodoGroup := g.isTodoGroup }

def TagTemplate.request (t : TagTemplate) (group : ι) : TagRequest ι :=
  { name := t.name, color := t.color, description := t.description, group }

abbrev TagIds (ι : Type) := List (String × ι)

/-- The tags that a todo asks for: none if it names none, else the last tag of each known name. -/
def TodoTemplate.tagIds (t : TodoTemplate) (ids : TagIds ι) : Option (List ι) :=
  match t.tagNames with
  | none | some [] => none
  | some names => some (names.filterMap (List.lookup · ids))

def TodoTemplate.request (t : TodoTemplate) (group : ι) (ids : TagIds ι) (parent : Option ι) : TodoRequest ι :=
  { title := t.title, description := t.description, group, tags := t.tagIds ids, parent }

def createTags (store : Store ι ε σ) (group : ι) :
    List TagTemplate → TagIds ι → Creating (Rejected ε) σ (TagIds ι)
  | [], ids => pure ids
  | t :: ts, ids => do
    let id ← store.issue (.tag (t.request group))
    createTags store group ts ((t.name, id) :: ids)

mutual

/-- Creates a todo and then all todos below it; tells how many. -/
def createTree (store : Store ι ε σ) (group : ι) (ids : TagIds ι) (parent : Option ι) :
    TodoTemplate → Creating (Rejected ε) σ Nat
  | ⟨title, description, tagNames, children⟩ => do
    let t : TodoTemplate := ⟨title, description, tagNames, children⟩
    let id ← store.issue (.todo (t.request group ids parent))
    match children with
    | none => pure 1
    | some ts => do
      let n ← createForest store group ids (some id) ts
      pure (1 + n)

def createForest (store : Store ι ε σ) (group : ι) (ids : TagIds ι) (parent : Option ι) :
    List TodoTemplate → Creating (Rejected ε) σ Nat
  | [] => pure 0
  | t :: ts => do
    let m ← createTree store group ids parent t
    let n ← createForest store group ids parent ts
    pure (m + n)

end

def Preset.materialize (p : Preset) (name : String) (store : Store ι ε σ) :
    Creating (Rejected ε) σ (Initialized ι) := do
  let group ← store.issue (.group p.group.request)
  let ids ← createTags store group p.tags []
  let todosCreated ← createForest store group ids none p.todos
  pure { presetName := name, groupId := group, tagsCreated := p.tags.length, todosCreated }

end PresetWorkspace
