import PresetWorkspace.Call
import PresetWorkspace.Json
import PresetWorkspace.Preset
import PresetWorkspace.Record
import PresetWorkspace.Settings.Basic

/-!
# Writing documents

The JSON value of each kind of record, its members in the order of its fields.
Templates and summaries leave out a member without a value; records and
requests write it as `null`.
-/

namespace PresetWorkspace

namespace Json

/-! ## Members -/

def ofOption {α : Type} (encode : α → Json) : Option α → Json
  | none => .null
  | some v => encode v

/-- A member that is left out when it has no value. -/
def memberIfAny {α : Type} (name : String) (encode : α → Json) : Option α → List (String × Json)
  | none => []
  | some v => [(name, encode v)]

def ofNat (n : Nat) : Json := .number (.whole n)

def ofId (u : Uuid) : Json := .text u.text

def ofTexts (ss : List String) : Json := .array (ss.map .text)

def ofRatios (r : Ratios) : Json := .object (r.entries.map fun e => (e.1, .number (.ratio e.2)))

end Json

open Json

/-! ## Templates -/

def GroupTemplate.toJson (g : GroupTemplate) : Json :=
  .object <|
    [("name", .text g.name), ("color", .text g.color)] ++
      memberIfAny "description" .text g.description ++
      memberIfAny "goal_ratios" ofRatios g.goalRatios ++
      [("is_todo_group", .boolean g.isTodoGroup)]

def TagTemplate.toJson (t : TagTemplate) : Json :=
  .object <| [("name", .text t.name), ("color", .text t.color)] ++ memberIfAny "description" .text t.description

mutual

def TodoTemplate.toJson : TodoTemplate → Json
  | ⟨title, description, tagNames, children⟩ =>
    .object <|
      [("title", .text title)] ++ memberIfAny "description" .text description ++
        memberIfAny "tag_names" ofTexts tagNames ++
        match children with
        | none => []
        | some ts => [("children", .array (TodoTemplate.toJsonAll ts))]

def TodoTemplate.toJsonAll : List TodoTemplate → List Json
  | [] => []
  | t :: ts => t.toJson :: TodoTemplate.toJsonAll ts

end

def Preset.toJson (p : Preset) : Json :=
  .object <|
    [("name", .text p.name)] ++ memberIfAny "description" .text p.description ++
      [("tag_group", p.group.toJson), ("tags", .array (p.tags.map TagTemplate.toJson)),
        ("todos", .array (TodoTemplate.toJsonAll p.todos))]

def Summary.toJson (s : Summary) : Json :=
  .object <|
    [("name", .text s.name)] ++ memberIfAny "description" .text s.description ++
      [("tag_count", ofNat s.tagCount), ("todo_count", ofNat s.todoCount)]

def Initialized.toJson (i : Initialized Uuid) : Json :=
  .object
    [("preset_name", .text i.presetName), ("tag_group_id", ofId i.groupId), ("tags_created", ofNat i.tagsCreated),
      ("todos_created", ofNat i.todosCreated)]

/-! ## Records and requests -/

def Group.toJson (g : Group) : Json :=
  .object
    [("id", ofId g.id), ("user_id", .text g.user), ("name", .text g.name), ("color", .text g.color),
      ("description", ofOption .text g.description), ("goal_ratios", ofOption ofRatios g.goalRatios),
      ("is_todo_group", .boolean g.isTodoGroup), ("created_at", .number (.whole g.createdAt))]

def Tag.toJson (t : Tag) : Json :=
  .object
    [("id", ofId t.id), ("user_id", .text t.user), ("group_id", ofId t.group), ("name", .text t.name),
      ("color", .text t.color), ("description", ofOption .text t.description),
      ("created_at", .number (.whole t.createdAt))]

def Todo.toJson (t : Todo) : Json :=
  .object
    [("id", ofId t.id), ("user_id", .text t.user), ("tag_group_id", ofId t.group),
      ("parent_id", ofOption ofId t.parent), ("title", .text t.title),
      ("description", ofOption .text t.description), ("tag_ids", .array (t.tags.map ofId)),
      ("created_at", .number (.whole t.createdAt))]

def GroupRequest.toJson (r : GroupRequest) : Json :=
  .object
    [("name", .text r.name), ("color", .text r.color), ("description", ofOption .text r.description),
      ("goal_ratios", ofOption ofRatios r.goalRatios), ("is_todo_group", .boolean r.isTodoGroup)]

def TagRequest.toJson (r : TagRequest Uuid) : Json :=
  .object
    [("name", .text r.name), ("color", .text r.color), ("description", ofOption .text r.description),
      ("group_id", ofId r.group)]

def TodoRequest.toJson (r : TodoRequest Uuid) : Json :=
  .object
    [("title", .text r.title), ("description", ofOption .text r.description), ("tag_group_id", ofId r.group),
      ("tag_ids", ofOption (fun ids => .array (ids.map ofId)) r.tags), ("parent_id", ofOption ofId r.parent)]

def Settings.toJson (s : Settings) : Json :=
  .object
    [("database", .object [("path", .text s.database)]),
      ("presets", .object (memberIfAny "dir" .text s.presetFolder)),
      ("user", .object [("id", .text s.user)])]

end PresetWorkspace
