import PresetWorkspace.Call
import PresetWorkspace.Json
import PresetWorkspace.Preset
import PresetWorkspace.Record
import PresetWorkspace.Settings.Basic

/-!
# The shapes of documents

A `Shape` says what may stand at a place of a document, a `Kind` which records
there are. `Kind.fields` lists the members of a record in order, and
`Kind.build` makes the record of their values.
-/

namespace PresetWorkspace.Document

inductive Kind where
  | preset
  | groupTemplate
  | tagTemplate
  | todoTemplate
  | summary
  | initialized
  | groupRecord
  | tagRecord
  | todoRecord
  | groupRequest
  | tagRequest
  | todoRequest
  | settings
  | databaseSection
  | presetsSection
  | userSection
  deriving DecidableEq

inductive Shape where
  | text
  | color
  | path
  | flag
  | ratio
  | count
  | time
  | id
  | ratios
  | optional (s : Shape)
  | list (s : Shape)
  | record (k : Kind)
  deriving DecidableEq

abbrev Kind.Carrier : Kind → Type
  | .preset => Preset
  | .groupTemplate => GroupTemplate
  | .tagTemplate => TagTemplate
  | .todoTemplate => TodoTemplate
  | .summary => Summary
  | .initialized => Initialized Uuid
  | .groupRecord => Group
  | .tagRecord => Tag
  | .todoRecord => Todo
  | .groupRequest => GroupRequest
  | .tagRequest => TagRequest Uuid
  | .todoRequest => TodoRequest Uuid
  | .settings => Settings
  | .databaseSection => String
  | .presetsSection => Option String
  | .userSection => String

abbrev Shape.Carrier : Shape → Type
  | .text | .color | .path => String
  | .flag => Bool
  | .ratio => Binary64
  | .count => Nat
  | .time => Int
  | .id => Uuid
  | .ratios => Ratios
  | .optional s => Option s.Carrier
  | .list s => List s.Carrier
  | .record k => k.Carrier

/-! ## Fields -/

/-- What an absent member means: a fault, a value, or a value in object form only. -/
inductive Absence (α : Type) where
  | fault
  | value (v : α)
  | inObject (v : α)

structure Field where
  name : String
  shape : Shape
  absence : Absence shape.Carrier

namespace Field

def required (name : String) (shape : Shape) : Field := ⟨name, shape, .fault⟩

def filled (name : String) (shape : Shape) (v : shape.Carrier) : Field := ⟨name, shape, .value v⟩

def optional (name : String) (shape : Shape) : Field := ⟨name, .optional shape, .value none⟩

/-- A member without a value by default, which still needs its place in a list. -/
def nullable (name : String) (shape : Shape) : Field := ⟨name, .optional shape, .inObject none⟩

end Field

abbrev Slots : List Field → Type
  | [] => Unit
  | f :: fs => Option f.shape.Carrier × Slots fs

abbrev Parts : List Field → Type
  | [] => Unit
  | f :: fs => f.shape.Carrier × Parts fs

def Slots.empty : (fs : List Field) → Slots fs
  | [] => ()
  | _ :: fs => (none, Slots.empty fs)

/-! ## Records -/

abbrev Kind.fields : Kind → List Field
  | .preset =>
    [.required "name" .text, .optional "description" .text, .required "tag_group" (.record .groupTemplate),
      .filled "tags" (.list (.record .tagTemplate)) [], .filled "todos" (.list (.record .todoTemplate)) []]
  | .groupTemplate =>
    [.required "name" .text, .required "color" .color, .optional "description" .text,
      .optional "goal_ratios" .ratios, .filled "is_todo_group" .flag true]
  | .tagTemplate => [.required "name" .text, .required "color" .color, .optional "description" .text]
  | .todoTemplate =>
    [.required "title" .text, .optional "description" .text, .optional "tag_names" (.list .text),
      .optional "children" (.list (.record .todoTemplate))]
  | .summary =>
    [.required "name" .text, .nullable "description" .text, .required "tag_count" .count,
      .required "todo_count" .count]
  | .initialized =>
    [.required "preset_name" .text, .required "tag_group_id" .id, .required "tags_created" .count,
      .required "todos_created" .count]
  | .groupRecord =>
    [.required "id" .id, .required "user_id" .text, .required "name" .text, .required "color" .text,
      .nullable "description" .text, .nullable "goal_ratios" .ratios, .required "is_todo_group" .flag,
      .required "created_at" .time]
  | .tagRecord =>
    [.required "id" .id, .required "user_id" .text, .required "group_id" .id, .required "name" .text,
      .required "color" .text, .nullable "description" .text, .required "created_at" .time]
  | .todoRecord =>
    [.required "id" .id, .required "user_id" .text, .required "tag_group_id" .id, .nullable "parent_id" .id,
      .required "title" .text, .nullable "description" .text, .required "tag_ids" (.list .id),
      .required "created_at" .time]
  | .groupRequest =>
    [.required "name" .text, .required "color" .text, .nullable "description" .text,
      .nullable "goal_ratios" .ratios, .required "is_todo_group" .flag]
  | .tagRequest =>
    [.required "name" .text, .required "color" .text, .nullable "description" .text, .required "group_id" .id]
  | .todoRequest =>
    [.required "title" .text, .nullable "description" .text, .required "tag_group_id" .id,
      .nullable "tag_ids" (.list .id), .nullable "parent_id" .id]
  | .settings =>
    [.filled "database" (.record .databaseSection) ({} : Settings).database,
      .filled "presets" (.record .presetsSection) ({} : Settings).presetFolder,
      .filled "user" (.record .userSection) ({} : Settings).user]
  | .databaseSection => [.filled "path" .path ({} : Settings).database]
  | .presetsSection => [.optional "dir" .path]
  | .userSection => [.filled "id" .text ({} : Settings).user]

def Kind.build : (k : Kind) → Parts k.fields → k.Carrier
  | .preset, (name, description, group, tags, todos, ()) => { name, description, group, tags, todos }
  | .groupTemplate, (name, color, description, goalRatios, isTodoGroup, ()) =>
    { name, color, description, goalRatios, isTodoGroup }
  | .tagTemplate, (name, color, description, ()) => { name, color, description }
  | .todoTemplate, (title, description, tagNames, children, ()) => { title, description, tagNames, children }
  | .summary, (name, description, tagCount, todoCount, ()) => { name, description, tagCount, todoCount }
  | .initialized, (presetName, groupId, tagsCreated, todosCreated, ()) =>
    { presetName, groupId, tagsCreated, todosCreated }
  | .groupRecord, (id, user, name, color, description, goalRatios, isTodoGroup, createdAt, ()) =>
    { id, user, name, color, description, goalRatios, isTodoGroup, createdAt }
  | .tagRecord, (id, user, group, name, color, description, createdAt, ()) =>
    { id, user, group, name, color, description, createdAt }
  | .todoRecord, (id, user, group, parent, title, description, tags, createdAt, ()) =>
    { id, user, group, parent, title, description, tags, createdAt }
  | .groupRequest, (name, color, description, goalRatios, isTodoGroup, ()) =>
    { name, color, description, goalRatios, isTodoGroup }
  | .tagRequest, (name, color, description, group, ()) => { name, color, description, group }
  | .todoRequest, (title, description, group, tags, parent, ()) => { title, description, group, tags, parent }
  | .settings, (database, presetFolder, user, ()) => { database, presetFolder, user }
  | .databaseSection, (path, ()) => path
  | .presetsSection, (dir, ()) => dir
  | .userSection, (id, ()) => id

/-! ## Wording -/

def Kind.title : Kind → String
  | .preset => "Preset"
  | .groupTemplate => "PresetTagGroup"
  | .tagTemplate => "PresetTag"
  | .todoTemplate => "PresetTodo"
  | .summary => "PresetInfo"
  | .initialized => "PresetInitializeResult"
  | .groupRecord => "TagGroup"
  | .tagRecord => "Tag"
  | .todoRecord => "Todo"
  | .groupRequest => "TagGroupCreate"
  | .tagRequest => "TagCreate"
  | .todoRequest => "TodoCreate"
  | .settings => "Config"
  | .databaseSection => "DatabaseConfig"
  | .presetsSection => "PresetsConfig"
  | .userSection => "UserConfig"

def Shape.wanted : Shape → String
  | .text | .color => "a string"
  | .path => "path string"
  | .flag => "a boolean"
  | .ratio => "f64"
  | .count => "usize"
  | .time => "i64"
  | .id => "a formatted UUID string"
  | .ratios => "a map"
  | .optional s => s.wanted
  | .list _ => "a sequence"
  | .record k => "struct " ++ k.title

end PresetWorkspace.Document
