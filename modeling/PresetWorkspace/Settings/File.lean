import PresetWorkspace.Settings.Layer
import PresetWorkspace.Yaml.Node

/-!
# Settings files

A settings file is a YAML document of up to three sections. What is left empty
counts as an empty section, unknown members are passed over, and a member that
is known may stand once. Scalars are taken as they are written.
-/

namespace PresetWorkspace.Yaml.Document

/-! ## What a node stands for -/

def text? (doc : Document) (n : Node) : Option String :=
  match doc.resolve n with
  | some (.scalar _ _ text) => some text
  | _ => none

def nullTag : String := "tag:yaml.org,2002:null"

def isNull (text : String) : Bool := text ∈ ["null", "Null", "NULL", "~"]

/-- The text of a scalar that may stand for nothing; only a plain one does, without a tag also when empty. -/
def optionalText? (doc : Document) (n : Node) : Option (Option String) :=
  match doc.resolve n with
  | some (.scalar _ false text) => some (some text)
  | some (.scalar none true text) => some (if text.isEmpty || isNull text then none else some text)
  | some (.scalar (some tag) true text) =>
    if tag ≠ nullTag then some (some text) else if isNull text then some none else none
  | _ => none

/-- The members of a mapping by the texts of their keys; an empty plain scalar has none. -/
def members? (doc : Document) (n : Node) : Option (List (String × Node)) :=
  match doc.resolve n with
  | some (.mapping entries) => entries.mapM fun (key, value) => (doc.text? key).map (·, value)
  | some (.scalar _ true "") => some []
  | _ => none

/-! ## Members -/

def member? (name : String) (members : List (String × Node)) : Option (Option Node) :=
  match members.filter (·.1 = name) with
  | [] => some none
  | [(_, n)] => some (some n)
  | _ => none

def fieldOf? {α : Type} (doc : Document) (sections : List (String × Node)) (part name : String)
    (read : Node → Option α) : Option (Option α) := do
  match ← member? part sections with
  | none => return none
  | some n =>
    match ← member? name (← doc.members? n) with
    | none => return none
    | some n => return some (← read n)

end PresetWorkspace.Yaml.Document

namespace PresetWorkspace.Layer

def ofDocument? (doc : Yaml.Document) : Option Layer := do
  let sections ← doc.members? doc.root
  let database ← doc.fieldOf? sections "database" "path" doc.text?
  let presetFolder ← doc.fieldOf? sections "presets" "dir" doc.optionalText?
  let user ← doc.fieldOf? sections "user" "id" doc.text?
  return { database, presetFolder := presetFolder.join, user }

/-- The settings that a text gives; a text without a document gives none. -/
def ofText? (text : String) : Option Layer := do
  match ← Yaml.Document.ofText? text with
  | none => return {}
  | some doc => ofDocument? doc

end PresetWorkspace.Layer
