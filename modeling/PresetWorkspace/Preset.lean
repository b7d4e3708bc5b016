import PresetWorkspace.Color
import PresetWorkspace.Ratios

/-!
# Presets

A preset is a template of one tag group, its tags and a forest of todos. A
todo names its tags; a name that no tag of the preset has means nothing.
Absent and empty lists differ in the text of a preset and in nothing else.
-/

namespace PresetWorkspace

structure GroupTemplate where
  name : String
  color : String
  description : Option String := none
  goalRatios : Option Ratios := none
  isTodoGroup : Bool := true
  deriving DecidableEq

structure TagTemplate where
  name : String
  color : String
  description : Option String := none
  deriving DecidableEq

structure TodoTemplate where
  title : String
  description : Option String := none
  tagNames : Option (List String) := none
  children : Option (List TodoTemplate) := none

structure Preset where
  name : String
  description : Option String := none
  group : GroupTemplate
  tags : List TagTemplate := []
  todos : List TodoTemplate := []

/-! ## Forests -/

namespace TodoTemplate

def subtodos (t : TodoTemplate) : List TodoTemplate := t.children.getD []

def isLeaf (t : TodoTemplate) : Bool := t.subtodos.isEmpty

mutual

def count : TodoTemplate → Nat
  | ⟨_, _, _, none⟩ => 1
  | ⟨_, _, _, some ts⟩ => 1 + countAll ts

def countAll : List TodoTemplate → Nat
  | [] => 0
  | t :: ts => t.count + countAll ts

end

theorem count_eq (t : TodoTemplate) : t.count = 1 + countAll t.subtodos := by
  obtain ⟨_, _, _, _ | ts⟩ := t <;> simp [count, subtodos, countAll]

end TodoTemplate

/-! ## Summaries -/

structure Summary where
  name : String
  description : Option String
  tagCount : Nat
  todoCount : Nat
  deriving DecidableEq

/-- The summary of a preset counts the todos of every depth. -/
def Preset.summary (p : Preset) : Summary :=
  { name := p.name
    description := p.description
    tagCount := p.tags.length
    todoCount := TodoTemplate.countAll p.todos }

/-- What setting up a preset has created, in a store with ids of type `ι`. -/
structure Initialized (ι : Type) where
  presetName : String
  groupId : ι
  tagsCreated : Nat
  todosCreated : Nat
  deriving DecidableEq

end PresetWorkspace
