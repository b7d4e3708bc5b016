import PresetWorkspace.Decimal.Notation
import PresetWorkspace.Preset
import PresetWorkspace.Uuid

/-!
# Markdown

Presets, summaries and results as markdown. The todos of a preset become a
nested list: one line each, two blanks further in for every level.
-/

namespace PresetWorkspace.Markdown

def labelled (label value : String) : String := "- **" ++ label ++ "**: " ++ value ++ "\n"

/-! ## Listings -/

def listRow (s : Summary) : String :=
  s!"| {s.name} | {s.tagCount} | {s.todoCount} | " ++ s.description.getD "" ++ " |\n"

def listing : List Summary → String
  | [] => "No presets available.\n"
  | rows =>
    "| name | tags | todos | description |\n" ++ "|------|------|-------|-------------|\n" ++
      String.join (rows.map listRow)

/-! ## Presets -/

def tagList : Option (List String) → String
  | none | some [] => ""
  | some names => " [" ++ ", ".intercalate (names.map fun n => "`" ++ n ++ "`") ++ "]"

def todoLine (depth : Nat) (title : String) (tagNames : Option (List String)) : String :=
  "".pushn ' ' (2 * depth) ++ "- " ++ title ++ tagList tagNames ++ "\n"

mutual

def todoTree (depth : Nat) : TodoTemplate → String
  | ⟨title, _, tagNames, none⟩ => todoLine depth title tagNames
  | ⟨title, _, tagNames, some ts⟩ => todoLine depth title tagNames ++ todoForest (depth + 1) ts

def todoForest (depth : Nat) : List TodoTemplate → String
  | [] => ""
  | t :: ts => todoTree depth t ++ todoForest depth ts

end

def ratio (entry : String × Binary64) : String := entry.1 ++ "=" ++ String.ofList entry.2.plain

def groupSection (g : GroupTemplate) : String :=
  s!"\n### Tag group: {g.name} ({g.color})\n" ++
    (g.description.elim "" (labelled "description")) ++
    labelled "todo group" (if g.isTodoGroup then "true" else "false") ++
    (g.goalRatios.elim "" fun r => labelled "goal ratios" (", ".intercalate (r.entries.map ratio)))

def tagLine (t : TagTemplate) : String :=
  s!"- {t.name} ({t.color})" ++ t.description.elim "" (": " ++ ·) ++ "\n"

def tagSection : List TagTemplate → String
  | [] => ""
  | ts => "\n### Tags\n" ++ String.join (ts.map tagLine)

def todoSection : List TodoTemplate → String
  | [] => ""
  | ts => "\n### Todos\n" ++ todoForest 0 ts

def preset (p : Preset) : String :=
  "## Preset: " ++ p.name ++ "\n" ++ p.description.elim "" (· ++ "\n") ++ groupSection p.group ++
    tagSection p.tags ++ todoSection p.todos

/-! ## Results -/

def initialized (i : Initialized Uuid) : String :=
  "## Initialized preset: " ++ i.presetName ++ "\n" ++ labelled "tag_group_id" ("`" ++ i.groupId.text ++ "`") ++
    labelled "tags_created" (toString i.tagsCreated) ++ labelled "todos_created" (toString i.todosCreated)

def dryRun (s : Summary) : String :=
  "## Dry run: " ++ s.name ++ "\n" ++ labelled "tag groups" "1" ++ labelled "tags" (toString s.tagCount) ++
    labelled "todos" (toString s.todoCount)

end PresetWorkspace.Markdown
