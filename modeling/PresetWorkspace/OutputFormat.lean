/-!
# Output formats

Results are shown as markdown or as JSON. `md` is another name of markdown.
-/

namespace PresetWorkspace

inductive OutputFormat where
  | json
  | markdown
  deriving DecidableEq

namespace OutputFormat

def names : List (String × OutputFormat) := [("json", .json), ("markdown", .markdown), ("md", .markdown)]

def name : OutputFormat → String
  | .json => "json"
  | .markdown => "markdown"

def ofName? (value : String) (ignoreCase : Bool) : Option OutputFormat :=
  names.lookup (if ignoreCase then value.toLower else value)

def unknownMessage (value : String) : String := "invalid variant: " ++ value

end OutputFormat

end PresetWorkspace
