import PresetWorkspace.Failure
import PresetWorkspace.Workspace.Table

/-!
# Rejections

Why a workspace rejects a request: a record that is not the user's, a rule of
a table, a table or column that is not there, or a row that does not read.
-/

namespace PresetWorkspace.Workspace

inductive Error where
  | groupNotFound (id : Uuid)
  | parentNotFound (id : Uuid)
  | tagNotFound (id : Uuid)
  | noTable (name : String)
  | noColumn (name : String)
  | emptyTitle
  | emptyColumn (table : Table) (column : String)
  | repeatedId (table : Table)
  | brokenReference
  | badText (index : Nat) (cause : String)
  | badCell (found : String) (index : Nat) (column : String)

namespace Error

def ofTables (message : String) (causes : List String) : Failure := { message, causes, origin := .storage }

def failure : Error → Failure
  | .groupNotFound id => { message := "Tag group not found: " ++ id.text }
  | .parentNotFound id => { message := "Parent todo not found: " ++ id.text }
  | .tagNotFound id => { message := "Tag not found: " ++ id.text }
  | .noTable name => ofTables ("no such table: " ++ name) ["Error code 1: SQL error or missing database"]
  | .noColumn name => ofTables ("no such column: " ++ name) ["Error code 1: SQL error or missing database"]
  | .emptyTitle => ofTables "CHECK constraint failed: length(title) > 0" ["Error code 275: A CHECK constraint failed"]
  | .emptyColumn table column =>
    ofTables ("NOT NULL constraint failed: " ++ table.name ++ "." ++ column)
      ["Error code 1299: A NOT NULL constraint failed"]
  | .repeatedId table =>
    ofTables ("UNIQUE constraint failed: " ++ table.name ++ ".id") ["Error code 1555: A PRIMARY KEY constraint failed"]
  | .brokenReference => ofTables "FOREIGN KEY constraint failed" ["Error code 787: Foreign key constraint failed"]
  | .badText index cause => ofTables s!"Conversion error from type Text at index: {index}, {cause}" [cause]
  | .badCell found index column =>
    ofTables s!"Invalid column type {found} at index: {index}, name: {column}" []

end Error

def requireTable (w : Workspace) (t : Table) : Except Error Unit :=
  if w.hasTable t then .ok () else .error (.noTable t.name)

end PresetWorkspace.Workspace
