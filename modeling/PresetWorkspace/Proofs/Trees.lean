import PresetWorkspace.Document.Fault

/-!
# Trees

What a JSON text holds, taken apart by the grammar alone. A string or a number
may have the form of one and still not be read; it is in the tree without a
value. The tree of a JSON value has values everywhere.
-/

namespace PresetWorkspace

namespace Document

/-- A JSON text taken apart: strings, numbers and keys have no value if they cannot be read. -/
inductive Tree where
  | null
  | boolean (b : Bool)
  | number (n : Option Json.Number)
  | text (s : Option String)
  | array (items : List Tree)
  | object (members : List (Option String × Tree))

/-- The class of the fault where something else is wanted: what cannot be read is at fault in its form. -/
def Tree.misfit : Tree → Cause.Class
  | .number none | .text none => .syntactic
  | _ => .data

end Document

open Document

namespace Json

mutual

def tree : Json → Tree
  | .null => .null
  | .boolean b => .boolean b
  | .number n => .number (some n)
  | .text s => .text (some s)
  | .array items => .array (treeItems items)
  | .object members => .object (treeMembers members)

def treeItems : List Json → List Tree
  | [] => []
  | v :: vs => v.tree :: treeItems vs

def treeMembers : List (String × Json) → List (Option String × Tree)
  | [] => []
  | (name, v) :: ms => (some name, v.tree) :: treeMembers ms

end

instance : Coe Json Tree := ⟨tree⟩

@[simp] theorem tree_null : null.tree = .null := by rw [tree]

@[simp] theorem tree_boolean (b : Bool) : (boolean b).tree = .boolean b := by rw [tree]

@[simp] theorem tree_number (n : Number) : (number n).tree = .number (some n) := by rw [tree]

@[simp] theorem tree_text (s : String) : (text s).tree = .text (some s) := by rw [tree]

theorem tree_array (items : List Json) : (array items).tree = .array (items.map tree) := by
  rw [tree]
  induction items with
  | nil => rw [treeItems, List.map_nil]
  | cons v vs ih => rw [treeItems, List.map_cons, Tree.array.inj ih]

theorem tree_object (members : List (String × Json)) :
    (object members).tree = .object (members.map fun m => (some m.1, m.2.tree)) := by
  rw [tree]
  induction members with
  | nil => rw [treeMembers, List.map_nil]
  | cons m ms ih => rw [treeMembers, List.map_cons, Tree.object.inj ih]

end Json

end PresetWorkspace
