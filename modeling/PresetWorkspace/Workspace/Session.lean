import PresetWorkspace.Materialize
import PresetWorkspace.Workspace.Create

/-!
# Sessions

A workspace in use: how many draws have been made, and which calls it has
accepted. A transaction that fails gives the workspace back as it was; the
draws are not given back.
-/

namespace PresetWorkspace.Workspace

/-- A workspace in use; `journal` lists the accepted calls, the latest one first. -/
structure Session where
  workspace : Workspace := {}
  drawn : Nat := 0
  journal : List (Call Uuid × Uuid) := []

namespace Session

def scope (source : Nat → Draw) (user : String) : Store Uuid Error Session := fun call =>
  ExceptT.mk fun s =>
    let draw := source s.drawn
    match Workspace.create user draw call s.workspace with
    | (.ok id, w) => (.ok id, ⟨w, s.drawn + 1, (call, id) :: s.journal⟩)
    | (.error e, w) => (.error e, ⟨w, s.drawn + 1, s.journal⟩)

def rollBack (s earlier : Session) : Session := { s with workspace := earlier.workspace }

/-- Runs all of a computation or, if it fails, none of it. -/
def transaction {ε α : Type} (body : Creating ε Session α) : Creating ε Session α := ExceptT.mk fun s =>
  match body s with
  | (.ok v, s') => (.ok v, s')
  | (.error e, s') => (.error e, s'.rollBack s)

def rejection (r : Rejected Error) : Failure := r.cause.failure.within r.message

def setUp (source : Nat → Draw) (user name : String) (p : Preset) : Creating Failure Session (Initialized Uuid) :=
  (transaction (p.materialize name (scope source user))).adapt fun r =>
    (rejection r).within ("Failed to initialize preset '" ++ name ++ "'")

/-- Sets up the preset that has been loaded under a name. Where none has been loaded, nothing is set up. -/
def setUpLoaded (source : Nat → Draw) (user name : String) :
    Except PresetError Preset → Creating PresetError Session (Initialized Uuid)
  | .error e => throw e
  | .ok p => (setUp source user name p).adapt .storage

end Session

end PresetWorkspace.Workspace
