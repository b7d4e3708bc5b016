import PresetWorkspace.Program
import PresetWorkspace.Workspace.Snapshot
import Std.Time.DateTime.Timestamp

/-!
# Command line

Gathers the files that a run can use, runs it, prints what it has written and
saves the files that it has changed.
-/

namespace PresetWorkspace.Main

/-! ## Gathering files -/

def contentOf (bytes : ByteArray) : Entry Workspace :=
  match String.fromUTF8? bytes with
  | none => .undecodable
  | some text =>
    match Workspace.Snapshot.ofText? text with
    | some s => .stored s.workspace
    | none => .text text

def entryAt (path : String) : IO (Option (Entry Workspace)) := do
  try
    let place ← IO.FS.realPath path
    if ← place.isDir then return some .folder
    return some (contentOf (← IO.FS.readBinFile place))
  catch _ => return none

/-- The tree with what there is at a path and above it. -/
def gather (tree : FileTree Workspace) (path : String) : IO (FileTree Workspace) := do
  let pieces := FilePath.split path
  let mut tree := tree
  for n in List.range pieces.length do
    let path := "/".intercalate (pieces.take (n + 1))
    match tree.locate path with
    | .ok loc =>
      if (tree.entry? loc).isNone then
        match ← entryAt path with
        | some e => tree := tree.put loc e
        | none => pure ()
    | .error _ => pure ()
  return tree

def gatherFolder (tree : FileTree Workspace) (path : String) : IO (FileTree Workspace) := do
  let mut tree ← gather tree path
  if tree.isFolder path then
    for e in ← (← IO.FS.realPath path).readDir do
      tree ← gather tree (FilePath.join path e.fileName)
  return tree

def gatherAll (env : Environment) (i : CommandLine.Invocation) : IO (FileTree Workspace) := do
  let mut tree : FileTree Workspace := {}
  for path in env.candidates ++ i.config.toList do
    tree ← gather tree path
  match Settings.discover tree env i.config with
  | .error _ => pure ()
  | .ok s =>
    let s := s.under (Program.flags i)
    tree ← gather tree s.database
    for folder in env.programFolder.toList do
      tree ← gather tree (FilePath.join folder "presets")
    tree ← gatherFolder tree (Program.catalogOf s env tree).folder
  match (Log.ofInvocation i).sink with
  | .file path => gather tree path
  | _ => return tree

/-! ## Saving files -/

def pathOf : Location → String
  | "/" :: names => "/" ++ "/".intercalate names
  | names => "/".intercalate names

def save (before : FileTree Workspace) (loc : Location) (e : Entry Workspace) : IO Unit := do
  let path := pathOf loc
  match e, before.entry? loc with
  | .folder, none => IO.FS.createDirAll path
  | .text s, some (.text old) => if s ≠ old then IO.FS.writeFile path s
  | .text s, _ => IO.FS.writeFile path s
  | .stored w, old =>
    let same : Bool := match old with
      | some (.stored v) => decide (v = w)
      | _ => false
    match w.snapshot with
    | .ok s => if ¬ same then IO.FS.writeFile path s.text
    | .error e => throw (IO.userError e.failure.message)
  | _, _ => pure ()

/-! ## Surroundings -/

def variableNames : List String :=
  [Environment.settingsPathName, Environment.databaseName, Environment.presetFolderName, Environment.userName]

def accountHome : IO (Option String) := do
  try
    let status ← IO.FS.lines "/proc/self/status"
    let user := status.toList.findSome? fun line => match line.splitOn "\t" with
      | "Uid:" :: id :: _ => some id
      | _ => none
    let accounts ← IO.FS.lines "/etc/passwd"
    return accounts.toList.findSome? fun line => match line.splitOn ":" with
      | [_, _, id, _, _, home, _] => if some id = user then some home else none
      | _ => none
  catch _ => return none

/-- What the program finds around it. Its source stands where a build of its own leaves the program three folders
further down. -/
def surroundings : IO Environment := do
  let values ← variableNames.mapM fun name => return (name, ← IO.getEnv name)
  let home ← match (← IO.getEnv "HOME").filter (· ≠ "") with
    | some home => pure (some home)
    | none => accountHome
  let programFolder := FilePath.parent? (← IO.appPath).toString
  return { lookup := fun name => (values.lookup name).join, home, programFolder
           sourceFolder := FilePath.join (programFolder.getD "") "../../.." }

/-! ## Running -/

def draws : IO (Nat → Workspace.Draw) := do
  let time := (← Std.Time.Timestamp.now).toMillisecondsSinceUnixEpoch.val
  let bytes ← IO.getRandomBytes 9
  let seed := bytes.toList.foldl (fun n b => n * 256 + b.toNat) 0
  return fun n => { id := .timed time.toNat (seed + n), time }

def start (args : List String) : IO UInt32 := do
  let env ← surroundings
  let files ← match CommandLine.parse args with
    | .ok i => gatherAll env i
    | .error _ => pure {}
  let outcome := Program.run .plain (← draws) env args files
  for (loc, e) in outcome.state.files.entries do
    save files loc e
  IO.print outcome.state.output
  IO.eprint outcome.state.errors
  return outcome.exit

end PresetWorkspace.Main

def main (args : List String) : IO UInt32 := PresetWorkspace.Main.start args
