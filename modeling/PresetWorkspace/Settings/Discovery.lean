import PresetWorkspace.Failure
import PresetWorkspace.FileTree
import PresetWorkspace.Settings.File
import PresetWorkspace.Text.Quoted

/-!
# Where settings come from

The settings file is the one asked for, else the first candidate that is a
file. A file that is chosen and cannot be read is an error. The environment
overrides the file.
-/

namespace PresetWorkspace

/-- What a run finds around it: the values of variables, the home of its user, the folder that the program is
started from and the one that it was built from. -/
structure Environment where
  lookup : String → Option String := fun _ => none
  home : Option String := none
  programFolder : Option String := none
  sourceFolder : String

namespace Environment

variable {δ : Type}

def settingsPathName : String := "TODO_PRESETS_CONFIG_PATH"
def databaseName : String := "TODO_PRESETS_DB_PATH"
def presetFolderName : String := "TODO_PRESETS_DIR"
def userName : String := "TODO_PRESETS_USER"

def layer (env : Environment) : Layer where
  database := env.lookup databaseName
  presetFolder := env.lookup presetFolderName
  user := env.lookup userName

def candidates (env : Environment) : List String :=
  let file := "config.yaml"
  (env.lookup settingsPathName).toList ++ [FilePath.join "todo-presets" file] ++
    env.home.toList.map fun home => FilePath.join (FilePath.join home ".todo-presets") file

def settingsFile (env : Environment) (tree : FileTree δ) (explicit : Option String) : Option String :=
  explicit.or (env.candidates.find? tree.isFile)

/-- The folder of the presets that come with the program: the one beside it if there is one, else the one in its
source. -/
def bundledFolder (env : Environment) (tree : FileTree δ) : String :=
  let name := "presets"
  ((env.programFolder.map (FilePath.join · name)).filter tree.isFolder).getD (FilePath.join env.sourceFolder name)

end Environment

inductive SettingsError where
  | unreadable (path : String) (reason : FileError)
  | malformed (path : String)
  deriving DecidableEq

def SettingsError.failure : SettingsError → Failure
  | .unreadable path reason =>
    { message := "Failed to read config file " ++ Text.quoted path, causes := [reason.message], origin := .file }
  | .malformed path => { message := "Failed to parse config file " ++ Text.quoted path }

def Layer.load {δ : Type} (tree : FileTree δ) (path : String) : Except SettingsError Layer :=
  match tree.readText path with
  | .error e => .error (.unreadable path e)
  | .ok text =>
    match Layer.ofText? text with
    | some layer => .ok layer
    | none => .error (.malformed path)

def Settings.load {δ : Type} (tree : FileTree δ) (file : Option String) (env : Environment) :
    Except SettingsError Settings :=
  match file with
  | none => .ok (.ofLayers [env.layer])
  | some path => (Layer.load tree path).map fun layer => .ofLayers [layer, env.layer]

def Settings.discover {δ : Type} (tree : FileTree δ) (env : Environment) (explicit : Option String) :
    Except SettingsError Settings := Settings.load tree (env.settingsFile tree explicit) env

end PresetWorkspace
