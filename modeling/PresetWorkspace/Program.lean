import PresetWorkspace.Document.Writer
import PresetWorkspace.Host
import PresetWorkspace.Log
import PresetWorkspace.Markdown
import PresetWorkspace.Settings.Discovery
import PresetWorkspace.Workspace.Session

/-!
# The program

A run takes a command line, an environment and files, and gives what it
writes, its exit code and the files afterwards. Settings come from a file,
the environment and the command line; results go to standard output in the
format asked for, and a failure is reported on standard error. The host says
which workspaces and folders there are to be had.
-/

namespace PresetWorkspace.Program

structure State where
  files : FileTree Workspace
  output : String := ""
  errors : String := ""

/-- A part of a run; what a failed part has done stays done. -/
abbrev Running := ExceptT Failure (StateM State)

/-! ## Output and log -/

def write (s : String) : Running Unit := modify fun st => { st with output := st.output ++ s }

/-- Shows a result, or fails with its problem, which in JSON is shown too. -/
def answer {α : Type} (format : OutputFormat) (toJson : α → Json) (toMarkdown : α → String) :
    Except PresetError α → Running Unit
  | .ok v =>
    match format with
    | .json => write ((toJson v).pretty ++ "\n")
    | .markdown => write (toMarkdown v)
  | .error e => do
    if format = .json then write (e.toJson.pretty ++ "\n")
    throw e.failure

/-- Adds a line to a log. A line that a file does not take is lost. -/
def addLine (sink : Log.Sink) (line : String) (st : State) : State :=
  match sink with
  | .nowhere => st
  | .output => { st with output := st.output ++ line }
  | .errors => { st with errors := st.errors ++ line }
  | .file path => { st with files := (st.files.appendText path line).toOption.getD st.files }

def tell (log : Log) (e : Log.Event) : Running Unit :=
  if log.tells e then modify (addLine log.sink e.line) else pure ()

def openLog (log : Log) : Running Unit := do
  match log.sink with
  | .file path =>
    match (← get).files.appendText path "" with
    | .ok files => modify fun st => { st with files }
    | .error e => throw { message := e.message, origin := .file }
  | _ => pure ()

/-! ## Settings -/

def flags (i : CommandLine.Invocation) : Layer where
  database := i.database
  presetFolder := i.presetFolder
  user := i.user

/-- The settings of a run: those of the file and the environment under those of the command line. -/
def settings (log : Log) (env : Environment) (i : CommandLine.Invocation) : Running Settings := do
  let file := env.settingsFile (← get).files i.config
  file.forM fun path => tell log (.settingsFound path)
  match Settings.load (← get).files file env with
  | .error e => throw e.failure
  | .ok s =>
    file.forM fun path => tell log (.settingsRead path)
    return s.under (flags i)

/-! ## Commands -/

/-- The presets of a run: those of the folder that is settled, or those that come with the program. -/
def catalogOf (s : Settings) (env : Environment) (files : FileTree Workspace) : Catalog :=
  ⟨s.presetFolder.getD (env.bundledFolder files)⟩

def catalog (log : Log) (env : Environment) (s : Settings) : Running Catalog := do
  let c := catalogOf s env (← get).files
  tell log (.presetsAt c.folder)
  return c

def list (host : Host) (log : Log) (c : Catalog) : Running (Except PresetError (List Summary)) := do
  let files := (← get).files
  if ¬ files.isFolder c.folder then tell log (.presetsMissing c.folder)
  match host.list files c with
  | .error e => return .error e
  | .ok listing =>
    listing.skipped.forM fun e => tell log (.presetSkipped e)
    return .ok listing.summaries

def load (c : Catalog) (name : String) : Running (Except PresetError Preset) := do
  return c.load (← get).files name

/-- Sets up a preset in the workspace of the settings, which is opened before the preset is read. -/
def setUp (host : Host) (source : Nat → Workspace.Draw) (log : Log) (s : Settings) (c : Catalog) (name : String) :
    Running (Except PresetError (Initialized Uuid)) := do
  let (opened, files) := host.openWorkspace (← get).files s.database
  modify fun st => { st with files }
  match opened with
  | .error f => throw f
  | .ok opened =>
    let loaded ← load c name
    if loaded.isOk then tell log (.setUpStarted name s.user)
    let (result, session) :=
      (Workspace.Session.setUpLoaded source s.user name loaded).run.run { workspace := opened.workspace }
    modify fun st => { st with files := opened.keep session.workspace st.files }
    session.journal.reverse.forM fun (call, id) => tell log (.recordCreated call id)
    match result with
    | .error e => return .error e
    | .ok initialized =>
      tell log (.setUpDone initialized)
      return .ok initialized

def carryOut (host : Host) (source : Nat → Workspace.Draw) (log : Log) (env : Environment) (s : Settings) :
    CommandLine.Command → Running Unit
  | .list format => do
    answer format (fun ss => .array (ss.map Summary.toJson)) Markdown.listing (← list host log (← catalog log env s))
  | .show name format => do
    answer format Preset.toJson Markdown.preset (← load (← catalog log env s) name)
  | .init name dryRun format => do
    let c ← catalog log env s
    tell log (.setUpAsked name dryRun)
    if dryRun then answer format Summary.toJson Markdown.dryRun ((← load c name).map Preset.summary)
    else answer format Initialized.toJson Markdown.initialized (← setUp host source log s c name)

/-! ## Runs -/

def perform (host : Host) (source : Nat → Workspace.Draw) (env : Environment) (i : CommandLine.Invocation) :
    Running Unit := do
  let log := Log.ofInvocation i
  openLog log
  let s ← settings log env i
  carryOut host source log env s i.command

structure Outcome where
  exit : UInt32
  state : State

def decline (e : CommandLine.UsageError) (files : FileTree Workspace) : Outcome :=
  match e with
  | .version => ⟨0, { files, output := CommandLine.versionLine }⟩
  | .help => ⟨0, { files, output := CommandLine.usage }⟩
  | _ => ⟨2, { files, errors := CommandLine.usage }⟩

/-- Runs a command line, without the name of the program. New records draw from `source`. -/
def run (host : Host) (source : Nat → Workspace.Draw) (env : Environment) (args : List String)
    (files : FileTree Workspace) : Outcome :=
  match CommandLine.parse args with
  | .error e => decline e files
  | .ok i =>
    match (perform host source env i).run.run { files } with
    | (.ok (), state) => ⟨0, state⟩
    | (.error f, state) => ⟨1, { state with errors := state.errors ++ f.report }⟩

end PresetWorkspace.Program
