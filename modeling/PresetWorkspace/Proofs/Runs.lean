import PresetWorkspace.Program
import PresetWorkspace.Proofs.Except
import PresetWorkspace.Proofs.Script

/-!
# Runs

What a command answers depends on the settings, the files and the host alone
(`answerTo`). The steps of a run are told in between, and as long as they are
not told to a file, they change nothing that the run reads. So the answer
decides how the run ends (`run_ends`).
-/

namespace PresetWorkspace.Program

open CommandLine (Command Invocation)

/-! ## Answers -/

inductive Result where
  | listed (summaries : List Summary)
  | shown (p : Preset)
  | planned (s : Summary)
  | created (r : Initialized Uuid)

namespace Result

def toJson : Result → Json
  | listed ss => .array (ss.map Summary.toJson)
  | shown p => p.toJson
  | planned s => s.toJson
  | created r => r.toJson

def toMarkdown : Result → String
  | listed ss => Markdown.listing ss
  | shown p => Markdown.preset p
  | planned s => Markdown.dryRun s
  | created r => Markdown.initialized r

end Result

def shownAs (format : OutputFormat) : Except PresetError Result → String
  | .ok r =>
    match format with
    | .json => r.toJson.pretty ++ "\n"
    | .markdown => r.toMarkdown
  | .error e => if format = .json then e.toJson.pretty ++ "\n" else ""

def createIn (source : Nat → Workspace.Draw) (user : String) (c : Catalog) (files : FileTree Workspace) (name : String)
    (w : Workspace) : Except PresetError (Initialized Uuid) :=
  ((Workspace.Session.setUpLoaded source user name (c.load files name)).run.run { workspace := w }).1

/-- The answer of a command, or why no workspace could be opened for it. The folder of the presets is settled on
before a workspace is opened, and a preset is read after that. -/
def answerTo (host : Host) (source : Nat → Workspace.Draw) (env : Environment) (s : Settings)
    (files : FileTree Workspace) : Command → Except Failure (Except PresetError Result)
  | .list _ => .ok ((host.list files (catalogOf s env files)).map fun listing => .listed listing.summaries)
  | .show name _ => .ok (((catalogOf s env files).load files name).map .shown)
  | .init name true _ => .ok (((catalogOf s env files).load files name).map fun p => .planned p.summary)
  | .init name false _ =>
    match host.openWorkspace files s.database with
    | (.error f, _) => .error f
    | (.ok opened, files') =>
      .ok ((createIn source s.user (catalogOf s env files) files' name opened.workspace).map .created)

/-- What a run shows of an answer; without a workspace it has nothing to show. -/
def shown (format : OutputFormat) : Except Failure (Except PresetError Result) → String
  | .ok x => shownAs format x
  | .error _ => ""

def ending : Except Failure (Except PresetError Result) → Except Failure Unit
  | .ok (.ok _) => .ok ()
  | .ok (.error e) => .error e.failure
  | .error f => .error f

/-! ## Parts of a run -/

/-- A part of a run ends with a result and leaves files; it tells lines, if at all to standard output, and then
shows a text. -/
def Runs {α : Type} (log : Log) (m : Running α) (files : FileTree Workspace) (r : Except Failure α)
    (files' : FileTree Workspace) (shown : String) : Prop :=
  ∀ st : State, st.files = files → ∃ told, (log.sink ≠ .output → told = "") ∧
    (m st).1 = r ∧ (m st).2.files = files' ∧ (m st).2.output = st.output ++ (told ++ shown)

section
variable {α β : Type} {log : Log} {files files' files'' : FileTree Workspace} {shown : String} {r : Except Failure β}

theorem runs_pure (v : α) : Runs log (pure v) files (.ok v) files "" := by
  intro st hst
  exact ⟨"", fun _ => rfl, rfl, hst, by simp; rfl⟩

theorem runs_throw (f : Failure) : Runs (α := α) log (throw f) files (.error f) files "" := by
  intro st hst
  exact ⟨"", fun _ => rfl, rfl, hst, by simp; rfl⟩

theorem Runs.bind {m : Running α} {f : α → Running β} {v : α} (hm : Runs log m files (.ok v) files' "")
    (hf : Runs log (f v) files' r files'' shown) : Runs log (m >>= f) files r files'' shown := by
  intro st hst
  obtain ⟨told, hquiet, hr, hfiles, hout⟩ := hm st hst
  obtain ⟨told', hquiet', hr', hfiles', hout'⟩ := hf (m st).2 hfiles
  have hstep : (m >>= f) st = f v (m st).2 := Creating.bind_of_ok hr
  refine ⟨told ++ told', ?_, ?_, ?_, ?_⟩
  · intro h
    rw [hquiet h, hquiet' h]
    rfl
  · rw [hstep, hr']
  · rw [hstep, hfiles']
  · rw [hstep, hout', hout]
    simp [String.append_assoc]

theorem Runs.stop {m : Running α} {f : α → Running β} {e : Failure} (hm : Runs log m files (.error e) files' shown) :
    Runs log (m >>= f) files (.error e) files' shown := by
  intro st hst
  obtain ⟨told, hquiet, hr, hfiles, hout⟩ := hm st hst
  have hstep : (m >>= f) st = (.error e, (m st).2) := Creating.bind_of_error hr
  rw [hstep]
  exact ⟨told, hquiet, rfl, hfiles, hout⟩

theorem runs_get {f : State → Running β} (h : ∀ st : State, st.files = files → Runs log (f st) files r files' shown) :
    Runs log (get >>= f) files r files' shown := by
  intro st hst
  exact h st hst st hst

theorem runs_forM {f : α → Running Unit} (h : ∀ a, Runs log (f a) files (.ok ()) files "") (as : List α) :
    Runs log (as.forM f) files (.ok ()) files "" := by
  induction as with
  | nil => exact runs_pure ()
  | cons a as ih => exact (h a).bind ih

end

/-! ## The steps -/

section
variable {log : Log} {files : FileTree Workspace}

theorem runs_write (s : String) : Runs log (write s) files (.ok ()) files s := by
  intro st hst
  exact ⟨"", fun _ => rfl, rfl, hst, by simp; rfl⟩

theorem runs_answer {α : Type} (format : OutputFormat) (toResult : α → Result) {toJson : α → Json}
    {toMarkdown : α → String} (hjson : ∀ v, toJson v = (toResult v).toJson)
    (hmarkdown : ∀ v, toMarkdown v = (toResult v).toMarkdown) (x : Except PresetError α) :
    Runs log (answer format toJson toMarkdown x) files (ending (.ok (x.map toResult))) files
      (shownAs format (x.map toResult)) := by
  cases x with
  | ok v =>
    cases format with
    | json =>
      show Runs log (write ((toJson v).pretty ++ "\n")) files _ files ((toResult v).toJson.pretty ++ "\n")
      rw [hjson]
      exact runs_write _
    | markdown =>
      show Runs log (write (toMarkdown v)) files _ files (toResult v).toMarkdown
      rw [hmarkdown]
      exact runs_write _
  | error e =>
    intro st hst
    cases format with
    | json => exact ⟨"", fun _ => rfl, rfl, hst, by simp; rfl⟩
    | markdown =>
      refine ⟨"", fun _ => rfl, rfl, hst, ?_⟩
      show st.output = st.output ++ ("" ++ "")
      simp

theorem runs_files {files' : FileTree Workspace} {f : FileTree Workspace → FileTree Workspace} (h : f files = files') :
    Runs log (modify fun st : State => { st with files := f st.files }) files (.ok ()) files' "" := by
  intro st hst
  subst hst
  exact ⟨"", fun _ => rfl, rfl, h, by simp; rfl⟩

theorem runs_load (c : Catalog) (name : String) :
    Runs log (load c name) files (.ok (c.load files name)) files "" := by
  unfold load
  apply runs_get
  intro st hst
  rw [hst]
  exact runs_pure _

variable (hsink : ∀ path, log.sink ≠ .file path)
include hsink

theorem runs_tell (e : Log.Event) : Runs log (tell log e) files (.ok ()) files "" := by
  unfold tell
  split
  · intro st hst
    cases hs : log.sink with
    | nowhere => exact ⟨"", fun _ => rfl, rfl, hst, by simp; rfl⟩
    | output => exact ⟨e.line, fun h => absurd rfl h, rfl, hst, by simp; rfl⟩
    | errors => exact ⟨"", fun _ => rfl, rfl, hst, by simp; rfl⟩
    | file path => exact absurd hs (hsink path)
  · exact runs_pure ()

theorem runs_openLog : Runs log (openLog log) files (.ok ()) files "" := by
  unfold openLog
  cases hs : log.sink with
  | file path => exact absurd hs (hsink path)
  | _ => exact runs_pure ()

theorem runs_settings {env : Environment} {i : Invocation} {s : Settings}
    (h : Settings.discover files env i.config = .ok s) :
    Runs log (settings log env i) files (.ok (s.under (flags i))) files "" := by
  have htell (event : String → Log.Event) :
      Runs log ((env.settingsFile files i.config).forM fun path => tell log (event path)) files (.ok ()) files "" := by
    cases env.settingsFile files i.config with
    | none => exact runs_pure ()
    | some path => exact runs_tell hsink _
  unfold Settings.discover at h
  unfold settings
  apply runs_get
  intro st hst
  rw [hst]
  apply (htell .settingsFound).bind
  apply runs_get
  intro st hst
  rw [hst, h]
  exact (htell .settingsRead).bind (runs_pure _)

theorem runs_catalog (env : Environment) (s : Settings) :
    Runs log (catalog log env s) files (.ok (catalogOf s env files)) files "" := by
  unfold catalog
  apply runs_get
  intro st hst
  rw [hst]
  exact (runs_tell hsink _).bind (runs_pure _)

theorem runs_list (host : Host) (c : Catalog) :
    Runs log (list host log c) files (.ok ((host.list files c).map (·.summaries))) files "" := by
  unfold list
  apply runs_get
  intro st hst
  rw [hst]
  dsimp only
  cases host.list files c with
  | error e =>
    split
    · exact (runs_tell hsink _).bind (runs_pure _)
    · exact runs_pure _
  | ok listing =>
    have hskipped : Runs log (listing.skipped.forM fun e => tell log (.presetSkipped e)) files (.ok ()) files "" :=
      runs_forM (fun e => runs_tell hsink _) _
    split
    · exact (runs_tell hsink _).bind (hskipped.bind (runs_pure _))
    · exact hskipped.bind (runs_pure _)

/-- The end of a set-up: what it has changed is kept, and the log tells what it has created. -/
theorem runs_recorded (opened : Workspace.Opened) (result : Except PresetError (Initialized Uuid))
    (session : Workspace.Session) :
    Runs log
      (do
        modify fun st => { st with files := opened.keep session.workspace st.files }
        session.journal.reverse.forM fun (call, id) => tell log (.recordCreated call id)
        match result with
        | .error e => return .error e
        | .ok initialized =>
          tell log (.setUpDone initialized)
          return .ok initialized)
      files (.ok result) (opened.keep session.workspace files) "" := by
  refine (runs_files (f := fun files => opened.keep session.workspace files) rfl).bind ?_
  refine (runs_forM (fun e => runs_tell hsink _) _).bind ?_
  cases result with
  | error e => exact runs_pure _
  | ok initialized => exact (runs_tell hsink _).bind (runs_pure _)

variable (files)

theorem runs_setUp (host : Host) (source : Nat → Workspace.Draw) (s : Settings) (c : Catalog) (name : String) :
    match host.openWorkspace files s.database with
    | (.error f, files') => Runs log (setUp host source log s c name) files (.error f) files' ""
    | (.ok opened, files') => ∃ files'', Runs log (setUp host source log s c name) files
        (.ok (createIn source s.user c files' name opened.workspace)) files'' "" := by
  cases hopen : host.openWorkspace files s.database with
  | mk opened files' =>
    cases opened with
    | error f =>
      unfold setUp
      apply runs_get
      intro st hst
      rw [hst, hopen]
      exact (runs_files (f := fun _ => files') rfl).bind (runs_throw f)
    | ok opened =>
      generalize hsession : (Workspace.Session.setUpLoaded source s.user name (c.load files' name)).run.run
        { workspace := opened.workspace } = out
      refine ⟨opened.keep out.2.workspace files', ?_⟩
      unfold setUp
      apply runs_get
      intro st hst
      rw [hst, hopen]
      refine (runs_files (f := fun _ => files') rfl).bind ?_
      refine (runs_load _ name).bind ?_
      dsimp only
      rw [hsession]
      obtain ⟨result, session⟩ := out
      have hcreated : createIn source s.user c files' name opened.workspace = result := congrArg Prod.fst hsession
      rw [hcreated]
      split
      · exact (runs_tell hsink _).bind (runs_recorded hsink opened result session)
      · exact runs_recorded hsink opened result session

theorem runs_carryOut (host : Host) (source : Nat → Workspace.Draw) (env : Environment) (s : Settings)
    (command : Command) :
    ∃ files', Runs log (carryOut host source log env s command) files (ending (answerTo host source env s files command))
      files' (shown command.format (answerTo host source env s files command)) := by
  have hmap {α β γ : Type} (x : Except PresetError α) (f : α → β) (g : β → γ) :
      (x.map f).map g = x.map fun v => g (f v) := by cases x <;> rfl
  cases command with
  | list format =>
    refine ⟨files, (runs_catalog hsink env s).bind ((runs_list hsink host _).bind ?_)⟩
    have h : Runs log _ files _ files _ := runs_answer format .listed (fun _ => rfl) (fun _ => rfl)
      ((host.list files (catalogOf s env files)).map (·.summaries))
    rw [hmap] at h
    exact h
  | «show» name format =>
    refine ⟨files, (runs_catalog hsink env s).bind ((runs_load _ name).bind ?_)⟩
    exact runs_answer format .shown (fun _ => rfl) (fun _ => rfl) _
  | init name dryRun format =>
    cases dryRun with
    | true =>
      refine ⟨files, (runs_catalog hsink env s).bind ((runs_tell hsink _).bind ((runs_load _ name).bind ?_))⟩
      have h : Runs log _ files _ files _ := runs_answer format .planned (fun _ => rfl) (fun _ => rfl)
        (((catalogOf s env files).load files name).map Preset.summary)
      rw [hmap] at h
      exact h
    | false =>
      have hsetUp := runs_setUp files hsink host source s (catalogOf s env files) name
      unfold answerTo
      cases hopen : host.openWorkspace files s.database with
      | mk opened files' =>
        rw [hopen] at hsetUp
        cases opened with
        | error f =>
          exact ⟨files', (runs_catalog hsink env s).bind ((runs_tell hsink _).bind hsetUp.stop)⟩
        | ok opened =>
          obtain ⟨files'', h⟩ := hsetUp
          refine ⟨files'', (runs_catalog hsink env s).bind ((runs_tell hsink _).bind (h.bind ?_))⟩
          exact runs_answer format .created (fun _ => rfl) (fun _ => rfl) _

end

/-! ## Whole runs -/

theorem sink_of_word {i : Invocation} (h : i.log ∈ ["0", "off", "1", "stdout", "2", "stderr"]) :
    (∀ path, (Log.ofInvocation i).sink ≠ .file path) ∧
      (i.command.format = .json → (Log.ofInvocation i).sink ≠ .output) := by
  have hsplit : i.log ∈ ["0", "off"] ∨ i.log ∈ ["1", "stdout"] ∨ i.log ∈ ["2", "stderr"] := by
    simpa [or_assoc] using h
  unfold Log.ofInvocation Invocation.logsToOutput
  dsimp only
  by_cases hoff : i.log ∈ ["0", "off"]
  · simp [hoff]
  by_cases hout : i.log ∈ ["1", "stdout"]
  · by_cases hjson : i.command.format = .json
    · simp [hoff, hout, hjson]
    · simp [hoff, hout, hjson]
      split <;> simp
  have herr : i.log ∈ ["2", "stderr"] := by
    rcases hsplit with h | h | h
    · exact absurd h hoff
    · exact absurd h hout
    · exact h
  simp [hoff, hout, herr]

/-- How a run ends that has its settings and does not log to a file: what it shows of the answer stands at the
end of its output, and it succeeds if the answer is a result. -/
theorem run_ends (host : Host) (source : Nat → Workspace.Draw) {env : Environment} {args : List String}
    {files : FileTree Workspace} {i : Invocation} {s : Settings} (hparse : CommandLine.parse args = .ok i)
    (hlog : i.log ∈ ["0", "off", "1", "stdout", "2", "stderr"])
    (hsettings : Settings.discover files env i.config = .ok s) :
    let answer := answerTo host source env (s.under (flags i)) files i.command
    ((run host source env args files).exit = 0 ↔ ∃ r, answer = .ok (.ok r)) ∧
      ∃ told, (i.command.format = .json → told = "") ∧
        (run host source env args files).state.output = told ++ shown i.command.format answer := by
  intro answer
  obtain ⟨hsink, hjson⟩ := sink_of_word hlog
  obtain ⟨files', hcarry⟩ := runs_carryOut files hsink host source env (s.under (flags i)) i.command
  have hperform : Runs (Log.ofInvocation i) (perform host source env i) files (ending answer) files'
      (shown i.command.format answer) := (runs_openLog hsink).bind ((runs_settings hsink hsettings).bind hcarry)
  obtain ⟨told, hquiet, hresult, -, hout⟩ := hperform { files } rfl
  have hrun : (perform host source env i).run.run { files } = perform host source env i { files } := rfl
  unfold run
  rw [hparse]
  dsimp only
  rw [hrun]
  generalize perform host source env i { files } = out at hresult hout
  obtain ⟨r, state⟩ := out
  refine ⟨?_, told, fun h => hquiet (hjson h), ?_⟩
  · dsimp only at hresult
    subst hresult
    match answer with
    | .ok (.ok r) => simp [ending]
    | .ok (.error e) => simp [ending]
    | .error f => simp [ending]
  · have hout' : state.output = told ++ shown i.command.format answer := by simpa using hout
    cases r <;> exact hout'

end PresetWorkspace.Program
