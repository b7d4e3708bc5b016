import PresetWorkspace.Proofs.JsonText
import PresetWorkspace.Proofs.Runs

/-!
# Output for programs

In JSON a run writes one document and a line end, the result or what went
wrong with a preset or its folder (`run_shows_document`), whatever the host
makes of the files. The one way out is a workspace that the host does not open:
that failure is reported to people only.
-/

namespace PresetWorkspace.Program

open JsonText (IsDocument)

theorem toJson_error (e : PresetError) :
    ∃ more, e.toJson = .object (("code", .text e.code) :: ("message", .text e.message) :: more) := by
  unfold PresetError.toJson
  exact ⟨_, rfl⟩

/-- Where the workspace opens, if the command needs one, a run in JSON writes one document and a line end: its
result if it succeeds, and otherwise an object with the code and the message of the problem. -/
theorem run_shows_document {host : Host} {source : Nat → Workspace.Draw} {env : Environment}
    {args : List String} {files : FileTree Workspace} {i : CommandLine.Invocation} {s : Settings}
    (hparse : CommandLine.parse args = .ok i) (hjson : i.command.format = .json)
    (hlog : i.log ∈ ["0", "off", "1", "stdout", "2", "stderr"])
    (hsettings : Settings.discover files env i.config = .ok s)
    (hopens : ∀ name format, i.command = .init name false format →
      ∃ opened, (host.openWorkspace files (s.under (flags i)).database).1 = .ok opened) :
    ∃ v : Json, (run host source env args files).state.output = v.pretty ++ "\n" ∧ IsDocument v.pretty.toList ∧
      ((run host source env args files).exit = 0 →
        ∃ r, answerTo host source env (s.under (flags i)) files i.command = .ok (.ok r) ∧ v = r.toJson) ∧
      ((run host source env args files).exit ≠ 0 →
        ∃ e more, answerTo host source env (s.under (flags i)) files i.command = .ok (.error e) ∧
          v = .object (("code", .text e.code) :: ("message", .text e.message) :: more)) := by
  obtain ⟨hexit, told, hquiet, hout⟩ := run_ends host source hparse hlog hsettings
  rw [hquiet hjson, hjson, String.empty_append] at hout
  rw [hout]
  cases hanswer : answerTo host source env (s.under (flags i)) files i.command with
  | error f =>
    -- Only an init that is no dry run can end like that.
    cases hcommand : i.command with
    | list format => rw [hcommand] at hanswer; cases hanswer
    | «show» name format => rw [hcommand] at hanswer; cases hanswer
    | init name dryRun format =>
      rw [hcommand] at hanswer
      cases dryRun with
      | true => cases hanswer
      | false =>
        obtain ⟨opened, hopened⟩ := hopens name format hcommand
        rw [answerTo] at hanswer
        split at hanswer
        · rename_i hopen
          rw [hopen] at hopened
          cases hopened
        · cases hanswer
  | ok x =>
    rw [hanswer] at hexit
    cases x with
    | ok r =>
      refine ⟨r.toJson, rfl, JsonText.pretty_isDocument _, fun _ => ⟨r, rfl, rfl⟩, ?_⟩
      intro h
      exact absurd (hexit.mpr ⟨r, rfl⟩) h
    | error e =>
      obtain ⟨more, hmore⟩ := toJson_error e
      refine ⟨e.toJson, rfl, JsonText.pretty_isDocument _, ?_, fun _ => ⟨e, more, rfl, hmore⟩⟩
      intro h
      obtain ⟨r, hr⟩ := hexit.mp h
      cases hr

theorem run_shows_document_not_found :
    let files : FileTree Workspace := ⟨[(["presets"], .folder)]⟩
    let env : Environment := { sourceFolder := "source" }
    let args := ["--presets-dir", "presets", "--log", "1", "init", "study", "--format", "json"]
    let i : CommandLine.Invocation := ⟨none, none, "presets", none, false, "1", .init "study" false .json⟩
    let source := fun n => ⟨.timed 0 n, 0⟩
    (CommandLine.parse args = .ok i ∧ Settings.discover files env i.config = .ok {} ∧
      (Host.plain.openWorkspace files (Settings.under {} (flags i)).database).1.isOk = true) ∧
      ∃ v : Json, (run .plain source env args files).state.output = v.pretty ++ "\n" ∧ IsDocument v.pretty.toList ∧
        ((run .plain source env args files).exit = 0 →
          ∃ r, answerTo .plain source env (Settings.under {} (flags i)) files i.command = .ok (.ok r) ∧ v = r.toJson) ∧
        ((run .plain source env args files).exit ≠ 0 →
          ∃ e more, answerTo .plain source env (Settings.under {} (flags i)) files i.command = .ok (.error e) ∧
            v = .object (("code", .text e.code) :: ("message", .text e.message) :: more)) := by
  intro files env args i source
  have hparse : CommandLine.parse args = .ok i := toOption_eq_some.mp (by decide +kernel)
  have hsettings : Settings.discover files env i.config = .ok {} := toOption_eq_some.mp (by decide +kernel)
  have hopen : (Host.plain.openWorkspace files (Settings.under {} (flags i)).database).1.isOk = true := by
    decide +kernel
  refine ⟨⟨hparse, hsettings, hopen⟩, run_shows_document hparse rfl (by decide) hsettings ?_⟩
  intro _ _ _
  cases h : (Host.plain.openWorkspace files (Settings.under {} (flags i)).database).1 with
  | ok opened => exact ⟨opened, rfl⟩
  | error f => rw [h] at hopen; cases hopen

/-- With a folder in the place of the workspace, a run in JSON fails and writes nothing. -/
theorem run_shows_nothing :
    let files : FileTree Workspace := ⟨[(["presets"], .folder)]⟩
    let env : Environment := { sourceFolder := "source" }
    let args := ["--database", "presets", "init", "study", "--format", "json"]
    let i : CommandLine.Invocation := ⟨none, "presets", none, none, false, "2", .init "study" false .json⟩
    let outcome := run .plain (fun n => ⟨.timed 0 n, 0⟩) env args files
    CommandLine.parse args = .ok i ∧ i.command.format = .json ∧
      i.log ∈ ["0", "off", "1", "stdout", "2", "stderr"] ∧ Settings.discover files env i.config = .ok {} ∧
      outcome.exit = 1 ∧ outcome.state.output = "" := by
  intro files env args i outcome
  refine ⟨toOption_eq_some.mp (by decide +kernel), rfl, by decide, toOption_eq_some.mp (by decide +kernel), ?_⟩
  decide +kernel

end PresetWorkspace.Program
