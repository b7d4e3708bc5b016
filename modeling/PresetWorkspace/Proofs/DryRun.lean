import PresetWorkspace.Proofs.Acceptance
import PresetWorkspace.Proofs.Contents
import PresetWorkspace.Proofs.Runs

/-!
# Dry runs

A dry run reads the preset and counts; the run without it opens the workspace
first and then creates every record. An opening that leaves the texts of files
alone takes no preset away (`load_kept`), and what is created is what was
counted, so the two agree but for the titles of the todos, which only the
workspace looks at (`dry_run_predicts`).
-/

namespace PresetWorkspace

open Workspace

/-! ## Opening a workspace -/

namespace FileTree

variable {δ : Type} {tree tree' : FileTree δ}

/-- The files that read as a text read as the same one afterwards, but for empty ones. -/
def KeepsTexts (tree tree' : FileTree δ) : Prop :=
  ∀ path s, s ≠ "" → tree.readText path = .ok s → tree'.readText path = .ok s

theorem readText_eq_ok {path s : String} : tree.readText path = .ok s ↔ tree.find path = .ok (.text s) := by
  unfold readText
  cases tree.find path with
  | error e => simp [bind, Except.bind]
  | ok e => cases e <;> simp [bind, Except.bind, pure, Except.pure, throw, throwThe, MonadExceptOf.throw]

end FileTree

namespace Workspace

/-- What opening a workspace makes of an entry: an empty file may become the workspace. -/
def Opening (e e' : Entry Workspace) : Prop := e = e' ∨ (e = .text "" ∧ ∃ w, e' = .stored w)

theorem steady_opening : FileTree.Steady Opening := by
  constructor
  · rintro e (rfl | ⟨h, -⟩)
    · rfl
    · cases h
  · rintro target e (rfl | ⟨h, -⟩)
    · rfl
    · cases h
  · rintro target e (rfl | ⟨-, w, h⟩)
    · rfl
    · cases h

theorem openFile_within {tree tree' : FileTree Workspace} {path : String} {opened : Opened}
    (h : openFile tree path = (.ok opened, tree')) : tree.Within Opening tree' := by
  unfold openFile at h
  have hsame : tree.Within Opening tree := fun _ _ he => ⟨_, he, .inl rfl⟩
  split at h
  · cases h
    exact hsame
  split at h
  · cases h
  rename_i loc hloc
  have hfresh (hempty : ∀ e, tree.entry? loc = some e → e = .text "") :
      tree.Within Opening (tree.put loc (.stored .empty)) := by
    apply FileTree.put_within fun _ => .inl rfl
    intro e he
    exact .inr ⟨hempty e he, _, rfl⟩
  dsimp only at h
  split at h
  · rename_i hnone
    split at h
    · cases h
      apply hfresh
      intro e he
      rw [hnone] at he
      cases he
    · cases h
  · rename_i htext
    cases h
    apply hfresh
    intro e he
    exact Option.some.inj (he.symm.trans htext)
  · cases h
    exact hsame
  · cases h
  · cases h
  · cases h
  · cases h

end Workspace

/-- A host that takes names for those of files makes nothing of a text. -/
theorem Host.plain_keepsTexts {tree tree' : FileTree Workspace} {path : String} {opened : Opened}
    (h : plain.openWorkspace tree path = (.ok opened, tree')) : tree.KeepsTexts tree' := by
  unfold openWorkspace at h
  split at h
  · cases h
  rename_i made hmade
  have hwithin : tree.Within Opening tree' :=
    (FileTree.makeFolders_within hmade).trans (Workspace.openFile_within h)
  intro path s hs hread
  rw [FileTree.readText_eq_ok] at hread ⊢
  obtain ⟨e, he, rfl | ⟨hempty, -⟩⟩ := FileTree.find_within Workspace.steady_opening hwithin hread
  · exact he
  · cases hempty
    exact absurd rfl hs

/-! ## Loading afterwards -/

namespace Catalog

variable {δ : Type} {tree tree' : FileTree δ} (h : tree.KeepsTexts tree') {p : Preset}
include h

theorem readPreset_kept {path : String} (hp : readPreset tree path = .ok p) : readPreset tree' path = .ok p := by
  obtain ⟨s, hs, hread⟩ := readPreset_eq_ok.mp hp
  have hne : s ≠ "" := by
    rintro rfl
    have hnone : (Document.read (.record .preset) "").toOption.isNone = true := by decide +kernel
    rw [hread] at hnone
    cases hnone
  have hs' := h path s hne (FileTree.readText_eq_ok.mpr hs)
  exact readPreset_eq_ok.mpr ⟨s, FileTree.readText_eq_ok.mp hs', hread⟩

theorem load_kept {c : Catalog} {name : String} (hp : c.load tree name = .ok p) : c.load tree' name = .ok p := by
  unfold load at hp ⊢
  split at hp
  · rename_i path hpath
    obtain ⟨hpath, -⟩ := Option.filter_eq_some_iff.mp hpath
    have hread := readPreset_kept h hp
    rw [hpath, Option.filter_some, if_pos (isFile_of_readPreset hread)]
    exact hread
  · cases hp

end Catalog

/-! ## The two runs -/

namespace Program

theorem createIn_eq {source : Nat → Draw} (user : String) {c : Catalog} {files : FileTree Workspace} {name : String}
    {w : Workspace} {p : Preset} (hw : w.dropped = []) (hfresh : Session.Fresh source p.recordCount { workspace := w })
    (hp : c.load files name = .ok p) :
    createIn source user c files name w =
      match TodoTemplate.untitled? p.todos with
      | none => .ok
        { presetName := name
          groupId := (source 0).id
          tagsCreated := p.tags.length
          todosCreated := TodoTemplate.countAll p.todos }
      | some title => .error (.storage ((Session.rejection ⟨.todo, title, .emptyTitle⟩).within
          ("Failed to initialize preset '" ++ name ++ "'"))) := by
  have hsetUp : (Session.setUp source user name p { workspace := w }).1 = _ :=
    Session.setUp_eq p name hw hfresh (Nat.le_of_eq (Nat.zero_add _))
  unfold createIn
  rw [hp]
  show Except.mapError _ (Session.setUp source user name p { workspace := w }).1 = _
  rw [hsetUp]
  cases TodoTemplate.untitled? p.todos <;> rfl

/-- Where a dry run finds a preset, the run without it creates as many tags and todos as were counted, if all
titles of the preset are titles, and otherwise fails. The host may open the workspace as it will, as long as it leaves
the texts of files alone. -/
theorem dry_run_predicts {host : Host} {source : Nat → Draw} {env : Environment} {args args' : List String}
    {files files' : FileTree Workspace} {i : CommandLine.Invocation} {name : String} {format format' : OutputFormat}
    {s : Settings} {opened : Opened}
    (hparse : CommandLine.parse args = .ok { i with command := .init name true format })
    (hparse' : CommandLine.parse args' = .ok { i with command := .init name false format' })
    (hlog : i.log ∈ ["0", "off", "1", "stdout", "2", "stderr"])
    (hsettings : Settings.discover files env i.config = .ok s)
    (hopen : host.openWorkspace files (s.under (flags i)).database = (.ok opened, files'))
    (hkept : files.KeepsTexts files') (htables : opened.workspace.dropped = [])
    (hdry : (run host source env args files).exit = 0) :
    ∃ p, (catalogOf (s.under (flags i)) env files).load files name = .ok p ∧
      (∃ told, (run host source env args files).state.output = told ++ shownAs format (.ok (.planned p.summary))) ∧
      (Session.Fresh source p.recordCount { workspace := opened.workspace } →
        ((run host source env args' files).exit = 0 ↔ ∀ title ∈ TodoTemplate.titles p.todos, isTitle title = true) ∧
        ((run host source env args' files).exit = 0 → ∃ r told,
          (run host source env args' files).state.output = told ++ shownAs format' (.ok (.created r)) ∧
            r.tagsCreated = p.summary.tagCount ∧ r.todosCreated = p.summary.todoCount)) := by
  obtain ⟨hexit, told, -, hout⟩ := run_ends host source hparse hlog hsettings
  obtain ⟨hexit', told', -, hout'⟩ := run_ends host source hparse' hlog hsettings
  -- The settings of the two command lines are the same.
  let answer (command : CommandLine.Command) := answerTo host source env (s.under (flags i)) files command
  change (_ ↔ ∃ r, answer (.init name true format) = .ok (.ok r)) at hexit
  change (_ ↔ ∃ r, answer (.init name false format') = .ok (.ok r)) at hexit'
  change _ = told ++ shown format (answer (.init name true format)) at hout
  change _ = told' ++ shown format' (answer (.init name false format')) at hout'
  obtain ⟨r, hr⟩ := hexit.mp hdry
  rw [hr] at hout
  simp only [answer, answerTo] at hr
  cases hload : (catalogOf (s.under (flags i)) env files).load files name with
  | error e =>
    rw [hload] at hr
    cases hr
  | ok p =>
    rw [hload] at hr
    cases hr
    refine ⟨p, rfl, ⟨told, hout⟩, fun hfresh => ?_⟩
    have hcreate := createIn_eq (s.under (flags i)).user htables hfresh (Catalog.load_kept hkept hload)
    simp only [answer, answerTo, hopen, hcreate] at hexit' hout'
    rw [hexit', ← TodoTemplate.untitled?_eq_none]
    cases huntitled : TodoTemplate.untitled? p.todos with
    | none =>
      rw [huntitled] at hout'
      exact ⟨⟨fun _ => rfl, fun _ => ⟨_, rfl⟩⟩, fun _ => ⟨_, told', hout', rfl, rfl⟩⟩
    | some title =>
      refine ⟨⟨?_, ?_⟩, ?_⟩
      · rintro ⟨r, hr⟩
        cases hr
      · intro h
        cases h
      · rintro ⟨r, hr⟩
        cases hr

def todoText (title : String) : String :=
  "\x7b\"name\":\"p\",\"tag_group\":\x7b\"name\":\"g\",\"color\":\"#000000\"\x7d,\"todos\":[\x7b\"title\":\"" ++ title ++
    "\"\x7d]\x7d"

/-- The preset is one of those that come with the program. -/
theorem dry_run_predicts_todo :
    let files : FileTree Workspace :=
      ⟨[(["source"], .folder), (["source", "presets"], .folder),
        (["source", "presets", "p.json"], .text (todoText "t"))]⟩
    let env : Environment := { sourceFolder := "source" }
    let args := ["init", "p"]
    let source := fun n => ⟨.timed 0 n, 0⟩
    (run .plain source env (args ++ ["--dry-run"]) files).exit = 0 ∧
      ∃ p, (Catalog.mk "source/presets").load files "p" = .ok p ∧
        Session.Fresh source p.recordCount { workspace := .empty } ∧
        ((run .plain source env args files).exit = 0 ↔ ∀ title ∈ TodoTemplate.titles p.todos, isTitle title = true) := by
  intro files env args source
  let i : CommandLine.Invocation := ⟨none, none, none, none, false, "2", .init "p" false .markdown⟩
  have hparse : CommandLine.parse (args ++ ["--dry-run"]) = .ok { i with command := .init "p" true .markdown } :=
    toOption_eq_some.mp (by decide +kernel)
  have hparse' : CommandLine.parse args = .ok { i with command := .init "p" false .markdown } :=
    toOption_eq_some.mp (by decide +kernel)
  have hsettings : Settings.discover files env i.config = .ok {} := toOption_eq_some.mp (by decide +kernel)
  have hempty : (Host.plain.openWorkspace files (Settings.under {} (flags i)).database).1.toOption.map (·.workspace) =
      some .empty := by decide +kernel
  have hdry : (run .plain source env (args ++ ["--dry-run"]) files).exit = 0 := by decide +kernel
  have hcatalog : catalogOf (Settings.under {} (flags i)) env files = ⟨"source/presets"⟩ := by decide +kernel
  have hcount : ((Catalog.mk "source/presets").load files "p").toOption.map Preset.recordCount = some 2 := by
    decide +kernel
  cases hopen : Host.plain.openWorkspace files (Settings.under {} (flags i)).database with
  | mk opened files' =>
    rw [hopen] at hempty
    cases opened with
    | error f => cases hempty
    | ok opened =>
      have hworkspace : opened.workspace = .empty := Option.some.inj hempty
      have htables : opened.workspace.dropped = [] := by
        rw [hworkspace]
        rfl
      obtain ⟨p, hload, -, hreal⟩ :=
        dry_run_predicts hparse hparse' (by decide) hsettings hopen (Host.plain_keepsTexts hopen) htables hdry
      rw [hcatalog] at hload
      rw [hload] at hcount
      have hrecords : p.recordCount = 2 := Option.some.inj hcount
      have hdistinct : ∀ m n, 0 ≤ m → m < n → n < 2 → (source m).id ≠ (source n).id := by
        intro m n _ hmn hn
        obtain ⟨rfl, rfl⟩ : m = 0 ∧ n = 1 := by omega
        decide
      have hfresh : Session.Fresh source p.recordCount { workspace := .empty } := by
        rw [hrecords]
        refine ⟨hdistinct, ?_, ?_, ?_⟩
        all_goals
          intro n _ _ row hrow
          cases hrow
      rw [hworkspace] at hreal
      exact ⟨hdry, p, hload, hfresh, (hreal hfresh).1⟩

/-- A dry run succeeds with a todo without a title, and the run without it fails. -/
theorem dry_run_without_title :
    let files : FileTree Workspace := ⟨[(["presets"], .folder), (["presets", "p.json"], .text (todoText ""))]⟩
    let env : Environment := { sourceFolder := "source" }
    let args := ["--presets-dir", "presets", "init", "p"]
    let source := fun n => ⟨.timed 0 n, 0⟩
    (Host.plain.openWorkspace files ".todo-presets/presets.db").1.toOption.map (·.workspace) = some .empty ∧
      (run .plain source env (args ++ ["--dry-run"]) files).exit = 0 ∧ (run .plain source env args files).exit = 1 := by
  decide +kernel

end Program

end PresetWorkspace
