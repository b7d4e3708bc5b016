import PresetWorkspace.Proofs.ByteOrder
import PresetWorkspace.Proofs.LargerTrees
import PresetWorkspace.Proofs.Listing

/-!
# The contents of a listing

A listing has one summary for each file of the folder that holds a preset, in
the byte order of the names (`list_contents`). Other names in the folder make
no difference, unless a link that would lead nowhere leads through one of them
to a preset; and a preset that loads is in the listing, unless the folder is
named by no path.
-/

namespace PresetWorkspace.Catalog

variable {δ : Type} {c : Catalog} {tree : FileTree δ} {loc : Location} {names : List String} {file : String}
  {p : Preset}

/-- The preset that a name of the folder holds: it has the extension, and leads to a text that reads. -/
def presetIn? (c : Catalog) (tree : FileTree δ) (file : String) : Option Preset :=
  if FilePath.extension? file = some fileExtension then
    match tree.find (FilePath.join c.folder file) with
    | .ok (.text s) => (Document.read (.record .preset) s).toOption
    | _ => none
  else none

theorem readPreset_eq_ok {path : String} :
    readPreset tree path = .ok p ↔ ∃ s, tree.find path = .ok (.text s) ∧ Document.read (.record .preset) s = .ok p := by
  unfold readPreset FileTree.readText
  cases hfind : tree.find path with
  | error e => simp [bind, Except.bind]
  | ok e =>
    cases e with
    | text s => cases hread : Document.read (.record .preset) s <;> simp [bind, Except.bind, pure, Except.pure, hread]
    | _ => simp [bind, Except.bind, throw, throwThe, MonadExceptOf.throw]

theorem presetIn?_eq_some : c.presetIn? tree file = some p ↔
    FilePath.extension? file = some fileExtension ∧ readPreset tree (FilePath.join c.folder file) = .ok p := by
  unfold presetIn?
  rw [readPreset_eq_ok]
  by_cases hextension : FilePath.extension? file = some fileExtension
  · rw [if_pos hextension]
    simp only [hextension, true_and]
    split
    · rename_i s hs
      cases hread : Document.read (.record .preset) s <;> simp [hs, hread, Except.toOption]
    · rename_i hno
      simp only [reduceCtorEq, false_iff]
      rintro ⟨s, hs, -⟩
      exact hno s hs
  · simp [hextension]

theorem isFile_of_readPreset {path : String} (h : readPreset tree path = .ok p) : tree.isFile path = true := by
  obtain ⟨s, hs, -⟩ := readPreset_eq_ok.mp h
  unfold FileTree.isFile
  rw [hs]

theorem summariesIn_eq (h : tree.isFolder c.folder = true) :
    c.summariesIn tree = (tree.namesIn c.folder).filterMap fun n => (c.presetIn? tree n).map Preset.summary := by
  unfold summariesIn files
  rw [if_pos h, List.filterMap_filterMap, List.filterMap_filter]
  refine List.filterMap_congr fun n _ => Option.ext fun i => ?_
  simp only [Option.map_eq_some_iff, presetIn?_eq_some]
  by_cases hextension : FilePath.extension? n = some fileExtension
  · simp only [hextension, decide_true, if_true, true_and, Option.bind_eq_some_iff, Option.filter_eq_some_iff,
      Option.map_eq_some_iff, Option.some.injEq]
    constructor
    · rintro ⟨path, ⟨rfl, -⟩, p, hp, rfl⟩
      cases hreads : readPreset tree (FilePath.join c.folder n) with
      | error e => rw [hreads] at hp; cases hp
      | ok q =>
        rw [hreads] at hp
        cases hp
        exact ⟨_, rfl, rfl⟩
    · rintro ⟨p, hp, rfl⟩
      exact ⟨_, ⟨rfl, isFile_of_readPreset hp⟩, p, by rw [hp]; rfl, rfl⟩
  · simp [hextension]

/-! ## Names that make no difference -/

/-- Names of a folder that hold no preset and have none behind them: the folder is there without them, and
what stays in it leads to no preset but without them too. -/
structure Idle (c : Catalog) (tree : FileTree δ) (loc : Location) (names : List String) : Prop where
  place : (tree.without loc names).locate c.folder = .ok loc
  isFolder : (tree.without loc names).isFolder c.folder = true
  noPreset : ∀ n ∈ names, c.presetIn? tree n = none
  leads : ∀ n ∈ (tree.without loc names).namesIn c.folder, (c.presetIn? tree n).isSome →
    (tree.without loc names).isThere (FilePath.join c.folder n) = true

section
variable (h : c.Idle tree loc names)
include h

theorem Idle.isFolder_with : tree.isFolder c.folder = true := by
  obtain ⟨there, hthere, hfolder⟩ := FileTree.isFolder_iff.mp h.isFolder
  have hfind := FileTree.find_of_without (FileTree.find_eq_ok.mpr ⟨there, hthere, hfolder⟩)
  unfold FileTree.isFolder
  rw [hfind]

theorem Idle.presetIn?_eq (hn : file ∈ (tree.without loc names).namesIn c.folder) :
    c.presetIn? (tree.without loc names) file = c.presetIn? tree file := by
  cases hfind : (tree.without loc names).find (FilePath.join c.folder file) with
  | ok e =>
    unfold presetIn?
    rw [hfind, FileTree.find_of_without hfind]
  | error e =>
    have hgone : ¬ (tree.without loc names).isThere (FilePath.join c.folder file) = true := by
      unfold FileTree.isThere
      rw [hfind]
      simp
    have hnone : c.presetIn? tree file = none := by
      rw [← Option.not_isSome_iff_eq_none]
      intro hsome
      exact hgone (h.leads file hn hsome)
    rw [hnone, presetIn?, hfind]
    simp

theorem Idle.summariesIn_eq : c.summariesIn (tree.without loc names) = c.summariesIn tree := by
  have hplace : tree.locate c.folder = .ok loc := by
    obtain ⟨there, hthere, hfolder⟩ := FileTree.isFolder_iff.mp h.isFolder
    obtain rfl := Except.ok.inj (hthere.symm.trans h.place)
    exact FileTree.locate_within FileTree.steady_eq FileTree.without_within hthere hfolder
  have hnames := FileTree.namesIn_without h.place hplace
  rw [Catalog.summariesIn_eq h.isFolder, Catalog.summariesIn_eq h.isFolder_with,
    List.filterMap_congr fun n hn => by rw [h.presetIn?_eq hn], hnames, List.filterMap_filter]
  refine List.filterMap_congr fun n _ => ?_
  by_cases hn : n ∈ names
  · simp [hn, h.noPreset n hn]
  · simp [hn]

end

theorem mem_list_of_load {name : String} (hfolder : c.folder ≠ "") (h : c.load tree name = .ok p) :
    p.summary ∈ (c.list tree).summaries := by
  have hthere : tree.isFolder c.folder = true := by
    unfold load path? at h
    split at h
    · rename_i path hpath
      obtain ⟨hpath, hfile⟩ := Option.filter_eq_some_iff.mp hpath
      split at hpath
      · cases hpath
        obtain ⟨e, he⟩ := isFile_of_find hfile
        exact FileTree.isFolder_of_find hfolder (file_ne ‹_›).2.2.2 he
      · cases hpath
    · cases h
  obtain ⟨-, hholds⟩ := (load_eq_ok hthere).mp h
  exact mem_list.mpr ⟨hthere, _, p, hholds, rfl⟩

/-- A listing has the summaries of the presets that the names of the folder hold, each as often as names
hold it, in the byte order of their names. -/
theorem list_contents (c : Catalog) (tree : FileTree δ) :
    (c.list tree).summaries.Pairwise (fun i j => utf8Bytes i.name ≤ utf8Bytes j.name) ∧
      (c.list tree).summaries.Perm
        (if tree.isFolder c.folder then (tree.namesIn c.folder).filterMap fun n => (c.presetIn? tree n).map Preset.summary
        else []) ∧
      (∀ loc names, c.Idle tree loc names →
        (c.list (tree.without loc names)).summaries = (c.list tree).summaries) ∧
      (c.folder ≠ "" → ∀ name p, c.load tree name = .ok p → p.summary ∈ (c.list tree).summaries) := by
  refine ⟨?_, ?_, ?_, ?_⟩
  · exact (list_sorted c tree).imp utf8Bytes_le_iff.mpr
  · split
    · rename_i h
      rw [← summariesIn_eq h]
      exact list_perm_summariesIn
    · rename_i h
      have hnone : c.summariesIn tree = [] := by
        unfold summariesIn
        rw [if_neg h]
      rw [← hnone]
      exact list_perm_summariesIn
  · intro loc names h
    rw [list_eq, list_eq, h.summariesIn_eq]
  · intro hfolder name p h
    exact mem_list_of_load hfolder h

theorem list_contents_of_one :
    let c : Catalog := ⟨"presets"⟩
    let tree : FileTree Unit :=
      ⟨[(["presets"], .folder), (["presets", "b.json"], .text (bareText "b" "")), (["presets", "a.json"], .text "no preset"),
        (["presets", "sub.json"], .folder), (["presets", "sub.json", "notes.txt"], .text (bareText "c" ""))]⟩
    let names := ["a.json", "sub.json"]
    (c.Idle tree ["presets"] names ∧
      (c.list (tree.without ["presets"] names)).summaries = (c.list tree).summaries) ∧
      ∃ p, c.load tree "b" = .ok p ∧ p.summary ∈ (c.list tree).summaries := by
  intro c tree names
  obtain ⟨-, -, hidle, hload⟩ := list_contents c tree
  have h : c.Idle tree ["presets"] names := by
    refine ⟨by decide, by decide, ?_, ?_⟩
    · have hnone : ∀ n ∈ names, (c.presetIn? tree n).isNone = true := by decide +kernel
      exact fun n hn => Option.isNone_iff_eq_none.mp (hnone n hn)
    · decide +kernel
  refine ⟨⟨h, hidle _ _ h⟩, ?_⟩
  have hloads : (c.load tree "b").toOption.isSome = true := by decide +kernel
  cases hp : c.load tree "b" with
  | error e => rw [hp] at hloads; cases hloads
  | ok p => exact ⟨p, rfl, hload (by decide) _ _ hp⟩

/-- With no path for the folder a preset loads and is not listed. And a link that leads nowhere leads to a
preset once a file is there whose own name is no preset's. -/
theorem list_unlike_contents :
    (let c : Catalog := ⟨""⟩
      let tree : FileTree Unit := ⟨[(["p.json"], .text (bareText "p" ""))]⟩
      ∃ p, c.load tree "p" = .ok p ∧ p.summary ∉ (c.list tree).summaries) ∧
      let c : Catalog := ⟨"presets"⟩
      let tree : FileTree Unit :=
        ⟨[(["presets"], .folder), (["presets", "a.json"], .link "b.txt"), (["presets", "b.txt"], .text (bareText "p" ""))]⟩
      FilePath.extension? "b.txt" ≠ some fileExtension ∧
        (c.list (tree.without ["presets"] ["b.txt"])).summaries ≠ (c.list tree).summaries := by
  refine ⟨?_, ?_⟩
  · intro c tree
    have hloads : (c.load tree "p").toOption.isSome = true := by decide +kernel
    have hfound : c.summariesIn tree = [] := by decide +kernel
    cases hp : c.load tree "p" with
    | error e => rw [hp] at hloads; cases hloads
    | ok p =>
      refine ⟨p, rfl, fun hmem => ?_⟩
      rw [list_perm_summariesIn.mem_iff, hfound] at hmem
      cases hmem
  · intro c tree
    refine ⟨by decide, fun heq => ?_⟩
    have hfound : c.summariesIn tree = [⟨"p", some "", 0, 0⟩] := by decide +kernel
    have hfound' : c.summariesIn (tree.without ["presets"] ["b.txt"]) = [] := by decide +kernel
    rw [list_of_sorted (by rw [hfound']; decide), list_of_sorted (by rw [hfound]; decide), hfound, hfound'] at heq
    cases heq

end PresetWorkspace.Catalog
