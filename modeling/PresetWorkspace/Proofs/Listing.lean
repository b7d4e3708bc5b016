import Mathlib.Data.List.Sort
import PresetWorkspace.Catalog
import PresetWorkspace.Proofs.FolderEntries

/-!
# Listings

A listing shows the names inside documents and a preset is loaded by the stem
of its file, so the name that is shown need not load what it was shown for:
`load_listed_iff` says what the stem loads, and when the name does. The
summaries are put in the order of their names by a stable sort, so the order of
a folder's entries shows between summaries of one name and nowhere else
(`list_order`).
-/

namespace PresetWorkspace.Catalog

variable {δ : Type} {c : Catalog} {tree : FileTree δ}

/-- A file of the folder is taken for a preset and reads as one. -/
structure Holds (c : Catalog) (tree : FileTree δ) (file : String) (p : Preset) : Prop where
  listed : file ∈ tree.namesIn c.folder
  extension : FilePath.extension? file = some fileExtension
  isFile : tree.isFile (FilePath.join c.folder file) = true
  reads : readPreset tree (FilePath.join c.folder file) = .ok p

theorem mem_files {path : String} : path ∈ c.files tree ↔
    ∃ file ∈ tree.namesIn c.folder, FilePath.extension? file = some fileExtension ∧
      tree.isFile (FilePath.join c.folder file) = true ∧ FilePath.join c.folder file = path := by
  unfold files
  simp only [List.mem_filterMap, List.mem_filter, decide_eq_true_eq, Option.filter_eq_some_iff, Option.some.injEq]
  constructor
  · rintro ⟨file, ⟨hlisted, hextension⟩, rfl, hfile⟩
    exact ⟨file, hlisted, hextension, hfile, rfl⟩
  · rintro ⟨file, hlisted, hextension, hfile, rfl⟩
    exact ⟨file, ⟨hlisted, hextension⟩, rfl, hfile⟩

def summariesIn (c : Catalog) (tree : FileTree δ) : List Summary :=
  if tree.isFolder c.folder then (c.files tree).filterMap fun path => (readPreset tree path).toOption.map Preset.summary
  else []

theorem list_eq : (c.list tree).summaries = (c.summariesIn tree).mergeSort fun a b => decide (a.name ≤ b.name) := by
  unfold list summariesIn
  cases tree.isFolder c.folder with
  | false => rfl
  | true =>
    simp only [if_true, List.filterMap_map]
    rfl

theorem list_perm_summariesIn : (c.list tree).summaries.Perm (c.summariesIn tree) := by
  rw [list_eq]
  exact List.mergeSort_perm _ _

/-- A listing shows what the files of the folder hold. -/
theorem mem_list {i : Summary} :
    i ∈ (c.list tree).summaries ↔ tree.isFolder c.folder = true ∧ ∃ file p, c.Holds tree file p ∧ p.summary = i := by
  rw [list_perm_summariesIn.mem_iff]
  unfold summariesIn
  cases tree.isFolder c.folder with
  | false => simp
  | true =>
    simp only [if_true, true_and, List.mem_filterMap]
    constructor
    · rintro ⟨path, hpath, hi⟩
      obtain ⟨file, hlisted, hextension, hfile, rfl⟩ := mem_files.mp hpath
      cases hreads : readPreset tree (FilePath.join c.folder file) with
      | error e => rw [hreads] at hi; cases hi
      | ok p =>
        rw [hreads] at hi
        exact ⟨file, p, ⟨hlisted, hextension, hfile, hreads⟩, Option.some.inj hi⟩
    · rintro ⟨file, p, h, rfl⟩
      refine ⟨_, mem_files.mpr ⟨file, h.listed, h.extension, h.isFile, rfl⟩, ?_⟩
      rw [h.reads]
      rfl

/-! ## Names of files -/

theorem extension?_preset {name : String} (h : name ≠ "") :
    FilePath.extension? (name ++ "." ++ fileExtension) = some fileExtension := by
  have hback : (name ++ "." ++ fileExtension).toList.reverse = ['n', 'o', 's', 'j', '.'] ++ name.toList.reverse := by
    simp [fileExtension]
  obtain ⟨c, cs, hcs⟩ : ∃ c cs, name.toList.reverse = c :: cs :=
    List.exists_cons_of_ne_nil (by simpa using h)
  unfold FilePath.extension?
  simp only [hback, hcs]
  rfl

/-- A name has the extension of presets if it is a stem, not the empty one, with the extension behind it. -/
theorem extension?_eq_iff {file : String} :
    FilePath.extension? file = some fileExtension ↔ ∃ stem, stem ≠ "" ∧ file = stem ++ ".json" := by
  constructor
  · intro h
    unfold FilePath.extension? at h
    dsimp only at h
    generalize hback : file.toList.reverse = back at h
    have hsplit : back.takeWhile (· ≠ '.') ++ back.dropWhile (· ≠ '.') = back := List.takeWhile_append_dropWhile
    have hdrop := List.head?_dropWhile_not (· ≠ '.') back
    generalize back.takeWhile (· ≠ '.') = ending at h hsplit
    generalize back.dropWhile (· ≠ '.') = rest at hsplit hdrop
    subst hsplit
    cases rest with
    | nil =>
      rw [List.append_nil, List.drop_eq_nil_of_le (Nat.le_succ _)] at h
      cases h
    | cons d rest =>
      obtain rfl : d = '.' := by simpa using hdrop
      cases rest with
      | nil => simp at h
      | cons d rest =>
        have hjson : String.ofList ending.reverse = "json" := by simpa [fileExtension] using h
        have hending : ending.reverse = "json".toList := by rw [← hjson, String.toList_ofList]
        refine ⟨String.ofList (d :: rest).reverse, by simp, ?_⟩
        rw [← String.toList_inj, ← List.reverse_reverse file.toList, hback]
        simp [hending]
  · rintro ⟨stem, hstem, rfl⟩
    have := extension?_preset hstem
    rwa [String.append_assoc] at this

theorem isPlainName_iff {name : String} :
    isPlainName name = true ↔
      (name ≠ "" ∧ name ≠ "." ∧ name ≠ "..") ∧ '/' ∉ name.toList ∧ '\\' ∉ name.toList := by
  unfold isPlainName
  simp only [Bool.and_eq_true, decide_eq_true_eq, Bool.not_eq_true', List.any_eq_false, Bool.or_eq_true, not_or]
  constructor
  · rintro ⟨⟨⟨hempty, hdot⟩, hup⟩, hslash⟩
    exact ⟨⟨hempty, hdot, hup⟩, fun h => (hslash _ h).1 rfl, fun h => (hslash _ h).2 rfl⟩
  · rintro ⟨⟨hempty, hdot, hup⟩, hslash, hback⟩
    refine ⟨⟨⟨hempty, hdot⟩, hup⟩, fun c hc => ⟨?_, ?_⟩⟩
    · rintro rfl
      exact hslash hc
    · rintro rfl
      exact hback hc

/-- The file of a plain name is a name by itself, and no folder. -/
theorem file_ne {name : String} (h : isPlainName name = true) :
    name ++ "." ++ fileExtension ≠ "" ∧ name ++ "." ++ fileExtension ≠ "." ∧ name ++ "." ++ fileExtension ≠ ".." ∧
      '/' ∉ (name ++ "." ++ fileExtension).toList := by
  obtain ⟨-, hslash, -⟩ := isPlainName_iff.mp h
  have hlong : ∀ s : String, s.length < 5 → name ++ "." ++ fileExtension ≠ s := by
    rintro s hs rfl
    have hdot : ".".length = 1 := rfl
    have hextension : fileExtension.length = 4 := rfl
    rw [String.length_append, String.length_append] at hs
    omega
  refine ⟨hlong _ (by decide), hlong _ (by decide), hlong _ (by decide), ?_⟩
  simp [fileExtension, hslash]

theorem isFile_of_find {path : String} (h : tree.isFile path = true) : ∃ e, tree.find path = .ok e := by
  unfold FileTree.isFile at h
  cases hfind : tree.find path with
  | error e => rw [hfind] at h; cases h
  | ok e => exact ⟨e, rfl⟩

/-- A preset that loads is one that a file of the folder holds. -/
theorem load_eq_ok {name : String} {p : Preset} (hfolder : tree.isFolder c.folder = true) :
    c.load tree name = .ok p ↔ isPlainName name = true ∧ c.Holds tree (name ++ "." ++ fileExtension) p := by
  unfold load path?
  cases hplain : isPlainName name with
  | false => simp
  | true =>
    rw [if_pos rfl]
    constructor
    · intro h
      split at h
      · rename_i path hpath
        obtain ⟨hpath, hfile⟩ := Option.filter_eq_some_iff.mp hpath
        cases hpath
        obtain ⟨e, he⟩ := isFile_of_find hfile
        have hname := (isPlainName_iff.mp hplain).1.1
        exact ⟨rfl, FileTree.mem_namesIn_of_find hfolder (file_ne hplain) he, extension?_preset hname, hfile, h⟩
      · cases h
    · rintro ⟨-, h⟩
      rw [Option.filter_some, if_pos h.isFile]
      exact h.reads

theorem load_of_not_plain {name : String} (h : isPlainName name = false) : c.load tree name = .error (.notFound name) := by
  unfold load path?
  rw [h]
  rfl

/-- A summary is listed of a file, and the stem of the file loads its preset if it is a name that can be asked for.
The name of the summary loads a preset of that summary iff there is one in the file of the name. -/
theorem load_listed_iff {i : Summary} (hi : i ∈ (c.list tree).summaries) :
    (∃ stem p, stem ≠ "" ∧ c.Holds tree (stem ++ ".json") p ∧ p.summary = i ∧
      c.load tree stem = if isPlainName stem then .ok p else .error (.notFound stem)) ∧
      ((∃ p, c.load tree i.name = .ok p ∧ p.summary = i) ↔
        isPlainName i.name = true ∧ ∃ p, c.Holds tree (i.name ++ ".json") p ∧ p.summary = i) := by
  obtain ⟨hfolder, file, p, hp, hsummary⟩ := mem_list.mp hi
  have hload (name : String) (q : Preset) :
      c.load tree name = .ok q ↔ isPlainName name = true ∧ c.Holds tree (name ++ ".json") q := by
    rw [load_eq_ok hfolder, String.append_assoc]
    rfl
  constructor
  · obtain ⟨stem, hstem, rfl⟩ := extension?_eq_iff.mp hp.extension
    refine ⟨stem, p, hstem, hp, hsummary, ?_⟩
    cases hplain : isPlainName stem with
    | true => exact (hload stem p).mpr ⟨hplain, hp⟩
    | false => exact load_of_not_plain hplain
  · constructor
    · rintro ⟨q, hq, hsummary⟩
      obtain ⟨hplain, hholds⟩ := (hload i.name q).mp hq
      exact ⟨hplain, q, hholds, hsummary⟩
    · rintro ⟨hplain, q, hholds, hsummary⟩
      exact ⟨q, (hload i.name q).mpr ⟨hplain, hholds⟩, hsummary⟩

def bareText (name description : String) : String :=
  "\x7b\"name\":\"" ++ name ++ "\",\"description\":\"" ++ description ++
    "\",\"tag_group\":\x7b\"name\":\"g\",\"color\":\"#000000\"\x7d\x7d"

/-- A document under another name than its file's is listed, and its name loads nothing. -/
theorem listed_without_file :
    let c : Catalog := ⟨"presets"⟩
    let tree : FileTree Unit := ⟨[(["presets"], .folder), (["presets", "a.json"], .text (bareText "b" ""))]⟩
    ¬ ∀ i ∈ (c.list tree).summaries, ∃ p, c.load tree i.name = .ok p ∧ p.summary = i := by
  intro c tree h
  have hfound : c.summariesIn tree = [⟨"b", some "", 0, 0⟩] := by decide +kernel
  have hload : (c.load tree "b").toOption.isNone = true := by decide +kernel
  have hlisted : ⟨"b", some "", 0, 0⟩ ∈ (c.list tree).summaries :=
    list_perm_summariesIn.mem_iff.mpr (by rw [hfound]; exact List.mem_cons_self)
  obtain ⟨p, hp, -⟩ := h _ hlisted
  rw [hp] at hload
  cases hload

/-- Of two documents of one name, the one that loads is the one in the file of that name. -/
theorem load_listed_iff_second :
    let c : Catalog := ⟨"presets"⟩
    let tree : FileTree Unit :=
      ⟨[(["presets"], .folder), (["presets", "a.json"], .text (bareText "b" "")),
        (["presets", "b.json"], .text (bareText "b" "x"))]⟩
    let i : Summary := ⟨"b", some "x", 0, 0⟩
    i ∈ (c.list tree).summaries ∧
      (∃ stem p, stem ≠ "" ∧ c.Holds tree (stem ++ ".json") p ∧ p.summary = i ∧
        c.load tree stem = if isPlainName stem then .ok p else .error (.notFound stem)) ∧
      ((∃ p, c.load tree i.name = .ok p ∧ p.summary = i) ↔
        isPlainName i.name = true ∧ ∃ p, c.Holds tree (i.name ++ ".json") p ∧ p.summary = i) := by
  intro c tree i
  have hfound : i ∈ c.summariesIn tree := by decide +kernel
  have hi := list_perm_summariesIn.mem_iff.mpr hfound
  exact ⟨hi, load_listed_iff hi⟩

/-! ## Order -/

section
variable {tree' : FileTree δ} (h : tree.SameEntries tree')
include h

theorem readPreset_eq (path : String) : readPreset tree path = readPreset tree' path := by
  unfold readPreset FileTree.readText
  rw [h.find_eq]

theorem files_perm : (c.files tree).Perm (c.files tree') := by
  unfold files FileTree.isFile
  simp only [h.find_eq]
  exact ((h.namesIn_perm _).filter _).filterMap _

theorem summariesIn_perm : (c.summariesIn tree).Perm (c.summariesIn tree') := by
  have hfolder : tree.isFolder c.folder = tree'.isFolder c.folder := by
    unfold FileTree.isFolder
    rw [h.find_eq]
  unfold summariesIn
  rw [hfolder, funext (readPreset_eq h)]
  split
  · exact (files_perm h).filterMap _
  · exact .refl _

end

theorem le_name_trans (a b c : Summary) (hab : decide (a.name ≤ b.name) = true)
    (hbc : decide (b.name ≤ c.name) = true) : decide (a.name ≤ c.name) = true :=
  decide_eq_true (String.le_trans (of_decide_eq_true hab) (of_decide_eq_true hbc))

theorem le_name_total (a b : Summary) : (decide (a.name ≤ b.name) || decide (b.name ≤ a.name)) = true := by
  simpa using String.le_total a.name b.name

theorem list_sorted (c : Catalog) (tree : FileTree δ) : (c.list tree).summaries.Pairwise (·.name ≤ ·.name) := by
  rw [list_eq]
  exact (List.pairwise_mergeSort le_name_trans le_name_total _).imp of_decide_eq_true

/-- The sort is stable: summaries that come in the order of their names stay as they come. -/
theorem list_of_sorted (h : (c.summariesIn tree).Pairwise (·.name ≤ ·.name)) :
    (c.list tree).summaries = c.summariesIn tree := by
  rw [list_eq]
  exact List.mergeSort_of_pairwise (h.imp decide_eq_true)

/-- Another order of a folder's entries lists the same names in the same places, and the same summaries
but for the order among those of one name. -/
theorem list_order {tree' : FileTree δ} (h : tree.SameEntries tree') :
    (c.list tree).summaries.map (·.name) = (c.list tree').summaries.map (·.name) ∧
      (c.list tree).summaries.Perm (c.list tree').summaries ∧
      ((∀ i ∈ (c.list tree).summaries, ∀ j ∈ (c.list tree).summaries, i.name = j.name → i = j) →
        (c.list tree).summaries = (c.list tree').summaries) := by
  have hperm : (c.list tree).summaries.Perm (c.list tree').summaries :=
    list_perm_summariesIn.trans ((summariesIn_perm h).trans list_perm_summariesIn.symm)
  have hsorted := list_sorted c tree
  have hsorted' := list_sorted c tree'
  refine ⟨?_, hperm, fun hunique => ?_⟩
  · refine (hperm.map _).eq_of_pairwise (fun _ _ _ _ => String.le_antisymm) ?_ ?_
    · exact List.pairwise_map.mpr hsorted
    · exact List.pairwise_map.mpr hsorted'
  · refine hperm.eq_of_pairwise (fun i j hi hj hij hji => ?_) hsorted hsorted'
    exact hunique i hi j (hperm.mem_iff.mpr hj) (String.le_antisymm hij hji)

/-- Two documents of one name are listed as the folder has their files. -/
theorem list_order_of_one_name :
    let c : Catalog := ⟨"presets"⟩
    let a : Location × Entry Unit := (["presets", "a.json"], .text (bareText "p" ""))
    let b : Location × Entry Unit := (["presets", "b.json"], .text (bareText "p" "x"))
    let tree : FileTree Unit := ⟨[(["presets"], .folder), a, b]⟩
    let tree' : FileTree Unit := ⟨[(["presets"], .folder), b, a]⟩
    tree.SameEntries tree' ∧ (c.list tree).summaries ≠ (c.list tree').summaries := by
  intro c a b tree tree'
  refine ⟨⟨(List.Perm.swap _ _ _).cons _, by decide⟩, ?_⟩
  have hfound : c.summariesIn tree = [⟨"p", some "", 0, 0⟩, ⟨"p", some "x", 0, 0⟩] := by decide +kernel
  have hfound' : c.summariesIn tree' = [⟨"p", some "x", 0, 0⟩, ⟨"p", some "", 0, 0⟩] := by decide +kernel
  rw [list_of_sorted (by rw [hfound]; decide), list_of_sorted (by rw [hfound']; decide), hfound, hfound']
  decide

theorem list_order_of_three :
    let c : Catalog := ⟨"presets"⟩
    let a : Location × Entry Unit := (["presets", "a.json"], .text (bareText "q" ""))
    let b : Location × Entry Unit := (["presets", "b.json"], .text (bareText "p" "x"))
    let d : Location × Entry Unit := (["presets", "d.json"], .text (bareText "p" ""))
    let tree : FileTree Unit := ⟨[(["presets"], .folder), a, b, d]⟩
    let tree' : FileTree Unit := ⟨[(["presets"], .folder), b, a, d]⟩
    tree.SameEntries tree' ∧
      (c.list tree).summaries.map (·.name) = (c.list tree').summaries.map (·.name) ∧
      (c.list tree).summaries.Perm (c.list tree').summaries ∧
      ((∀ i ∈ (c.list tree).summaries, ∀ j ∈ (c.list tree).summaries, i.name = j.name → i = j) →
        (c.list tree).summaries = (c.list tree').summaries) := by
  intro c a b d tree tree'
  have h : tree.SameEntries tree' := ⟨(List.Perm.swap _ _ _).cons _, by decide⟩
  exact ⟨h, list_order h⟩

end PresetWorkspace.Catalog
