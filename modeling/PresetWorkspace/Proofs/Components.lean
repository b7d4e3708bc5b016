import PresetWorkspace.Catalog
import PresetWorkspace.Proofs.Listing

/-!
# Parts of a path

A path is read as the top of the tree or a place in it and the names from there.
Empty pieces and single dots say nothing, but for a dot in front. The file of a
preset has the parts of its folder and one name more, which is the preset's own,
so no name leads out of the folder and no two names to one file. Nothing but the
file at that path decides what a name loads (`load_confined`).
-/

namespace PresetWorkspace

namespace FilePath

inductive Component where
  | root
  | current
  | up
  | name (n : String)
  deriving DecidableEq

def component? (piece : String) : Option Component :=
  if piece = "" ∨ piece = "." then none else if piece = ".." then some .up else some (.name piece)

def components (path : String) : List Component :=
  (if isAbsolute path then [.root] else if (split path).head? = some "." then [.current] else []) ++
    (split path).filterMap component?

theorem component?_of_name {n : String} (h : n ≠ "" ∧ n ≠ "." ∧ n ≠ "..") : component? n = some (.name n) := by
  unfold component?
  rw [if_neg (by simp [h]), if_neg h.2.2]

theorem split_of_notMem {n : String} (h : '/' ∉ n.toList) : split n = [n] := by
  unfold split
  rw [pieces_of_notMem h]
  simp

theorem isAbsolute_of_notMem {n : String} (h : '/' ∉ n.toList) : isAbsolute n = false := by
  unfold isAbsolute
  cases hn : n.toList with
  | nil => rfl
  | cons c cs =>
    rw [hn, List.mem_cons, not_or] at h
    simp [Ne.symm h.1]

theorem join_of_empty {n : String} : join "" n = n := by
  unfold join
  rw [if_pos (.inr (by rfl))]

/-- A name below a folder is one part more. -/
theorem components_join {folder n : String} (hn : n ≠ "" ∧ n ≠ "." ∧ n ≠ "..") (hslash : '/' ∉ n.toList) :
    components (join folder n) = components folder ++ [.name n] := by
  by_cases hfolder : folder = ""
  · subst hfolder
    have hempty : components "" = [] := by decide
    rw [join_of_empty, hempty]
    unfold components
    rw [isAbsolute_of_notMem hslash, split_of_notMem hslash]
    simp [component?_of_name hn, hn.2.1]
  · obtain ⟨habsolute, ps, tail, hps, hjoin, htail⟩ := split_join hfolder hslash
    have hlast : ps.filterMap component? = (ps ++ tail).filterMap component? := by
      rcases htail with rfl | rfl
      · rw [List.append_nil]
      · simp [component?]
    -- A dot in front of the folder stays in front: before the name there is at least one piece.
    have hhead : (ps ++ [n]).head? = some "." ↔ (ps ++ tail).head? = some "." := by
      cases ps with
      | nil => rcases htail with rfl | rfl <;> simp [hn.2.1]
      | cons p ps => rfl
    unfold components
    rw [habsolute, hps, hjoin, List.filterMap_append, hlast]
    simp only [hhead]
    simp [component?_of_name hn]

end FilePath

namespace Catalog

open FilePath (components Component)

variable {δ : Type} {c : Catalog} {name path : String}

theorem path?_eq_some :
    c.path? name = some path ↔
      isPlainName name = true ∧ FilePath.join c.folder (name ++ "." ++ fileExtension) = path := by
  unfold path?
  cases isPlainName name <;> simp

theorem components_path (h : c.path? name = some path) :
    components path = components c.folder ++ [.name (name ++ "." ++ fileExtension)] := by
  obtain ⟨hplain, rfl⟩ := path?_eq_some.mp h
  obtain ⟨hempty, hdot, hup, hslash⟩ := file_ne hplain
  exact FilePath.components_join ⟨hempty, hdot, hup⟩ hslash

theorem path?_injective {other : String} (h : c.path? name = some path) (hother : c.path? other = some path) :
    other = name := by
  have hlast := (components_path hother).symm.trans (components_path h)
  have hfile : other ++ "." ++ fileExtension = name ++ "." ++ fileExtension := by simpa using hlast
  rw [String.append_assoc, String.append_assoc] at hfile
  exact String.append_left_inj _ |>.mp hfile

/-! ## Loading -/

theorem readPreset_ne_notFound {tree : FileTree δ} {other : String} :
    readPreset tree path ≠ .error (.notFound other) := by
  unfold readPreset
  intro h
  split at h
  · cases h
  · split at h <;> cases h

theorem load_eq_notFound {tree : FileTree δ} {other : String} :
    c.load tree name = .error (.notFound other) ↔
      other = name ∧ (c.path? name = none ∨ ∃ path, c.path? name = some path ∧ tree.isFile path = false) := by
  have hname : (.error (.notFound name) : Except PresetError Preset) = .error (.notFound other) ↔ other = name := by
    constructor
    · intro h
      cases h
      rfl
    · intro h
      rw [h]
  unfold load
  cases hpath : c.path? name with
  | none => simp [hname]
  | some path =>
    rw [Option.filter_some]
    cases hfile : tree.isFile path with
    | true => simp [readPreset_ne_notFound, hfile]
    | false => simp [hname, hfile]

/-- What a name loads is decided by what its path leads to. -/
theorem load_congr {tree tree' : FileTree δ} (h : ∀ path, c.path? name = some path → tree.find path = tree'.find path) :
    c.load tree name = c.load tree' name := by
  unfold load
  cases hpath : c.path? name with
  | none => rfl
  | some path =>
    have hfind := h path hpath
    have hfile : tree.isFile path = tree'.isFile path := by
      unfold FileTree.isFile
      rw [hfind]
    have hread : readPreset tree path = readPreset tree' path := by
      unfold readPreset FileTree.readText
      rw [hfind]
    rw [Option.filter_some, Option.filter_some, hfile]
    cases tree'.isFile path with
    | true => exact hread
    | false => rfl

/-- A name has a path unless it is no name or has a separator. The path is its own file in the folder, and all that
loading the name looks at; without a file there, or without a path, the name is not found. -/
theorem load_confined (c : Catalog) (name : String) :
    (c.path? name = none ↔ name ∈ ["", ".", ".."] ∨ '/' ∈ name.toList ∨ '\\' ∈ name.toList) ∧
      (∀ path, c.path? name = some path →
        components path = components c.folder ++ [.name (name ++ ".json")] ∧ name ++ ".json" ∉ ["", ".", ".."] ∧
          '/' ∉ (name ++ ".json").toList ∧ ∀ other, c.path? other = some path → other = name) ∧
      (∀ (tree : FileTree δ) other, c.load tree name = .error (.notFound other) ↔
        other = name ∧ (c.path? name = none ∨ ∃ path, c.path? name = some path ∧ tree.isFile path = false)) ∧
      ∀ tree tree' : FileTree δ, (∀ path, c.path? name = some path → tree.find path = tree'.find path) →
        c.load tree name = c.load tree' name := by
  have hfile : name ++ ".json" = name ++ "." ++ fileExtension := by rw [String.append_assoc]; rfl
  refine ⟨?_, ?_, fun tree other => load_eq_notFound, fun tree tree' => load_congr⟩
  · have hplain : isPlainName name = true ↔ _ := isPlainName_iff
    unfold path?
    cases h : isPlainName name with
    | true =>
      obtain ⟨⟨hempty, hdot, hup⟩, hslash, hback⟩ := hplain.mp h
      simp [hempty, hdot, hup, hslash, hback]
    | false =>
      rw [h] at hplain
      simp only [Bool.false_eq_true, false_iff] at hplain
      simp only [List.mem_cons, List.not_mem_nil, or_false]
      simp only [Bool.false_eq_true, if_false, true_iff]
      by_contra hnone
      apply hplain
      simpa [not_or, and_assoc] using hnone
  · intro path h
    obtain ⟨hempty, hdot, hup, hslash⟩ := file_ne (path?_eq_some.mp h).1
    rw [hfile]
    refine ⟨components_path h, ?_, hslash, fun other => path?_injective h⟩
    simp [hempty, hdot, hup]

example : FilePath.components "./a//../b/" = [.current, .name "a", .up, .name "b"] := by decide

end Catalog

end PresetWorkspace
