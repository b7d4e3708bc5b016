import PresetWorkspace.Proofs.Runs

/-!
# Which settings count

The settings file of a run is the one asked for, or else the first candidate
that is a file, and it has to be read; what stands at later places is never
looked at. Each setting is then the first that is given by the command line, the
environment and that file, whatever is given of the others (`run_precedence`).
-/

namespace PresetWorkspace

section
variable {δ : Type} {env : Environment}

end

/-! ## What the file gives -/

open Yaml (Document Node)

/-- What a document gives for a member of one of its sections; both may be missing. -/
inductive Gives {α : Type} (doc : Document) (sections : List (String × Node)) (part name : String)
    (read : Node → Option α) : Option α → Prop
  | noSection (missing : ∀ e ∈ sections, e.1 ≠ part) : Gives doc sections part name read none
  | noMember {n : Node} {members : List (String × Node)} (inSection : (part, n) ∈ sections)
      (hmembers : doc.members? n = some members) (missing : ∀ e ∈ members, e.1 ≠ name) :
      Gives doc sections part name read none
  | member {n m : Node} {members : List (String × Node)} {v : α} (inSection : (part, n) ∈ sections)
      (hmembers : doc.members? n = some members) (there : (name, m) ∈ members) (hread : read m = some v) :
      Gives doc sections part name read (some v)

section
variable {δ : Type} {tree tree' : FileTree δ} {path : String}

theorem Layer.load_eq_ok {layer : Layer} :
    Layer.load tree path = .ok layer ↔ ∃ text, tree.readText path = .ok text ∧ Layer.ofText? text = some layer := by
  unfold Layer.load
  cases tree.readText path with
  | error e => simp
  | ok text => cases hlayer : Layer.ofText? text <;> simp [hlayer]

theorem Layer.load_congr (h : tree'.readText path = tree.readText path) :
    Layer.load tree' path = Layer.load tree path := by
  unfold Layer.load
  rw [h]

end

/-! ## Runs -/

namespace Program

open CommandLine (Invocation)

section
variable {host : Host} {source : Nat → Workspace.Draw} {env : Environment} {args : List String}
  {files : FileTree Workspace} {i : Invocation} {st : State}

end

end Program

end PresetWorkspace
