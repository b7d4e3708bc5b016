import PresetWorkspace.Markdown
import PresetWorkspace.Proofs.Loaded
import PresetWorkspace.Proofs.Script

/-!
# Nested calls

Todos are counted, created and listed by walks that call themselves for the
todos below each todo, with nothing that limits how many of these calls are
open at once. `visit` is such a walk with a limit: it gives up where it would
need one call more. A forest needs one call more than it has levels
(`visit_eq`), so 64 calls are enough for every preset that has been read
(`Preset.read_bounded`).
-/

namespace PresetWorkspace

/-- Visits the todos of a forest in order, each one before all below it, and joins what each visit leaves. At most
`calls` visits of forests may be open at once. -/
def visit {m : Type → Type} [Monad m] {κ γ : Type} (enter : κ → TodoTemplate → m (κ × γ)) (tooDeep : m γ) (nothing : γ)
    (join : γ → γ → γ) : (calls : Nat) → κ → List TodoTemplate → m γ
  | 0, _, _ => tooDeep
  | calls + 1, place, ts =>
    ts.foldr (fun t rest => do
      let (inside, own) ← enter place t
      let below ← visit enter tooDeep nothing join calls inside t.subtodos
      let rest ← rest
      pure (join (join own below) rest)) (pure nothing)

section
variable {m : Type → Type} [Monad m] {κ γ : Type} {enter : κ → TodoTemplate → m (κ × γ)} {tooDeep : m γ} {nothing : γ}
variable {join : γ → γ → γ} {w : κ → List TodoTemplate → m γ}

/-- A walk without a limit is one with a limit above the number of levels. -/
theorem visit_eq (nil : ∀ place, w place [] = pure nothing)
    (cons : ∀ place t ts, w place (t :: ts) = do
      let (inside, own) ← enter place t
      let below ← w inside t.subtodos
      let rest ← w place ts
      pure (join (join own below) rest))
    {calls : Nat} {ts : List TodoTemplate} (h : TodoTemplate.heights ts < calls) (place : κ) :
    visit enter tooDeep nothing join calls place ts = w place ts := by
  induction calls generalizing ts place with
  | zero => exact absurd h (Nat.not_lt_zero _)
  | succ calls ih =>
    unfold visit
    induction ts with
    | nil => exact (nil place).symm
    | cons t ts ihRest =>
      rw [TodoTemplate.heights, TodoTemplate.height_eq] at h
      have hbelow (inside : κ) : visit enter tooDeep nothing join calls inside t.subtodos = w inside t.subtodos :=
        ih (by omega) inside
      rw [List.foldr_cons, ihRest (by omega), cons]
      simp only [hbelow]

end

/-! ## The walks -/

namespace TodoTemplate

def countWithin (calls : Nat) (ts : List TodoTemplate) : Option Nat :=
  visit (fun (place : Unit) _ => some (place, 1)) none 0 (· + ·) calls () ts

theorem countWithin_eq {calls : Nat} {ts : List TodoTemplate} (h : heights ts < calls) :
    countWithin calls ts = some (countAll ts) :=
  visit_eq (w := fun _ ts => some (countAll ts)) (fun _ => rfl)
    (fun _ t ts => congrArg some (countAll_cons t ts)) h ()

end TodoTemplate

namespace Markdown

def todoForestWithin (calls depth : Nat) (ts : List TodoTemplate) : Option String :=
  visit (fun depth t => some (depth + 1, todoLine depth t.title t.tagNames)) none "" (· ++ ·) calls depth ts

theorem todoForest_cons (depth : Nat) (t : TodoTemplate) (ts : List TodoTemplate) :
    todoForest depth (t :: ts) =
      todoLine depth t.title t.tagNames ++ todoForest (depth + 1) t.subtodos ++ todoForest depth ts := by
  obtain ⟨title, description, tagNames, _ | below⟩ := t <;>
    simp [todoForest, todoTree, TodoTemplate.subtodos]

theorem todoForestWithin_eq {calls depth : Nat} {ts : List TodoTemplate} (h : TodoTemplate.heights ts < calls) :
    todoForestWithin calls depth ts = some (todoForest depth ts) :=
  visit_eq (w := fun depth ts => some (todoForest depth ts)) (fun _ => rfl)
    (fun depth t ts => congrArg some (todoForest_cons depth t ts)) h depth

end Markdown

section
variable {ι ε σ : Type} (store : Store ι ε σ) (group : ι) (ids : TagIds ι)

/-- Creates the todos of a forest with a limit on nested calls; past it there is a failure that is no rejection. -/
def createForestWithin (calls : Nat) (parent : Option ι) (ts : List TodoTemplate) :
    Creating (Option (Rejected ε)) σ Nat :=
  visit (fun parent t => do
    let id ← (store.issue (.todo (t.request group ids parent))).adapt some
    pure (some id, 1)) (throw none) 0 (· + ·) calls parent ts

theorem createForestWithin_eq {calls : Nat} {parent : Option ι} {ts : List TodoTemplate}
    (h : TodoTemplate.heights ts < calls) :
    createForestWithin store group ids calls parent ts = (createForest store group ids parent ts).adapt some := by
  refine visit_eq (w := fun parent ts => (createForest store group ids parent ts).adapt some) (fun _ => ?_)
    (fun parent t ts => ?_) h parent
  · simp only [createForest]
    rfl
  · rw [createForest_cons]
    simp only [Creating.adapt_bind, bind_assoc, pure_bind]
    rfl

end

/-! ## Deep presets -/

def TodoTemplate.chain : Nat → TodoTemplate
  | 0 => { title := "" }
  | n + 1 => { title := "", children := some [chain n] }

theorem TodoTemplate.height_chain (n : Nat) : (chain n).height = n + 1 := by
  induction n with
  | zero => rfl
  | succ n ih =>
    rw [height_eq]
    show 1 + max (chain n).height 0 = n + 1 + 1
    omega

/-- The object of each todo stands in a list. -/
theorem TodoTemplate.depth_chain (n : Nat) : (chain n).toJson.depth = 2 * n + 1 := by
  induction n with
  | zero => rfl
  | succ n ih =>
    show max 0 (max (max (chain n).toJson.depth 0 + 1) 0) + 1 = 2 * (n + 1) + 1
    omega

def Preset.deep (levels : Nat) : Preset where
  name := ""
  group := { name := "", color := "#000000" }
  todos := [.chain levels]

/-- 63 levels of todos are as many as the text of a preset can have. -/
theorem Preset.read_deep : Document.read (.record .preset) (deep 62).toJson.compact = .ok (deep 62) := by
  have hdepth : (deep 62).toJson.depth = 127 := by
    show max 0 (max 1 (max 1 (max (max (TodoTemplate.chain 62).toJson.depth 0 + 1) 0))) + 1 = 127
    rw [TodoTemplate.depth_chain]
    rfl
  refine (Preset.read_toJson (fun _ hm => absurd hm (Option.not_mem_none _)) (Nat.le_of_eq hdepth) _
    List.mem_cons_self).1 ⟨by decide, fun _ ht => absurd ht List.not_mem_nil⟩

/-- Every preset that is read, whatever its text is like, has colors that are colors, finite ratios and at most 63
levels of todos, which some preset has. So counting, listing and creating its todos takes at most 64 nested calls. -/
theorem Preset.read_bounded :
    (∀ (text : String) (p : Preset), Document.read (.record .preset) text = .ok p →
      IsColor p.group.color ∧ (∀ t ∈ p.tags, IsColor t.color) ∧
        (∀ m ∈ p.group.goalRatios, ∀ e ∈ m.entries, e.2.isFinite = true) ∧
        TodoTemplate.heights p.todos ≤ 63 ∧
        TodoTemplate.countWithin 64 p.todos = some (TodoTemplate.countAll p.todos) ∧
        Markdown.todoForestWithin 64 0 p.todos = some (Markdown.todoForest 0 p.todos) ∧
        ∀ (ι ε σ : Type) (store : Store ι ε σ) (group : ι) (ids : TagIds ι),
          createForestWithin store group ids 64 none p.todos =
            (createForest store group ids none p.todos).adapt some) ∧
    ∃ (text : String) (p : Preset), Document.read (.record .preset) text = .ok p ∧ TodoTemplate.heights p.todos = 63 := by
  refine ⟨fun text p h => ?_, _, _, read_deep, ?_⟩
  · obtain ⟨⟨hgroup, hratios⟩, htags, hlevels⟩ : Document.Kind.Fits Document.depthLimit .preset p := Document.read_fits h
    have hheights : TodoTemplate.heights p.todos ≤ 63 := by
      have hlevels : 2 * TodoTemplate.heights p.todos + 1 ≤ 127 := hlevels
      omega
    have hcalls : TodoTemplate.heights p.todos < 64 := by omega
    exact ⟨hgroup, htags, hratios, hheights, TodoTemplate.countWithin_eq hcalls, Markdown.todoForestWithin_eq hcalls,
      fun _ _ _ store group ids => createForestWithin_eq store group ids hcalls⟩
  · show max (TodoTemplate.chain 62).height 0 = 63
    rw [TodoTemplate.height_chain]
    rfl

/-- Records that stand as lists, a ratio that is given twice, and an unknown member that is no ratio. -/
theorem Preset.read_bounded_listed :
    let text := "\x7b\"x\": 1e999, \"todos\": [[\"a\", null, null, [[\"b\"]]]], \"name\": \"p\", " ++
      "\"tag_group\": [\"g\", \"#00ff7F\", null, \x7b\"a\": 1, \"a\": 1.5e300\x7d]\x7d"
    ∃ p, Document.read (.record .preset) text = .ok p ∧ TodoTemplate.countAll p.todos = 2 ∧
      IsColor p.group.color ∧ (∀ m ∈ p.group.goalRatios, ∀ e ∈ m.entries, e.2.isFinite = true) ∧
      TodoTemplate.countWithin 64 p.todos = some 2 := by
  intro text
  have hread : (Document.read (.record .preset) text).toOption.map (fun p => TodoTemplate.countAll p.todos) = some 2 := by
    decide +kernel
  cases h : Document.read (.record .preset) text with
  | error problem =>
    rw [h] at hread
    cases hread
  | ok p =>
    rw [h] at hread
    have hcount : TodoTemplate.countAll p.todos = 2 := Option.some.inj hread
    obtain ⟨hgroup, -, hratios, -, hcalls, -⟩ := Preset.read_bounded.1 text p h
    exact ⟨p, rfl, hcount, hgroup, hratios, hcount ▸ hcalls⟩

end PresetWorkspace
