import Mathlib.Tactic.Choose
import PresetWorkspace.Materialize

/-!
# Scripts

A body that works with a store can do no more than ask for records and look at
the answers. `Script` lists all such bodies, whatever they do about a rejected
call, and setting up a preset is one of them (`materialize_isScript`). So what
is shown of every script, by induction on it, holds of presets as well.
-/

namespace PresetWorkspace

/-! ## Computations over a store -/

namespace Creating

variable {ε ε' σ α β : Type}

theorem bind_apply (x : Creating ε σ α) (f : α → Creating ε σ β) (s : σ) :
    (x >>= f) s = match x s with
      | (.ok v, s') => f v s'
      | (.error e, s') => (.error e, s') := by
  show (match x s with
    | (r, s') => ExceptT.bindCont f r s') = _
  cases x s with
  | mk r s' => cases r <;> rfl

theorem bind_of_ok {x : Creating ε σ α} {f : α → Creating ε σ β} {s : σ} {v : α} (h : (x s).1 = .ok v) :
    (x >>= f) s = f v (x s).2 := by
  rw [bind_apply]
  cases hx : x s with
  | mk r s' =>
    rw [hx] at h
    cases h
    rfl

theorem bind_of_error {x : Creating ε σ α} {f : α → Creating ε σ β} {s : σ} {e : ε} (h : (x s).1 = .error e) :
    (x >>= f) s = (.error e, (x s).2) := by
  rw [bind_apply]
  cases hx : x s with
  | mk r s' =>
    rw [hx] at h
    cases h
    rfl

theorem adapt_apply (x : Creating ε σ α) (f : ε → ε') (s : σ) :
    (ExceptT.adapt f x : Creating ε' σ α) s = ((x s).1.mapError f, (x s).2) := rfl

theorem adapt_bind (f : ε → ε') (x : Creating ε σ α) (g : α → Creating ε σ β) :
    ExceptT.adapt f (x >>= g) = (ExceptT.adapt f x >>= fun v => ExceptT.adapt f (g v) : Creating ε' σ β) := by
  funext s
  rw [adapt_apply, bind_apply, bind_apply, adapt_apply]
  cases x s with
  | mk r s' => cases r <;> rfl

theorem ok_of_bind {x : Creating ε σ α} {f : α → Creating ε σ β} {s : σ} {r : β} (h : ((x >>= f) s).1 = .ok r) :
    ∃ v, (x s).1 = .ok v ∧ (x >>= f) s = f v (x s).2 := by
  rw [bind_apply] at h ⊢
  cases hx : x s with
  | mk v s' =>
    rw [hx] at h
    cases v with
    | error e => cases h
    | ok v => exact ⟨v, rfl, rfl⟩

theorem ok_of_adapt {x : Creating ε σ α} {f : ε → ε'} {s : σ} {v : α}
    (h : ((ExceptT.adapt f x : Creating ε' σ α) s).1 = .ok v) : (x s).1 = .ok v := by
  rw [adapt_apply] at h
  cases hx : (x s).1 with
  | error e => rw [hx] at h; cases h
  | ok w => rw [hx] at h; cases h; rfl

end Creating

/-! ## Scripts -/

/-- What a body does with a store: it gives a value, fails, or makes a call and goes on as the answer tells. -/
inductive Script (ι ε φ α : Type) where
  | give (v : α)
  | fail (e : φ)
  | ask (call : Call ι) (next : Except ε ι → Script ι ε φ α)

namespace Script

variable {ι ε φ α β σ : Type}

def run (store : Store ι ε σ) : Script ι ε φ α → Creating φ σ α
  | give v => pure v
  | fail e => throw e
  | ask call next => ExceptT.mk fun s => (next (store call s).1).run store (store call s).2

def calls (store : Store ι ε σ) : Script ι ε φ α → σ → List (Call ι)
  | give _, _ => []
  | fail _, _ => []
  | ask call next, s => call :: (next (store call s).1).calls store (store call s).2

def answers (store : Store ι ε σ) : Script ι ε φ α → σ → List (Except ε ι)
  | give _, _ => []
  | fail _, _ => []
  | ask call next, s => (store call s).1 :: (next (store call s).1).answers store (store call s).2

def bind : Script ι ε φ α → (α → Script ι ε φ β) → Script ι ε φ β
  | give v, f => f v
  | fail e, _ => fail e
  | ask call next, f => ask call fun answer => (next answer).bind f

section
variable (store : Store ι ε σ)

@[simp] theorem run_give (v : α) (s : σ) : (give v : Script ι ε φ α).run store s = (.ok v, s) := rfl

@[simp] theorem run_fail (e : φ) (s : σ) : (fail e : Script ι ε φ α).run store s = (.error e, s) := rfl

theorem run_ask (call : Call ι) (next : Except ε ι → Script ι ε φ α) (s : σ) :
    (ask call next).run store s = (next (store call s).1).run store (store call s).2 := rfl

theorem run_bind (b : Script ι ε φ α) (f : α → Script ι ε φ β) :
    (b.bind f).run store = b.run store >>= fun v => (f v).run store := by
  induction b with
  | give v =>
    funext s
    rw [Creating.bind_apply, run_give]
    rfl
  | fail e =>
    funext s
    rw [Creating.bind_apply, run_fail]
    rfl
  | ask call next ih =>
    funext s
    have := congrFun (ih (store call s).1) (store call s).2
    rw [Creating.bind_apply] at this ⊢
    exact this

theorem run_keeps {P : σ → Prop} (h : ∀ call s, P s → P (store call s).2) (b : Script ι ε φ α) {s : σ} (hs : P s) :
    P (b.run store s).2 := by
  induction b generalizing s with
  | give v => exact hs
  | fail e => exact hs
  | ask call next ih =>
    rw [run_ask]
    exact ih _ (h call s hs)

end

end Script

def Store.answerAll {ι ε σ : Type} (store : Store ι ε σ) : List (Call ι) → σ → List (Except ε ι) × σ
  | [], s => ([], s)
  | call :: calls, s =>
    let rest := store.answerAll calls (store call s).2
    ((store call s).1 :: rest.1, rest.2)

/-- A run of a script leaves what its calls leave one by one, and each of them gets the same answer. -/
theorem Script.answerAll_calls {ι ε φ α σ : Type} (store : Store ι ε σ) (b : Script ι ε φ α) (s : σ) :
    store.answerAll (b.calls store s) s = (b.answers store s, (b.run store s).2) := by
  induction b generalizing s with
  | give v => rfl
  | fail e => rfl
  | ask call next ih =>
    simp only [Script.calls, Script.answers, Store.answerAll, Script.run_ask]
    rw [ih]

/-! ## Forests -/

mutual

/-- Induction on a forest: through the todos below its first root, and the trees after. -/
theorem TodoTemplate.forest_induction {P : List TodoTemplate → Prop} (nil : P [])
    (cons : ∀ t ts, P t.subtodos → P ts → P (t :: ts)) : ∀ ts, P ts
  | [] => nil
  | t :: ts => cons t ts (forest_below nil cons t) (forest_induction nil cons ts)

theorem TodoTemplate.forest_below {P : List TodoTemplate → Prop} (nil : P [])
    (cons : ∀ t ts, P t.subtodos → P ts → P (t :: ts)) : ∀ t : TodoTemplate, P t.subtodos
  | ⟨_, _, _, none⟩ => nil
  | ⟨_, _, _, some ts⟩ => forest_induction nil cons ts

end

theorem TodoTemplate.countAll_cons (t : TodoTemplate) (ts : List TodoTemplate) :
    countAll (t :: ts) = 1 + countAll t.subtodos + countAll ts := by
  rw [countAll, count_eq]

/-- A forest comes into being root by root, each one with all that is below it. -/
theorem createForest_cons {ι ε σ : Type} (store : Store ι ε σ) (group : ι) (ids : TagIds ι) (parent : Option ι)
    (t : TodoTemplate) (ts : List TodoTemplate) :
    createForest store group ids parent (t :: ts) =
      store.issue (.todo (t.request group ids parent)) >>= fun id =>
        createForest store group ids (some id) t.subtodos >>= fun below =>
          createForest store group ids parent ts >>= fun rest => pure (1 + below + rest) := by
  obtain ⟨title, description, tagNames, _ | below⟩ := t
  · rw [createForest, createTree]
    simp only [TodoTemplate.subtodos, Option.getD_none, createForest, bind_assoc, pure_bind, Nat.add_zero]
  · rw [createForest, createTree]
    simp only [TodoTemplate.subtodos, Option.getD_some, bind_assoc, pure_bind]

/-! ## Tags by name -/

/-- Among pairs of names and ids, the latest first, a name has the id of what comes last with it. -/
theorem lookup_reverse {ι τ : Type} (tags : List τ) (label : τ → String) (id : τ → ι) (name : String) :
    List.lookup name (tags.map fun t => (label t, id t)).reverse =
      (tags.reverse.find? (label · = name)).map id := by
  rw [← List.map_reverse]
  induction tags.reverse with
  | nil => rfl
  | cons t tags ih =>
    rw [List.map_cons, List.lookup_cons, List.find?_cons, ih]
    by_cases h : label t = name
    · simp [h]
    · rw [beq_false_of_ne (Ne.symm h), decide_eq_false h]

theorem TodoTemplate.tagIds_eq_ite {ι : Type} (t : TodoTemplate) (ids : TagIds ι) :
    t.tagIds ids =
      if t.tagNames.getD [] = [] then none else some ((t.tagNames.getD []).filterMap (List.lookup · ids)) := by
  unfold TodoTemplate.tagIds
  match t.tagNames with
  | none => rfl
  | some [] => rfl
  | some (name :: names) => rfl

/-! ## Presets are scripts -/

section
variable {ι ε φ α β : Type}

/-- A script of `n` calls that goes on as long as they are accepted, and fails with the first one that is not. -/
inductive Script.Stopping : Nat → Script ι ε (Rejected ε) α → Prop
  | give (v : α) : Stopping 0 (.give v)
  | ask {n : Nat} {call : Call ι} {next : Except ε ι → Script ι ε (Rejected ε) α}
      (stops : ∀ e, next (.error e) = .fail ⟨call.subject, call.label, e⟩)
      (goesOn : ∀ id, Stopping n (next (.ok id))) : Stopping (n + 1) (.ask call next)

theorem Script.Stopping.bind {m n : Nat} {b : Script ι ε (Rejected ε) α} {f : α → Script ι ε (Rejected ε) β}
    (hb : b.Stopping m) (hf : ∀ v, (f v).Stopping n) : (b.bind f).Stopping (m + n) := by
  induction hb with
  | give v =>
    rw [Nat.zero_add]
    exact hf v
  | ask stops goesOn ih =>
    rw [Nat.add_right_comm]
    refine .ask (fun e => ?_) ih
    rw [stops e]
    rfl

/-- A computation that is given by one script for all stores. -/
def IsScript (m : (σ : Type) → Store ι ε σ → Creating φ σ α) : Prop :=
  ∃ b : Script ι ε φ α, ∀ (σ : Type) (store : Store ι ε σ), m σ store = b.run store

/-- A computation that is given by one script of `n` calls, which stops at the first rejected one. -/
def IsStopping (n : Nat) (m : (σ : Type) → Store ι ε σ → Creating (Rejected ε) σ α) : Prop :=
  ∃ b : Script ι ε (Rejected ε) α, b.Stopping n ∧ ∀ (σ : Type) (store : Store ι ε σ), m σ store = b.run store

theorem IsStopping.isScript {n : Nat} {m : (σ : Type) → Store ι ε σ → Creating (Rejected ε) σ α}
    (h : IsStopping n m) : IsScript m := by
  obtain ⟨b, -, hb⟩ := h
  exact ⟨b, hb⟩

theorem IsStopping.pure (v : α) :
    IsStopping 0 fun σ (_ : Store ι ε σ) => (Pure.pure v : Creating (Rejected ε) σ α) :=
  ⟨.give v, .give v, fun _ _ => rfl⟩

theorem IsStopping.bind {k n : Nat} {m : (σ : Type) → Store ι ε σ → Creating (Rejected ε) σ α}
    {f : α → (σ : Type) → Store ι ε σ → Creating (Rejected ε) σ β} (hm : IsStopping k m)
    (hf : ∀ v, IsStopping n (f v)) : IsStopping (k + n) fun σ store => m σ store >>= fun v => f v σ store := by
  obtain ⟨b, hstops, hb⟩ := hm
  choose c hstops' hc using hf
  refine ⟨b.bind c, hstops.bind hstops', fun σ store => ?_⟩
  show (m σ store >>= fun v => f v σ store) = _
  rw [Script.run_bind, hb]
  congr 1
  funext v
  rw [hc]

theorem IsStopping.issue (call : Call ι) : IsStopping 1 fun σ (store : Store ι ε σ) => store.issue call := by
  refine ⟨.ask call fun
    | .ok id => .give id
    | .error e => .fail ⟨call.subject, call.label, e⟩, .ask (fun _ => rfl) .give, fun σ store => ?_⟩
  funext s
  show ((store call s).1.mapError _, (store call s).2) = _
  rw [Script.run_ask]
  cases (store call s).1 <;> rfl

theorem createTags_isStopping (group : ι) (ts : List TagTemplate) (ids : TagIds ι) :
    IsStopping ts.length fun σ (store : Store ι ε σ) => createTags store group ts ids := by
  induction ts generalizing ids with
  | nil => exact .pure ids
  | cons t ts ih =>
    simp only [createTags]
    rw [List.length_cons, Nat.add_comm]
    exact .bind (.issue _) fun id => ih _

theorem createForest_isStopping (group : ι) (ids : TagIds ι) (parent : Option ι) (ts : List TodoTemplate) :
    IsStopping (TodoTemplate.countAll ts) fun σ (store : Store ι ε σ) => createForest store group ids parent ts := by
  induction ts using TodoTemplate.forest_induction generalizing parent with
  | nil =>
    simp only [createForest]
    exact .pure 0
  | cons t ts below rest =>
    simp only [createForest_cons]
    rw [TodoTemplate.countAll_cons, Nat.add_assoc]
    exact .bind (.issue _) fun id => .bind (below (some id)) fun m => .bind (rest parent) fun n => .pure _

/-- Setting up a preset takes a call for each of its records, unless one is rejected. -/
theorem materialize_isStopping (p : Preset) (name : String) :
    IsStopping (1 + p.tags.length + TodoTemplate.countAll p.todos) fun σ (store : Store ι ε σ) =>
      p.materialize name store := by
  unfold Preset.materialize
  rw [Nat.add_assoc]
  exact .bind (.issue _) fun group => .bind (createTags_isStopping group _ _) fun ids =>
    .bind (createForest_isStopping group ids none _) fun n => .pure _

theorem createForest_isScript (group : ι) (ids : TagIds ι) (parent : Option ι) (ts : List TodoTemplate) :
    IsScript fun σ (store : Store ι ε σ) => createForest store group ids parent ts :=
  (createForest_isStopping group ids parent ts).isScript

theorem materialize_isScript (p : Preset) (name : String) :
    IsScript fun σ (store : Store ι ε σ) => p.materialize name store :=
  (materialize_isStopping p name).isScript

end

end PresetWorkspace
