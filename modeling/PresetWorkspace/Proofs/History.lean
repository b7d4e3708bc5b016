import Mathlib.Logic.Relation
import PresetWorkspace.Proofs.Cascade
import PresetWorkspace.Proofs.Script
import PresetWorkspace.Workspace.Session

/-!
# Histories of a workspace

Users create records one by one, in transactions, or by setting up presets,
and rows are deleted. `after` is the workspace that a history leaves, and
`after_consistent` says what holds of it whatever the history was: the tables
keep their promises, and every chain of parents ends in a root.
-/

namespace PresetWorkspace.Workspace

/-! ## Calls of a user -/

namespace Session

variable (source : Nat → Draw) (user : String)

theorem scope_eq (call : Call Uuid) (s : Session) :
    (scope source user call s).1 = (create user (source s.drawn) call s.workspace).1 ∧
      (scope source user call s).2.workspace = (create user (source s.drawn) call s.workspace).2 ∧
      (scope source user call s).2.drawn = s.drawn + 1 := by
  unfold scope ExceptT.mk
  simp only
  cases create user (source s.drawn) call s.workspace with
  | mk r w => cases r <;> exact ⟨rfl, rfl, rfl⟩

theorem run_scope_keeps {P : Workspace → Prop} {φ α : Type}
    (h : ∀ draw call w, P w → P (create user draw call w).2) (b : Script Uuid Error φ α) {s : Session}
    (hs : P s.workspace) : P (b.run (scope source user) s).2.workspace := by
  refine Script.run_keeps (P := fun s : Session => P s.workspace) _ (fun call s hs => ?_) b hs
  rw [(scope_eq source user call s).2.1]
  exact h _ _ _ hs

theorem transaction_apply {φ α : Type} (body : Creating φ Session α) (s : Session) :
    transaction body s = match body s with
      | (.ok v, s') => (.ok v, s')
      | (.error e, s') => (.error e, s'.rollBack s) := rfl

theorem transaction_ok {φ α : Type} {body : Creating φ Session α} {s : Session} {v : α}
    (h : (body s).1 = .ok v) : transaction body s = body s := by
  rw [transaction_apply]
  cases hb : body s with
  | mk r s' =>
    rw [hb] at h
    cases h
    rfl

theorem transaction_error {φ α : Type} {body : Creating φ Session α} {s : Session} {e : φ}
    (h : (body s).1 = .error e) : transaction body s = (.error e, (body s).2.rollBack s) := by
  rw [transaction_apply]
  cases hb : body s with
  | mk r s' =>
    rw [hb] at h
    cases h
    rfl

theorem transaction_keeps {P : Workspace → Prop} {φ α : Type} {body : Creating φ Session α} {s : Session}
    (hs : P s.workspace) (h : P (body s).2.workspace) : P (transaction body s).2.workspace := by
  cases hb : (body s).1 with
  | ok v => rw [transaction_ok hb]; exact h
  | error e => rw [transaction_error hb]; exact hs

end Session

/-! ## Histories -/

section
variable (φ α : Type)

/-- What a user can do: make one create call, run a body of calls in a transaction, or set up a preset. -/
inductive Operation where
  | create (call : Call Uuid)
  | transact (body : Script Uuid Error φ α)
  | setUp (name : String) (p : Preset)

inductive Answer where
  | created (answer : Except Error Uuid)
  | transacted (answer : Except φ α)
  | setUp (answer : Except Failure (Initialized Uuid))

/-- An operation of a user, and what is drawn in it. -/
structure Step where
  user : String
  operation : Operation φ α
  source : Nat → Draw

inductive Event where
  | step (step : Step φ α)
  | remove (d : Deletion)
  | delete (t : Table) (id : Key)

end

variable {φ α : Type}

def Step.session (st : Step φ α) (w : Workspace) : Answer φ α × Session :=
  let s : Session := { workspace := w }
  match st.operation with
  | .create call =>
    let out := Session.scope st.source st.user call s
    (.created out.1, out.2)
  | .transact body =>
    let out := Session.transaction (body.run (Session.scope st.source st.user)) s
    (.transacted out.1, out.2)
  | .setUp name p =>
    let out := Session.setUp st.source st.user name p s
    (.setUp out.1, out.2)

def Step.answer (st : Step φ α) (w : Workspace) : Answer φ α := (st.session w).1

def Step.result (st : Step φ α) (w : Workspace) : Workspace := (st.session w).2.workspace

/-- The workspace after an event. Rows that cannot be deleted stay. -/
def Event.result : Event φ α → Workspace → Workspace
  | .step st, w => st.result w
  | .remove d, w => w.remove d
  | .delete t id, w =>
    match w.delete t id with
    | .ok (_, w') => w'
    | .error _ => w

def after (events : List (Event φ α)) : Workspace := events.foldl (fun w e => e.result w) .empty

/-- What every create call keeps of a workspace, every operation keeps. -/
theorem Step.result_keeps {P : Workspace → Prop} (st : Step φ α)
    (h : ∀ draw call w, P w → P (create st.user draw call w).2) {w : Workspace} (hw : P w) : P (st.result w) := by
  unfold result session
  cases st.operation with
  | create call =>
    show P (Session.scope st.source st.user call _).2.workspace
    rw [(Session.scope_eq st.source st.user call _).2.1]
    exact h _ _ _ hw
  | transact body => exact Session.transaction_keeps hw (Session.run_scope_keeps _ _ h body hw)
  | setUp name p =>
    obtain ⟨b, hb⟩ := materialize_isScript (ι := Uuid) (ε := Error) p name
    have hrun : p.materialize name (Session.scope st.source st.user) = b.run _ := hb _ _
    refine Session.transaction_keeps hw ?_
    rw [hrun]
    exact Session.run_scope_keeps _ _ h b hw

theorem Event.result_consistent (e : Event φ α) {w : Workspace} (h : w.Consistent) : (e.result w).Consistent := by
  cases e with
  | step st => exact st.result_keeps (fun draw call w hw => hw.create st.user draw call) h
  | remove d => exact h.remove d
  | delete t id =>
    simp only [result]
    split
    · rename_i n w' hd
      rcases delete_eq_remove hd with rfl | ⟨d, rfl⟩
      · exact h
      · exact h.remove d
    · exact h

theorem after_keeps {P : Workspace → Prop} (h : ∀ (e : Event φ α) w, P w → P (e.result w)) (h0 : P .empty)
    (events : List (Event φ α)) : P (after events) := by
  unfold after
  generalize Workspace.empty = w at h0
  induction events generalizing w with
  | nil => exact h0
  | cons e events ih => exact ih _ (h e w h0)

theorem consistent_of_history (events : List (Event φ α)) : (after events).Consistent :=
  after_keeps (fun e _ h => e.result_consistent h) .empty events

/-! ## Ancestors -/

def IsParent (w : Workspace) (q t : TodoRow) : Prop := q ∈ w.todos ∧ t ∈ w.todos ∧ t.parent = q.id

section
variable {w : Workspace} (h : w.Consistent)
include h

theorem idxOf_parent_lt {q t : TodoRow} (hp : w.IsParent q t) : w.todos.idxOf q < w.todos.idxOf t := by
  obtain ⟨hq, ht, hpar⟩ := hp
  obtain ⟨before, after, hrows, hnot⟩ := List.eq_append_cons_of_mem ht
  have hne : t.parent ≠ .none := by
    rw [hpar]
    exact keys_ne_none h q hq
  obtain ⟨q', hq', hid, _⟩ := h.todoParent before t after hrows hne
  have hq'w : q' ∈ w.todos := hrows ▸ List.mem_append_left _ hq'
  have : q' = q := h.mem_todos_inj hq'w hq (hid.trans hpar)
  subst this
  rw [hrows, List.idxOf_append_of_mem hq', List.idxOf_append_of_notMem hnot]
  exact Nat.lt_of_lt_of_le (List.idxOf_lt_length_of_mem hq') (Nat.le_add_right _ _)

theorem idxOf_ancestor_lt {q t : TodoRow} (hp : Relation.TransGen w.IsParent q t) :
    w.todos.idxOf q < w.todos.idxOf t := by
  induction hp with
  | single hp => exact idxOf_parent_lt h hp
  | tail _ hp ih => exact Nat.lt_trans ih (idxOf_parent_lt h hp)

theorem exists_root {t : TodoRow} (ht : t ∈ w.todos) :
    ∃ root ∈ w.todos, root.parent = .none ∧ Relation.ReflTransGen w.IsParent root t := by
  generalize hn : w.todos.idxOf t = n
  induction n using Nat.strongRecOn generalizing t with
  | ind n ih =>
    by_cases hpar : t.parent = .none
    · exact ⟨t, ht, hpar, .refl⟩
    · obtain ⟨before, after, hrows, _⟩ := List.eq_append_cons_of_mem ht
      obtain ⟨q, hq, hid, _⟩ := h.todoParent before t after hrows hpar
      have hqt : w.IsParent q t := ⟨hrows ▸ List.mem_append_left _ hq, ht, hid.symm⟩
      obtain ⟨root, hroot, hnone, hchain⟩ := ih _ (hn ▸ idxOf_parent_lt h hqt) hqt.1 rfl
      exact ⟨root, hroot, hnone, hchain.tail hqt⟩

end

/-- Whatever users did and whatever was deleted, the tables are in order, no todo is above itself, and every todo
stands below a root. -/
theorem after_consistent (events : List (Event φ α)) :
    (after events).Consistent ∧ (∀ t, ¬ Relation.TransGen (after events).IsParent t t) ∧
      ∀ t ∈ (after events).todos, ∃ root ∈ (after events).todos,
        root.parent = .none ∧ Relation.ReflTransGen (after events).IsParent root t := by
  have h : (after events).Consistent := consistent_of_history events
  refine ⟨h, fun t hp => ?_, fun t ht => exists_root h ht⟩
  exact Nat.lt_irrefl _ (idxOf_ancestor_lt h hp)

end PresetWorkspace.Workspace
