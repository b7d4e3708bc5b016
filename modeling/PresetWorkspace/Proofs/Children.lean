import PresetWorkspace.Proofs.Reads

/-!
# Children

The todos of a group and the todos below a todo are read in two ways. After any
history all tables have the rows of some records (`recorded_of_history`), so both
succeed; and since a parent stands in the group of its child, they find the same
todos in the same order. But only the first looks at the links, so they differ
in the tags of those that have some (`children_of_history`).
-/

namespace PresetWorkspace

open Workspace

def Todo.untagged (t : Todo) : Todo := { t with tags := [] }

namespace Workspace

/-! ## Rows of records -/

/-- All rows are rows of records, and the links stand in the order of their todos. -/
def Recorded (w : Workspace) : Prop := ∃ groups tags todos, w = empty.add groups tags todos

theorem Recorded.addAll {w : Workspace} (h : w.Recorded) (records : List Record) : (w.addAll records).Recorded := by
  obtain ⟨groups, tags, todos, rfl⟩ := h
  exact ⟨_, _, _, add_add _ _ _ _ _ _ _⟩

theorem Recorded.remove {w : Workspace} (h : w.Recorded) (hw : w.Consistent) (d : Deletion) :
    (w.remove d).Recorded := by
  obtain ⟨groups, tags, todos, rows⟩ := h
  exact ⟨_, _, _, remove_rows hw rows d⟩

section
variable {φ α : Type}

theorem Event.result_recorded (e : Event φ α) {w : Workspace} (h : w.Recorded) (hw : w.Consistent) :
    (e.result w).Recorded := by
  cases e with
  | step st =>
    show (st.result w).Recorded
    rw [st.result_eq hw]
    exact h.addAll _
  | remove d => exact h.remove hw d
  | delete t id =>
    rw [delete_result hw]
    cases Deletion.ofId? t id with
    | none => exact h
    | some d => exact h.remove hw d

theorem recorded_of_history (events : List (Event φ α)) : (after events).Recorded :=
  (after_keeps (P := fun w => w.Consistent ∧ w.Recorded)
    (fun e _ h => ⟨e.result_consistent h.1, e.result_recorded h.2 h.1⟩) ⟨.empty, [], [], [], (add_nil _).symm⟩ events).2

end

/-! ## Two readers -/

section
variable {groups : List Group} {tags : List Tag} {todos : List Todo}
variable (h : (empty.add groups tags todos).Consistent)
include h

theorem childrenOf_add (id : Uuid) :
    (empty.add groups tags todos).childrenOf id = .ok ((todos.filter (·.parent = some id)).map Todo.untagged) := by
  have hparent (t : Todo) : decide (t.row.parent = .id id) = decide (t.parent = some id) := by
    cases hp : t.parent <;> simp [Todo.row, hp, Key.ofId?]
  have hrows : (empty.add groups tags todos).todos.filter (·.parent = .id id) =
      (todos.filter (·.parent = some id)).map Todo.row := filter_rows hparent todos
  unfold childrenOf
  rw [requireTable_eq_ok.mpr (h.hasTable .todos), hrows]
  exact mapM_map_ok Todo.read_row _

theorem filter_parent {t : Todo} (ht : t ∈ todos) :
    todos.filter (·.parent = some t.id) = (todos.filter (·.group = t.group)).filter (·.parent = some t.id) := by
  rw [List.filter_filter]
  refine List.filter_congr fun c hc => ?_
  by_cases hparent : c.parent = some t.id
  · have hkey : c.row.parent = .id t.id := congrArg Key.ofId? hparent
    have hrow : c.row ∈ (empty.add groups tags todos).todos := List.mem_map_of_mem hc
    -- The row that the child names as its parent is the row of this todo.
    obtain ⟨q, hq, hid, -, hgroup⟩ := h.parent_mem hrow (ne_none_of_id ⟨t.id, hkey⟩)
    obtain rfl : q = t.row := h.mem_todos_inj hq (List.mem_map_of_mem ht) (hid.trans hkey)
    have hsame : c.group = t.group := (Key.id.inj hgroup).symm
    simp [hsame]
  · simp [hparent]

end

theorem map_untagged_eq_self {todos : List Todo} : todos.map Todo.untagged = todos ↔ ∀ t ∈ todos, t.tags = [] := by
  have hself (t : Todo) : t.untagged = id t ↔ t.tags = [] := by
    constructor
    · intro h
      exact (congrArg Todo.tags h).symm
    · intro h
      show { t with tags := [] } = t
      rw [← h]
  conv_lhs => rhs; rw [← List.map_id todos]
  rw [List.map_inj_left]
  exact forall₂_congr fun t _ => hself t

/-- After any history, the todos of each group can be read, one for each row, and for each of them those below it are
the todos of the group that name it as their parent, in the same order and the same in all but their tags, of which they
have none. So the two readings are one where, and only where, no todo below it has tags. -/
theorem children_of_history {φ α : Type} (events : List (Event φ α)) (group : Uuid) :
    let w := after events
    ∃ todos, w.todosOf group = .ok todos ∧ todos.map Todo.row = w.todos.filter (·.group = .id group) ∧
      ∀ t ∈ todos,
        let below := todos.filter (·.parent = some t.id)
        w.childrenOf t.id = .ok (below.map Todo.untagged) ∧
          (w.childrenOf t.id = .ok below ↔ ∀ c ∈ below, c.tags = []) := by
  intro w
  have h : w.Consistent := consistent_of_history events
  obtain ⟨groups, tags, todos, hw⟩ : w.Recorded := recorded_of_history events
  rw [hw] at h ⊢
  refine ⟨_, todosOf_add h group, ?_, ?_⟩
  · exact (filter_rows (fun t => by simp [Todo.row]) todos).symm
  · intro t ht below
    obtain ⟨ht, hgroup⟩ := List.mem_filter.mp ht
    have hbelow : todos.filter (·.parent = some t.id) = below := by
      rw [filter_parent h ht, of_decide_eq_true hgroup]
    rw [childrenOf_add h, hbelow]
    exact ⟨rfl, by rw [Except.ok.injEq, map_untagged_eq_self]⟩

def dinnerParty : List (Event Unit Unit) :=
  let create (id : Nat) (call : Call Uuid) : Event Unit Unit := .step ⟨"alice", .create call, fun _ => ⟨⟨id⟩, 0⟩⟩
  let todo (title : String) (tags : List Uuid) (parent : Option Uuid) : Call Uuid :=
    .todo { title, description := none, group := ⟨1⟩, tags := some tags, parent }
  [create 1 (.group ⟨"home", "red", none, none, true⟩), create 11 (.tag ⟨"urgent", "red", none, ⟨1⟩⟩),
    create 21 (todo "dinner" [] none), create 22 (todo "shop" [⟨11⟩] (some ⟨21⟩)),
    create 23 (todo "cook" [] (some ⟨21⟩)), create 24 (todo "pay" [] (some ⟨22⟩))]

theorem children_of_dinnerParty :
    let w := after dinnerParty
    let dinner : Todo := ⟨⟨21⟩, "alice", ⟨1⟩, none, "dinner", none, [], 0⟩
    let shop : Todo := ⟨⟨22⟩, "alice", ⟨1⟩, some dinner.id, "shop", none, [⟨11⟩], 0⟩
    let cook : Todo := ⟨⟨23⟩, "alice", ⟨1⟩, some dinner.id, "cook", none, [], 0⟩
    let pay : Todo := ⟨⟨24⟩, "alice", ⟨1⟩, some shop.id, "pay", none, [], 0⟩
    w.todosOf ⟨1⟩ = .ok [dinner, shop, cook, pay] ∧ w.childrenOf dinner.id = .ok [shop.untagged, cook] ∧
      w.childrenOf shop.id = .ok [pay] := by
  intro w dinner shop cook pay
  obtain ⟨todos, hread, -, hbelow⟩ := children_of_history dinnerParty ⟨1⟩
  have htodos : (w.todosOf ⟨1⟩).toOption = some [dinner, shop, cook, pay] := by decide +kernel
  rw [hread] at htodos
  obtain rfl : todos = [dinner, shop, cook, pay] := Option.some.inj htodos
  have hshop : ∀ c ∈ [pay], c.tags = [] := by simp [pay]
  exact ⟨hread, (hbelow dinner (by simp)).1, (hbelow shop (by simp)).2.mpr hshop⟩

/-- The tag of the first one is read with the group and not with the todo above. -/
theorem children_without_tags :
    let w := after dinnerParty
    ∃ todos ∈ (w.todosOf ⟨1⟩).toOption, ∃ below ∈ (w.childrenOf ⟨21⟩).toOption,
      (∃ t ∈ todos, t.id = ⟨21⟩) ∧ below ≠ todos.filter (·.parent = some ⟨21⟩) := by
  decide +kernel

end Workspace

end PresetWorkspace
