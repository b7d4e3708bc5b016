import PresetWorkspace.Proofs.Except
import PresetWorkspace.Record
import PresetWorkspace.Workspace.Create
import PresetWorkspace.Workspace.Read

/-!
# Rows of records

Each kind of record has one row that stands for it. A create call that is
accepted adds the row of the record it asks for and nothing else, and a row of
a record reads back as that record. `create_outcome` lists all that a create
call can do; later proofs split on it and do not open the checks again.
-/

namespace PresetWorkspace

open Workspace

/-! ## Rows -/

def Group.row (g : Group) : GroupRow where
  id := .id g.id
  user := g.user
  name := g.name
  color := g.color
  description := g.description
  goalRatios := g.goalRatios.map fun m => (Json.ofRatios m).compact
  isTodoGroup := .integer (if g.isTodoGroup then 1 else 0)
  createdAt := .integer g.createdAt

def Tag.row (t : Tag) : TagRow where
  id := .id t.id
  user := t.user
  group := .id t.group
  name := t.name
  color := t.color
  description := t.description
  createdAt := .integer t.createdAt

def Todo.row (t : Todo) : TodoRow where
  id := .id t.id
  user := t.user
  group := .id t.group
  parent := .ofId? t.parent
  title := t.title
  description := t.description
  createdAt := .integer t.createdAt

def Todo.links (t : Todo) : List LinkRow := t.tags.map fun tag => ⟨.id t.id, .id tag⟩

/-! ## Records of requests -/

def GroupRequest.record (r : GroupRequest) (user : String) (draw : Draw) : Group where
  id := draw.id
  user := user
  name := r.name
  color := r.color
  description := r.description
  goalRatios := r.goalRatios
  isTodoGroup := r.isTodoGroup
  createdAt := draw.time

def TagRequest.record (r : TagRequest Uuid) (user : String) (draw : Draw) : Tag where
  id := draw.id
  user := user
  group := r.group
  name := r.name
  color := r.color
  description := r.description
  createdAt := draw.time

/-- The todo that a request asks for; a tag that is listed again does not count again. -/
def TodoRequest.record (r : TodoRequest Uuid) (user : String) (draw : Draw) : Todo where
  id := draw.id
  user := user
  group := r.group
  parent := r.parent
  title := r.title
  description := r.description
  tags := (r.tags.getD []).eraseDups
  createdAt := draw.time

namespace Workspace

/-! ## Checks -/

theorem ownsGroup_iff {w : Workspace} {user : String} {id : Uuid} :
    w.ownsGroup user id = true ↔ ∃ g ∈ w.groups, g.id = .id id ∧ g.user = user := by
  simp only [ownsGroup, List.any_eq_true, Bool.and_eq_true, decide_eq_true_eq]

theorem ownsTag_iff {w : Workspace} {user : String} {id : Uuid} :
    w.ownsTag user id = true ↔ ∃ t ∈ w.tags, t.id = .id id ∧ t.user = user := by
  simp only [ownsTag, List.any_eq_true, Bool.and_eq_true, decide_eq_true_eq]

theorem ownsTodo_iff {w : Workspace} {user : String} {group id : Uuid} :
    w.ownsTodo user group id = true ↔
      ∃ t ∈ w.todos, t.id = .id id ∧ t.user = user ∧ t.group = .id group := by
  simp only [ownsTodo, List.any_eq_true, Bool.and_eq_true, decide_eq_true_eq, and_assoc]

theorem requireTable_eq_ok {w : Workspace} {t : Table} : w.requireTable t = .ok () ↔ w.hasTable t = true := by
  unfold requireTable
  split <;> simp_all

theorem requireGroup_eq_ok {w : Workspace} {user : String} {id : Uuid} :
    w.requireGroup user id = .ok () ↔ w.hasTable .groups = true ∧ w.ownsGroup user id = true := by
  unfold requireGroup
  rw [check_eq_ok, requireTable_eq_ok, else_throw_eq_ok]
  simp only [pure, Except.pure, and_true]

theorem requireParent_eq_ok {w : Workspace} {user : String} {group : Uuid} {parent : Option Uuid} :
    w.requireParent user group parent = .ok () ↔
      ∀ id ∈ parent, w.hasTable .todos = true ∧ w.ownsTodo user group id = true := by
  cases parent with
  | none => simp [requireParent, pure, Except.pure]
  | some id =>
    unfold requireParent
    rw [check_eq_ok, requireTable_eq_ok, else_throw_eq_ok]
    simp only [pure, Except.pure, and_true, Option.mem_some_iff, forall_eq']

theorem requireTags_eq_ok {w : Workspace} {user : String} {ids : List Uuid} :
    w.requireTags user ids = .ok () ↔ ∀ id ∈ ids, w.hasTable .tags = true ∧ w.ownsTag user id = true := by
  induction ids with
  | nil => simp [requireTags, pure, Except.pure]
  | cons id ids ih =>
    unfold requireTags
    rw [check_eq_ok, requireTable_eq_ok, else_throw_eq_ok, ih, List.forall_mem_cons, and_assoc]

/-! ## Accepted calls -/

section
variable {w w' : Workspace} {user : String} {draw : Draw}

theorem any_id_eq_false {α : Type} {l : List α} {id : α → Key} {k : Key} :
    ¬ (l.any fun x => decide (id x = k)) = true ↔ ∀ x ∈ l, id x ≠ k := by
  simp only [List.any_eq_true, decide_eq_true_eq, not_exists, not_and, ne_eq]

theorem addGroup_eq_ok {r : GroupRequest} :
    w.addGroup user draw r = .ok w' ↔
      w.hasTable .groups = true ∧ (∀ g ∈ w.groups, g.id ≠ .id draw.id) ∧
        { w with groups := w.groups ++ [(r.record user draw).row] } = w' := by
  simp only [addGroup, check_eq_ok, guarded_eq_ok, requireTable_eq_ok, any_id_eq_false, pure, Except.pure,
    Except.ok.injEq]
  rfl

theorem addTag_eq_ok {r : TagRequest Uuid} :
    w.addTag user draw r = .ok w' ↔
      w.requireGroup user r.group = .ok () ∧ w.hasTable .tags = true ∧ (∀ t ∈ w.tags, t.id ≠ .id draw.id) ∧
        { w with tags := w.tags ++ [(r.record user draw).row] } = w' := by
  simp only [addTag, check_eq_ok, guarded_eq_ok, requireTable_eq_ok, any_id_eq_false, pure, Except.pure,
    Except.ok.injEq]
  rfl

theorem addTodo_eq_ok {r : TodoRequest Uuid} :
    w.addTodo user draw r = .ok w' ↔
      w.requireGroup user r.group = .ok () ∧ w.requireParent user r.group r.parent = .ok () ∧
        w.requireTags user (r.tags.getD []) = .ok () ∧ w.hasTable .todos = true ∧ isTitle r.title = true ∧
          (∀ t ∈ w.todos, t.id ≠ .id draw.id) ∧ { w with todos := w.todos ++ [(r.record user draw).row] } = w' := by
  simp only [addTodo, check_eq_ok, guarded_eq_ok, requireTable_eq_ok, any_id_eq_false, pure, Except.pure,
    Except.ok.injEq, Classical.not_not]
  rfl

/-! ## Links -/

def linked (links : List LinkRow) (todo : Uuid) (tags : List Uuid) : List LinkRow :=
  tags.foldl (fun ls tag => addLink ls ⟨.id todo, .id tag⟩) links

/-- Each tag that was not linked before gets one link, in the order of its first mention. -/
theorem linked_eq (links : List LinkRow) (todo : Uuid) (tags : List Uuid) :
    linked links todo tags =
      links ++ (tags.filter fun tag => ⟨.id todo, .id tag⟩ ∉ links).eraseDups.map fun tag => ⟨.id todo, .id tag⟩ := by
  induction tags generalizing links with
  | nil => simp [linked]
  | cons tag tags ih =>
    show linked (addLink links ⟨.id todo, .id tag⟩) todo tags = _
    rw [ih, addLink]
    by_cases hl : (⟨.id todo, .id tag⟩ : LinkRow) ∈ links
    · simp [hl]
    · rw [if_neg hl, List.filter_cons_of_pos (by simpa using hl), List.eraseDups_cons, List.filter_filter]
      simp only [List.map_cons, List.append_assoc, List.singleton_append]
      congr 4
      apply List.filter_congr
      intro x _
      by_cases hx : x = tag <;> simp [hx]

theorem linked_new {links : List LinkRow} {todo : Uuid} (h : ∀ l ∈ links, l.todo ≠ .id todo) (tags : List Uuid) :
    linked links todo tags = links ++ tags.eraseDups.map fun tag => ⟨.id todo, .id tag⟩ := by
  rw [linked_eq, List.filter_eq_self.mpr]
  intro tag _
  simpa using fun hl => h _ hl rfl

theorem nodup_eraseDups {α : Type} [BEq α] [LawfulBEq α] : ∀ l : List α, l.eraseDups.Nodup
  | [] => List.nodup_nil
  | a :: l => by
    rw [List.eraseDups_cons, List.nodup_cons]
    exact ⟨by simp [List.mem_eraseDups], nodup_eraseDups _⟩
  termination_by l => l.length
  decreasing_by exact Nat.lt_succ_of_le (List.length_filter_le _ _)

theorem attach_eq_ok {todo : Uuid} {tags : List Uuid} :
    w.attach todo tags = .ok w' ↔
      (tags ≠ [] → w.hasTable .links = true) ∧ { w with links := linked w.links todo tags } = w' := by
  cases tags with
  | nil => simp [attach, linked, pure, Except.pure]
  | cons tag tags =>
    simp only [attach, check_eq_ok, requireTable_eq_ok, pure, Except.pure, Except.ok.injEq, ne_eq, reduceCtorEq,
      not_false_eq_true, forall_const]
    rfl

/-- Only without a table of links can a new todo not be linked. -/
theorem attach_error {todo : Uuid} {tags : List Uuid} {e : Error} (h : w.attach todo tags = .error e) :
    w.hasTable .links = false := by
  refine Bool.eq_false_iff.mpr fun hl => ?_
  have : w.attach todo tags = .ok _ := attach_eq_ok.mpr ⟨fun _ => hl, rfl⟩
  rw [h] at this
  cases this

/-! ## Outcomes -/

/-- All that a create call can do: it is rejected, or adds the row of its record, and a todo's links with it. Only
where the table of links is gone does a todo stay without them. -/
inductive Outcome (w : Workspace) (user : String) (draw : Draw) : Call Uuid → Except Error Uuid × Workspace → Prop
  | rejected {call} (e : Error) : Outcome w user draw call (.error e, w)
  | group {r} (fresh : ∀ g ∈ w.groups, g.id ≠ .id draw.id) :
      Outcome w user draw (.group r) (.ok draw.id, { w with groups := w.groups ++ [(r.record user draw).row] })
  | tag {r} (owned : w.ownsGroup user r.group = true) (fresh : ∀ t ∈ w.tags, t.id ≠ .id draw.id) :
      Outcome w user draw (.tag r) (.ok draw.id, { w with tags := w.tags ++ [(r.record user draw).row] })
  | todo {r} (owned : w.ownsGroup user r.group = true)
      (parent : ∀ id ∈ r.parent, w.ownsTodo user r.group id = true)
      (tags : ∀ id ∈ r.tags.getD [], w.ownsTag user id = true) (title : isTitle r.title = true)
      (fresh : ∀ t ∈ w.todos, t.id ≠ .id draw.id) :
      Outcome w user draw (.todo r)
        (.ok draw.id,
          { w with
            todos := w.todos ++ [(r.record user draw).row]
            links := linked w.links draw.id (r.tags.getD []) })
  | unlinked {r} (e : Error) (gone : w.hasTable .links = false) (fresh : ∀ t ∈ w.todos, t.id ≠ .id draw.id) :
      Outcome w user draw (.todo r) (.error e, { w with todos := w.todos ++ [(r.record user draw).row] })

theorem create_outcome (call : Call Uuid) : Outcome w user draw call (create user draw call w) := by
  cases call with
  | group r =>
    show Outcome _ _ _ _ (create.finish draw w (w.addGroup user draw r))
    cases h : w.addGroup user draw r with
    | error e => exact .rejected e
    | ok w' =>
      obtain ⟨_, fresh, rfl⟩ := addGroup_eq_ok.mp h
      exact .group fresh
  | tag r =>
    show Outcome _ _ _ _ (create.finish draw w (w.addTag user draw r))
    cases h : w.addTag user draw r with
    | error e => exact .rejected e
    | ok w' =>
      obtain ⟨owned, _, fresh, rfl⟩ := addTag_eq_ok.mp h
      exact .tag (requireGroup_eq_ok.mp owned).2 fresh
  | todo r =>
    unfold create
    cases h : w.addTodo user draw r with
    | error e => simp only [h]; exact .rejected e
    | ok w' =>
      obtain ⟨owned, parent, tags, _, title, fresh, rfl⟩ := addTodo_eq_ok.mp h
      simp only [h]
      generalize hw' : ({ w with todos := w.todos ++ [(r.record user draw).row] } : Workspace) = w'
      cases ha : w'.attach draw.id (r.tags.getD []) with
      | error e =>
        have gone := attach_error ha
        subst hw'
        exact .unlinked e gone fresh
      | ok w'' =>
        obtain ⟨_, rfl⟩ := attach_eq_ok.mp ha
        subst hw'
        exact .todo (requireGroup_eq_ok.mp owned).2 (fun id hid => (requireParent_eq_ok.mp parent id hid).2)
          (fun id hid => (requireTags_eq_ok.mp tags id hid).2) title fresh

end

end Workspace

end PresetWorkspace
