import PresetWorkspace.Proofs.Consistency

/-!
# The checks of a todo

A request for a todo is checked from its group to its title, and a rejection
tells of the first check that failed. Where all tables are there and the new id
is new, nothing goes wrong after the checks: the row of the todo and all of its
links are added, or nothing is (`create_todo_eq`).
-/

namespace PresetWorkspace

open Workspace

/-- The checks of a request for a todo in order, each with the rejection that it calls for. -/
def TodoRequest.checks (r : TodoRequest Uuid) (w : Workspace) (user : String) : List (Bool × Error) :=
  [(w.ownsGroup user r.group, .groupNotFound r.group)] ++
    ((r.parent.toList.map fun id => (w.ownsTodo user r.group id, .parentNotFound id)) ++
      (((r.tags.getD []).map fun id => (w.ownsTag user id, .tagNotFound id)) ++
        [(decide (0 < titleLength r.title), .emptyTitle)]))

def TodoRequest.fault? (r : TodoRequest Uuid) (w : Workspace) (user : String) : Option Error :=
  ((r.checks w user).find? fun c => !c.1).map (·.2)

theorem TodoRequest.forall_checks {r : TodoRequest Uuid} {w : Workspace} {user : String} :
    (∀ c ∈ r.checks w user, c.1 = true) ↔
      w.ownsGroup user r.group = true ∧ (∀ id ∈ r.parent, w.ownsTodo user r.group id = true) ∧
        (∀ id ∈ r.tags.getD [], w.ownsTag user id = true) ∧ 0 < titleLength r.title := by
  simp [checks, or_imp, forall_and]

theorem TodoRequest.fault?_eq_none {r : TodoRequest Uuid} {w : Workspace} {user : String} :
    r.fault? w user = none ↔ ∀ c ∈ r.checks w user, c.1 = true := by
  simp [fault?]

theorem TodoRequest.fault?_of_title {r : TodoRequest Uuid} {w : Workspace} {user : String}
    (owned : w.ownsGroup user r.group = true) (parent : ∀ id ∈ r.parent, w.ownsTodo user r.group id = true)
    (tags : ∀ id ∈ r.tags.getD [], w.ownsTag user id = true) (title : titleLength r.title = 0) :
    r.fault? w user = some .emptyTitle := by
  have hparent : (r.parent.toList.map fun id => (w.ownsTodo user r.group id, Error.parentNotFound id)).find?
      (fun c => !c.1) = none := by simpa using parent
  have htags : ((r.tags.getD []).map fun id => (w.ownsTag user id, Error.tagNotFound id)).find?
      (fun c => !c.1) = none := by simpa using tags
  unfold fault? checks
  rw [List.find?_append, List.find?_append, List.find?_append, hparent, htags]
  simp [owned, title]

namespace Workspace

def require : List (Bool × Error) → Except Error Unit
  | [] => pure ()
  | (holds, e) :: checks => if holds then require checks else throw e

theorem require_append (checks checks' : List (Bool × Error)) :
    require (checks ++ checks') = require checks >>= fun _ => require checks' := by
  induction checks with
  | nil => rfl
  | cons c checks ih =>
    obtain ⟨holds, e⟩ := c
    cases holds with
    | true => exact ih
    | false => rfl

theorem require_eq (checks : List (Bool × Error)) :
    require checks = match (checks.find? fun c => !c.1).map (·.2) with
      | none => .ok ()
      | some e => .error e := by
  induction checks with
  | nil => rfl
  | cons c checks ih =>
    obtain ⟨holds, e⟩ := c
    cases holds with
    | true => exact ih
    | false => rfl

section
variable {w : Workspace} {user : String} {draw : Draw} (htables : w.dropped = [])
include htables

theorem hasTable_of_dropped (t : Table) : w.hasTable t = true := by simp [hasTable, htables]

theorem requireTable_of_dropped (t : Table) : w.requireTable t = .ok () :=
  requireTable_eq_ok.mpr (hasTable_of_dropped htables t)

theorem requireGroup_eq (id : Uuid) :
    w.requireGroup user id = require [(w.ownsGroup user id, .groupNotFound id)] := by
  unfold requireGroup
  rw [requireTable_of_dropped htables]
  rfl

theorem requireParent_eq (group : Uuid) (parent : Option Uuid) :
    w.requireParent user group parent =
      require (parent.toList.map fun id => (w.ownsTodo user group id, .parentNotFound id)) := by
  cases parent with
  | none => rfl
  | some id =>
    unfold requireParent
    rw [requireTable_of_dropped htables]
    rfl

theorem requireTags_eq (ids : List Uuid) :
    w.requireTags user ids = require (ids.map fun id => (w.ownsTag user id, .tagNotFound id)) := by
  induction ids with
  | nil => rfl
  | cons id ids ih =>
    unfold requireTags
    rw [requireTable_of_dropped htables, ih]
    rfl

theorem addTodo_eq {r : TodoRequest Uuid} (fresh : ∀ t ∈ w.todos, t.id ≠ .id draw.id) :
    w.addTodo user draw r =
      require (r.checks w user) >>= fun _ => pure { w with todos := w.todos ++ [(r.record user draw).row] } := by
  have htitle : isTitle r.title = decide (0 < titleLength r.title) := by
    rw [Bool.eq_iff_iff, isTitle_iff, decide_eq_true_eq]
  have hfresh : (w.todos.any fun t => decide (t.id = .id draw.id)) = false := by
    rw [← Bool.not_eq_true, any_id_eq_false]
    exact fresh
  unfold addTodo TodoRequest.checks
  rw [requireGroup_eq htables, requireParent_eq htables, requireTags_eq htables, requireTable_of_dropped htables,
    htitle, hfresh, require_append, require_append, require_append, bind_assoc, bind_assoc, bind_assoc]
  refine bind_congr fun _ => bind_congr fun _ => bind_congr fun _ => ?_
  cases decide (0 < titleLength r.title) <;> rfl

/-- A request for a todo is rejected for the first check that it fails, and otherwise adds the row of the todo with
all of its links. -/
theorem create_todo_eq {r : TodoRequest Uuid} (fresh : ∀ t ∈ w.todos, t.id ≠ .id draw.id) :
    create user draw (.todo r) w = match r.fault? w user with
      | some e => (.error e, w)
      | none =>
        (.ok draw.id,
          { w with
            todos := w.todos ++ [(r.record user draw).row]
            links := linked w.links draw.id (r.tags.getD []) }) := by
  have hadd : w.addTodo user draw r = _ := addTodo_eq htables fresh
  rw [require_eq] at hadd
  unfold create TodoRequest.fault?
  dsimp only
  rw [hadd]
  cases (r.checks w user).find? fun c => !c.1 with
  | some c => rfl
  | none =>
    have hattach :
        ({ w with todos := w.todos ++ [(r.record user draw).row] } : Workspace).attach draw.id (r.tags.getD []) =
          .ok _ := attach_eq_ok.mpr ⟨fun _ => hasTable_of_dropped htables _, rfl⟩
    show create.finish draw _ (Workspace.attach _ _ _) = _
    rw [hattach]
    rfl

end

end Workspace

end PresetWorkspace
