import PresetWorkspace.Proofs.ReadBack
import PresetWorkspace.Proofs.Survival

/-!
# Reading a history

Whatever has happened to a workspace, what is read from it is what its trace
leaves: the groups of a user, and the tags and the todos of a group, each with
all that was asked for it, in the order of their creation
(`reads_of_history`). The tags of a todo come from a table of their own, and
are those that were asked for and are still attached.
-/

namespace PresetWorkspace

open Workspace

/-- Whether the texts of a group's ratios read as these ratios. -/
def Group.KeepsRatios (g : Group) : Prop := ∀ m ∈ g.goalRatios, ∀ e ∈ m.entries, e.2.reread = .ok e.2

theorem Group.read_row_same {g : Group} (h : g.KeepsRatios) : g.row.read = .ok g := by
  have hread : readRatios 5 (g.goalRatios.map fun m => (Json.ofRatios m).compact) = .ok g.goalRatios := by
    cases hm : g.goalRatios with
    | none => rfl
    | some m => exact readRatios_same (h m hm) 5
  rw [Group.read_row, hread]
  rfl

namespace Workspace

/-! ## Rows of given records -/

section
variable {groups : List Group} {tags : List Tag} {todos : List Todo}
variable (h : (Workspace.empty.add groups tags todos).Consistent)
include h

theorem groupsOf_add {user : String} (hratios : ∀ g ∈ groups, g.user = user → g.KeepsRatios) :
    (Workspace.empty.add groups tags todos).groupsOf user = .ok (groups.filter (·.user = user)) := by
  have hfilter : (Workspace.empty.add groups tags todos).groups.filter (·.user = user) =
      (groups.filter (·.user = user)).map Group.row := filter_rows (fun _ => rfl) groups
  unfold groupsOf
  rw [requireTable_eq_ok.mpr (h.hasTable .groups), hfilter]
  show ((groups.filter (·.user = user)).map Group.row).mapM GroupRow.read = _
  rw [mapM_map_ok_of_mem (g := id), List.map_id]
  intro g hg
  obtain ⟨hg, huser⟩ := List.mem_filter.mp hg
  exact Group.read_row_same (hratios g hg (of_decide_eq_true huser))

theorem tagsOf_add (id : Uuid) :
    (Workspace.empty.add groups tags todos).tagsOf id = .ok (tags.filter (·.group = id)) :=
  tagsOf_of_rows h (filter_rows (fun t => by simp [Tag.row]) tags)

/-- A link is found with the group of its todo. -/
theorem linksOf_add (id : Uuid) :
    (Workspace.empty.add groups tags todos).linksOf id = (todos.filter (·.group = id)).flatMap Todo.links := by
  have hrows : (Workspace.empty.add groups tags todos).todos = todos.map Todo.row := rfl
  have hlinks : (Workspace.empty.add groups tags todos).links = todos.flatMap Todo.links := rfl
  unfold linksOf
  rw [hrows, hlinks, List.filter_flatMap]
  refine flatMap_filter_of (fun t ht hgroup => ?_) fun t ht hgroup => ?_
  · rw [List.filter_eq_self]
    intro l hl
    obtain ⟨tag, _, rfl⟩ := List.mem_map.mp hl
    rw [List.any_map, List.any_eq_true]
    exact ⟨t, ht, by simpa [Todo.row] using hgroup⟩
  · rw [List.filter_eq_nil_iff]
    intro l hl hany
    obtain ⟨tag, _, rfl⟩ := List.mem_map.mp hl
    rw [List.any_map, List.any_eq_true] at hany
    obtain ⟨t', ht', hfound⟩ := hany
    simp only [Function.comp_apply, Todo.row, Bool.and_eq_true, decide_eq_true_eq, Key.id.injEq] at hfound
    cases List.inj_on_of_nodup_map (nodup_of_rows h.todoIds) ht' ht hfound.1
    exact of_decide_eq_false hgroup hfound.2

theorem todosOf_add (id : Uuid) :
    (Workspace.empty.add groups tags todos).todosOf id = .ok (todos.filter (·.group = id)) := by
  have hnodup : ((todos.filter (·.group = id)).map (·.id)).Nodup :=
    (List.filter_sublist.map _).nodup (nodup_of_rows h.todoIds)
  exact todosOf_of_rows h (filter_rows (fun t => by simp [Todo.row]) todos) (linksOf_add h id) hnodup

end

/-! ## Histories -/

/-- After any history, a user's groups and a group's tags and todos read back as those that were made and not deleted,
in the order of their creation, with all that was asked for them. A todo has the tags that were asked for, each one
once and in the order of its first mention, but those that are gone or were taken off. -/
theorem reads_of_history {φ α : Type} (events : List (Event φ α)) (hfresh : FreshIds (trace events)) :
    let left := leftIn (trace events)
    (∀ user, (∀ g ∈ groupsIn left, g.user = user → g.KeepsRatios) →
      (after events).groupsOf user = .ok ((groupsIn left).filter (·.user = user))) ∧
    (∀ id, (after events).tagsOf id = .ok ((tagsIn left).filter (·.group = id))) ∧
    ∀ id, (after events).todosOf id = .ok (((todosIn left).filter (·.group = id)).map (trimmed (trace events))) := by
  have h := reflects_of_history events hfresh
  have hcons := h.consistent
  rw [h.rows] at hcons ⊢
  refine ⟨fun user hratios => groupsOf_add hcons hratios, tagsOf_add hcons, fun id => ?_⟩
  rw [todosOf_add hcons, todosLeft]
  exact congrArg _ (filter_rows (fun _ => rfl) _)

def drawsFrom (first : Nat) (n : Nat) : Draw := ⟨⟨BitVec.ofNat 128 (first + n)⟩, first + n⟩

/-- One user's tags and todos, made in spite of a rejected call; a transaction that fails; another user's preset; and
deletions of a tag and of a todo with a todo below it. -/
def busyDay : List (Event Unit Unit) :=
  let todo (title : String) (tags : List Uuid) (parent : Option Uuid) : Call Uuid :=
    .todo { title, description := none, group := ⟨1⟩, tags := some tags, parent }
  [ .step ⟨"alice", .create (.group ⟨"home", "red", none, none, true⟩), drawsFrom 1⟩,
    .step ⟨"alice", .transact
      (.ask (.tag ⟨"urgent", "red", none, ⟨1⟩⟩) fun _ => .ask (.tag ⟨"fun", "blue", none, ⟨1⟩⟩) fun _ =>
        .ask (todo "" [] none) fun _ => .ask (todo "paint" [⟨12⟩, ⟨11⟩, ⟨12⟩] none) fun _ =>
        .ask (todo "brush" [⟨11⟩] (some ⟨14⟩)) fun _ => .ask (todo "shop" [] (some ⟨15⟩)) fun _ => .give ()),
      drawsFrom 11⟩,
    .step ⟨"alice", .transact (.ask (todo "sleep" [] none) fun _ => .fail ()), drawsFrom 21⟩,
    .step ⟨"bob", .setUp "p" { name := "p", group := { name := "g", color := "c" }, todos := [{ title := "t" }] },
      drawsFrom 31⟩,
    .remove (.tags (·.name = "urgent")),
    .delete .todos (.id ⟨15⟩),
    .step ⟨"alice", .create (todo "eat" [⟨12⟩] none), drawsFrom 41⟩ ]

/-- The first todo has lost a tag, and the two below it are gone. -/
theorem reads_of_busyDay :
    let paint : Todo := ⟨⟨14⟩, "alice", ⟨1⟩, none, "paint", none, [⟨12⟩], 14⟩
    let eat : Todo := ⟨⟨41⟩, "alice", ⟨1⟩, none, "eat", none, [⟨12⟩], 41⟩
    FreshIds (trace busyDay) ∧ ((after busyDay).todosOf ⟨1⟩).toOption = some [paint, eat] ∧
      ((todosIn (leftIn (trace busyDay))).filter (·.group = ⟨1⟩)).map (trimmed (trace busyDay)) = [paint, eat] := by
  intro paint eat
  have hfresh : FreshIds (trace busyDay) := by
    unfold FreshIds
    decide +kernel
  have hread : ((after busyDay).todosOf ⟨1⟩).toOption = some [paint, eat] := by decide +kernel
  refine ⟨hfresh, hread, ?_⟩
  rw [(reads_of_history busyDay hfresh).2.2 ⟨1⟩] at hread
  exact Option.some.inj hread

end Workspace

end PresetWorkspace
