import PresetWorkspace.Proofs.Growth

/-!
# Forests of todos

The todos of a group are a list; their parents make a forest of it. `forest`
puts the forest together again, and `Grown.forest_eq` says that the todos of a
preset give back the forest of its templates, with the tags that the names of
each todo stand for.
-/

namespace PresetWorkspace

inductive Outline where
  | node (title : String) (description : Option String) (tags : List Uuid) (below : List Outline)

def Todo.outline (todos : List Todo) : Nat → Todo → Outline
  | 0, t => .node t.title t.description t.tags []
  | depth + 1, t =>
    .node t.title t.description t.tags ((todos.filter (·.parent = some t.id)).map (outline todos depth))

/-- The outlines of the todos without a parent. No todo of a list stands deeper than the list is long. -/
def forest (todos : List Todo) : List Outline :=
  (todos.filter (·.parent = none)).map (Todo.outline todos todos.length)

def lastNamed? (tags : List Tag) (name : String) : Option Uuid := (tags.reverse.find? (·.name = name)).map (·.id)

/-- The tags that a todo with these names gets. Unknown names mean nothing, and a tag counts where it comes first. -/
def tagsNamed (tags : List Tag) (names : List String) : List Uuid := (names.filterMap (lastNamed? tags)).eraseDups

mutual

def TodoTemplate.outline (tags : List Tag) : TodoTemplate → Outline
  | ⟨title, description, names, none⟩ => .node title description (tagsNamed tags (names.getD [])) []
  | ⟨title, description, names, some ts⟩ =>
    .node title description (tagsNamed tags (names.getD [])) (TodoTemplate.outlines tags ts)

def TodoTemplate.outlines (tags : List Tag) : List TodoTemplate → List Outline
  | [] => []
  | t :: ts => t.outline tags :: outlines tags ts

end

theorem TodoTemplate.outline_eq (tags : List Tag) (t : TodoTemplate) :
    t.outline tags =
      .node t.title t.description (tagsNamed tags (t.tagNames.getD [])) (outlines tags t.subtodos) := by
  obtain ⟨title, description, names, _ | ts⟩ := t <;> rfl

/-! ## Tags by name -/

/-- A todo asks for its tags by their last names. -/
theorem tagIds_eq (tags : List Tag) (t : TodoTemplate) :
    ((t.tagIds (tags.map fun t => (t.name, t.id)).reverse).getD []).eraseDups =
      tagsNamed tags (t.tagNames.getD []) := by
  have hlookup : (List.lookup · (tags.map fun t => (t.name, t.id)).reverse) = lastNamed? tags :=
    funext (lookup_reverse tags Tag.name Tag.id)
  rw [TodoTemplate.tagIds_eq_ite, hlookup, tagsNamed]
  split
  · next hnone => rw [hnone]; rfl
  · rfl

/-! ## Parents -/

theorem filter_parent_cons {root : Todo} {todos : List Todo} {parent key : Option Uuid} (hne : parent ≠ key)
    (hroot : root.parent = parent) : (root :: todos).filter (·.parent = key) = todos.filter (·.parent = key) := by
  refine List.filter_cons_of_neg fun he => hne ?_
  rw [← hroot]
  exact of_decide_eq_true he

section
variable {user : String} {group : Uuid} {ids : TagIds Uuid} {parent : Option Uuid} {ts : List TodoTemplate}
variable {todos : List Todo}

/-- A todo of a forest stands below the forest's parent or below a todo of the forest. -/
theorem Grown.parent_eq (h : Grown user group ids parent ts todos) :
    ∀ t ∈ todos, t.parent = parent ∨ ∃ q ∈ todos, t.parent = some q.id := by
  induction h with
  | nil => exact fun _ ht => absurd ht List.not_mem_nil
  | @cons parent t ts below rest draw subtodos siblings ihBelow ihRest =>
    refine List.forall_mem_cons.mpr ⟨.inl rfl, List.forall_mem_append.mpr ⟨fun t' ht' => ?_, fun t' ht' => ?_⟩⟩
    · rcases ihBelow t' ht' with hpar | ⟨q, hq, hpar⟩
      · exact .inr ⟨_, List.mem_cons_self, hpar⟩
      · exact .inr ⟨q, List.mem_cons_of_mem _ (List.mem_append_left _ hq), hpar⟩
    · rcases ihRest t' ht' with hpar | ⟨q, hq, hpar⟩
      · exact .inl hpar
      · exact .inr ⟨q, List.mem_cons_of_mem _ (List.mem_append_right _ hq), hpar⟩

theorem Grown.filter_parent_eq_nil (h : Grown user group ids parent ts todos) {key : Option Uuid} (hne : key ≠ parent)
    (hnot : ∀ t ∈ todos, key ≠ some t.id) : todos.filter (·.parent = key) = [] := by
  rw [List.filter_eq_nil_iff]
  intro t ht hkey
  have hkey : t.parent = key := of_decide_eq_true hkey
  rcases h.parent_eq t ht with hpar | ⟨q, hq, hpar⟩
  · exact hne (hkey ▸ hpar)
  · exact hnot q hq (hkey ▸ hpar)

/-- The roots of a forest have the outlines of its templates. What stands below its todos may be looked up in a
longer list, as long as the others in there are not below any of them. -/
theorem Grown.outlines_eq {tags : List Tag} {all : List Todo}
    (h : Grown user group (tags.map fun t => (t.name, t.id)).reverse parent ts todos)
    (hnodup : (todos.map (·.id)).Nodup) (hparent : ∀ t ∈ todos, parent ≠ some t.id)
    (hall : ∀ t ∈ todos, all.filter (·.parent = some t.id) = todos.filter (·.parent = some t.id)) {depth : Nat}
    (hdepth : todos.length ≤ depth) :
    (todos.filter (·.parent = parent)).map (Todo.outline all depth) = TodoTemplate.outlines tags ts := by
  induction h generalizing depth with
  | nil => rfl
  | @cons parent t ts below rest draw subtodos siblings ihBelow ihRest =>
    obtain ⟨hroot, hnodup⟩ := List.nodup_cons.mp hnodup
    rw [List.map_append] at hroot hnodup
    obtain ⟨hbelow, hrest, hdisjoint⟩ := List.nodup_append.mp hnodup
    have hrootBelow : ∀ t ∈ below, some draw.id ≠ some t.id := fun t ht he =>
      hroot (List.mem_append_left _ (List.mem_map.mpr ⟨t, ht, (Option.some.inj he).symm⟩))
    have hrootRest : ∀ t ∈ rest, some draw.id ≠ some t.id := fun t ht he =>
      hroot (List.mem_append_right _ (List.mem_map.mpr ⟨t, ht, (Option.some.inj he).symm⟩))
    have hapart : ∀ t ∈ below, ∀ q ∈ rest, some t.id ≠ some q.id := fun t ht q hq he =>
      hdisjoint _ (List.mem_map_of_mem ht) _ (List.mem_map_of_mem hq) (Option.some.inj he)
    obtain ⟨hparentRoot, hparent⟩ := List.forall_mem_cons.mp hparent
    obtain ⟨hparentBelow, hparentRest⟩ := List.forall_mem_append.mp hparent
    obtain ⟨hallRoot, hall⟩ := List.forall_mem_cons.mp hall
    obtain ⟨hallBelow, hallRest⟩ := List.forall_mem_append.mp hall
    obtain ⟨depth, rfl⟩ : ∃ d, depth = d + 1 :=
      Nat.exists_eq_succ_of_ne_zero (by rw [List.length_cons] at hdepth; omega)
    rw [List.length_cons, List.length_append] at hdepth
    -- The root looks below itself. Nothing among its siblings stands there, nor the root.
    have hsubtodos : (all.filter (·.parent = some draw.id)).map (Todo.outline all depth) =
        TodoTemplate.outlines tags t.subtodos := by
      have hfilter : all.filter (·.parent = some draw.id) = below.filter (·.parent = some draw.id) := by
        refine hallRoot.trans ?_
        rw [filter_parent_cons hparentRoot (by rfl), List.filter_append]
        rw [siblings.filter_parent_eq_nil (Ne.symm hparentRoot) hrootRest, List.append_nil]
        rfl
      rw [hfilter]
      refine ihBelow hbelow hrootBelow (fun q hq => ?_) (by omega)
      rw [hallBelow q hq, filter_parent_cons (hparentBelow q hq) (by rfl), List.filter_append,
        siblings.filter_parent_eq_nil (Ne.symm (hparentBelow q hq)) (hapart q hq), List.append_nil]
    -- The siblings look below themselves, where nothing of the first tree stands.
    have hsiblings : (rest.filter (·.parent = parent)).map (Todo.outline all (depth + 1)) =
        TodoTemplate.outlines tags ts := by
      refine ihRest hrest hparentRest (fun q hq => ?_) (by omega)
      rw [hallRest q hq, filter_parent_cons (hparentRest q hq) (by rfl), List.filter_append,
        subtodos.filter_parent_eq_nil (Ne.symm (hrootRest q hq)) fun t ht => (hapart t ht q hq).symm, List.nil_append]
    rw [List.filter_cons_of_pos (by exact decide_eq_true rfl), List.filter_append,
      subtodos.filter_parent_eq_nil hparentRoot hparentBelow, List.nil_append, List.map_cons, hsiblings]
    rw [TodoTemplate.outlines, TodoTemplate.outline_eq, ← hsubtodos, ← tagIds_eq]
    rfl

theorem Grown.forest_eq {tags : List Tag}
    (h : Grown user group (tags.map fun t => (t.name, t.id)).reverse none ts todos)
    (hnodup : (todos.map (·.id)).Nodup) : forest todos = TodoTemplate.outlines tags ts :=
  h.outlines_eq hnodup (fun _ _ hn => by cases hn) (fun _ _ => rfl) (Nat.le_refl _)

end

end PresetWorkspace
