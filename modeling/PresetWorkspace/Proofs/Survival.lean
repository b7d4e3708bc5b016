import PresetWorkspace.Proofs.Trace

/-!
# What a trace leaves

A record goes in a deletion if it is of the kind that is deleted, or if the
group or the parent that it names goes (`Goes`). What a trace leaves are the
records that went in no deletion after they were made. The tables hold the
rows of these and nothing else (`reflects_of_history`): each operation and each
deletion does to the rows what it does to the trace.
-/

namespace PresetWorkspace.Workspace

/-! ## Deleted records -/

def Deletion.hits : Deletion → Record → Bool
  | .groups p, .group g => p g.row
  | .tags p, .tag t => p t.row
  | .todos p, .todo t => p t.row
  | _, _ => false

inductive Record.Names : Record → Record → Prop
  | tagGroup {t : Tag} {g : Group} (h : t.group = g.id) : Names (.tag t) (.group g)
  | todoGroup {t : Todo} {g : Group} (h : t.group = g.id) : Names (.todo t) (.group g)
  | todoParent {t q : Todo} (h : t.parent = some q.id) : Names (.todo t) (.todo q)

/-- The records that go in a deletion: those of its kind, and those that name one that goes. -/
inductive Goes (d : Deletion) (records : List Record) : Record → Prop
  | hit {r} (hr : r ∈ records) (h : d.hits r = true) : Goes d records r
  | named {r q} (hr : r ∈ records) (hn : r.Names q) (hq : Goes d records q) : Goes d records r

/-- Whether a record went in a deletion after it was made. -/
def Deleted (items : List Item) (r : Record) : Prop :=
  ∃ before d, before ++ [.removed d] <+: items ∧ Goes d (madeIn before) r

/-- Whether a tag was taken off a todo by itself, after the todo was made. -/
def TakenOff (items : List Item) (todo tag : Uuid) : Prop :=
  ∃ before d, before ++ [.removed d] <+: items ∧ (∃ t ∈ todosIn (madeIn before), t.id = todo) ∧
    d.takesLink ⟨.id todo, .id tag⟩ = true

open Classical in
noncomputable def leftIn (items : List Item) : List Record := (madeIn items).filter fun r => ¬ Deleted items r

/-- Whether a tag is still there, and on a todo if it was on it. -/
def Attached (items : List Item) (todo tag : Uuid) : Prop :=
  (∃ x ∈ tagsIn (leftIn items), x.id = tag) ∧ ¬ TakenOff items todo tag

open Classical in
noncomputable def trimmed (items : List Item) (t : Todo) : Todo :=
  { t with tags := t.tags.filter fun tag => Attached items t.id tag }

noncomputable def todosLeft (items : List Item) : List Todo := (todosIn (leftIn items)).map (trimmed items)

def FreshIds (items : List Item) : Prop := ((madeIn items).map Record.id).Nodup

/-- A workspace has the rows of what a trace leaves, and the tags that todos name have been made. -/
structure Reflects (items : List Item) (w : Workspace) : Prop where
  consistent : w.Consistent
  rows : w = Workspace.empty.add (groupsIn (leftIn items)) (tagsIn (leftIn items)) (todosLeft items)
  named : ∀ t ∈ todosIn (madeIn items), ∀ id ∈ t.tags, ∃ x ∈ tagsIn (madeIn items), x.id = id

/-! ## Cuts of a trace -/

section
variable {items before : List Item} {d : Deletion}

theorem cut_made {records : List Record} :
    before ++ [.removed d] <+: items ++ records.map .made ↔ before ++ [.removed d] <+: items := by
  induction records generalizing items with
  | nil => rw [List.map_nil, List.append_nil]
  | cons r records ih =>
    rw [List.map_cons, List.append_cons items, ih, List.prefix_concat_iff]
    refine or_iff_right fun heq => ?_
    cases (List.append_inj' heq rfl).2

theorem cut_removed {d' : Deletion} :
    before ++ [.removed d] <+: items ++ [.removed d'] ↔
      (before = items ∧ d = d') ∨ before ++ [.removed d] <+: items := by
  rw [List.prefix_concat_iff]
  refine or_congr_left ⟨fun heq => ?_, ?_⟩
  · obtain ⟨rfl, hitem⟩ := List.append_inj' heq rfl
    cases hitem
    exact ⟨rfl, rfl⟩
  · rintro ⟨rfl, rfl⟩
    rfl

theorem madeIn_of_cut (h : before ++ [.removed d] <+: items) : madeIn before ⊆ madeIn items := by
  obtain ⟨later, rfl⟩ := h
  rw [madeIn_append, madeIn_append]
  exact fun r hr => List.mem_append_left _ (List.mem_append_left _ hr)

end

theorem Goes.mem {d : Deletion} {records : List Record} {r : Record} (h : Goes d records r) : r ∈ records := by
  cases h <;> assumption

theorem Deleted.mem {items : List Item} {r : Record} (h : Deleted items r) : r ∈ madeIn items := by
  obtain ⟨before, d, hcut, hgoes⟩ := h
  exact madeIn_of_cut hcut hgoes.mem

theorem FreshIds.of_append {items items' : List Item} (h : FreshIds (items ++ items')) : FreshIds items := by
  unfold FreshIds at h
  rw [madeIn_append, List.map_append] at h
  exact (List.nodup_append.mp h).1

theorem mem_leftIn {items : List Item} {r : Record} : r ∈ leftIn items ↔ r ∈ madeIn items ∧ ¬ Deleted items r := by
  simp only [leftIn, List.mem_filter, decide_eq_true_eq]

/-! ## New records -/

section
variable {items : List Item} {records : List Record}

theorem deleted_made {r : Record} : Deleted (items ++ records.map .made) r ↔ Deleted items r := by
  simp only [Deleted, cut_made]

theorem takenOff_made {todo tag : Uuid} : TakenOff (items ++ records.map .made) todo tag ↔ TakenOff items todo tag := by
  simp only [TakenOff, cut_made]

variable (hfresh : FreshIds (items ++ records.map .made))
include hfresh

theorem id_ne_of_new {r r' : Record} (hr : r ∈ madeIn items) (hr' : r' ∈ records) : r.id ≠ r'.id := by
  unfold FreshIds at hfresh
  rw [madeIn_append, madeIn_map_made, List.map_append, List.nodup_append] at hfresh
  exact hfresh.2.2 _ (List.mem_map_of_mem hr) _ (List.mem_map_of_mem hr')

theorem leftIn_made : leftIn (items ++ records.map .made) = leftIn items ++ records := by
  unfold leftIn
  rw [madeIn_append, madeIn_map_made, List.filter_append]
  congr 1
  · refine List.filter_congr fun r _ => ?_
    rw [decide_eq_decide, deleted_made]
  · rw [List.filter_eq_self]
    intro r hr
    simp only [decide_eq_true_eq, deleted_made]
    exact fun hdeleted => id_ne_of_new hfresh hdeleted.mem hr rfl

end

/-! ## Deletions -/

section
variable {items : List Item} {d : Deletion}

theorem deleted_removed {r : Record} :
    Deleted (items ++ [.removed d]) r ↔ Deleted items r ∨ Goes d (madeIn items) r := by
  unfold Deleted
  constructor
  · rintro ⟨before, d', hcut, hgoes⟩
    rcases cut_removed.mp hcut with ⟨rfl, rfl⟩ | hcut
    · exact .inr hgoes
    · exact .inl ⟨before, d', hcut, hgoes⟩
  · rintro (⟨before, d', hcut, hgoes⟩ | hgoes)
    · exact ⟨before, d', cut_removed.mpr (.inr hcut), hgoes⟩
    · exact ⟨items, d, cut_removed.mpr (.inl ⟨rfl, rfl⟩), hgoes⟩

theorem takenOff_removed {todo tag : Uuid} (htodo : ∃ t ∈ todosIn (madeIn items), t.id = todo) :
    TakenOff (items ++ [.removed d]) todo tag ↔
      TakenOff items todo tag ∨ d.takesLink ⟨.id todo, .id tag⟩ = true := by
  unfold TakenOff
  constructor
  · rintro ⟨before, d', hcut, hmade, hlink⟩
    rcases cut_removed.mp hcut with ⟨rfl, rfl⟩ | hcut
    · exact .inr hlink
    · exact .inl ⟨before, d', hcut, hmade, hlink⟩
  · rintro (⟨before, d', hcut, hmade, hlink⟩ | hlink)
    · exact ⟨before, d', cut_removed.mpr (.inr hcut), hmade, hlink⟩
    · exact ⟨items, d, cut_removed.mpr (.inl ⟨rfl, rfl⟩), htodo, hlink⟩

theorem madeIn_removed : madeIn (items ++ [.removed d]) = madeIn items := by
  rw [madeIn_append]
  exact List.append_nil _

open Classical in
theorem leftIn_removed :
    leftIn (items ++ [.removed d]) = (leftIn items).filter fun r => ¬ Goes d (madeIn items) r := by
  unfold leftIn
  rw [madeIn_removed, List.filter_filter]
  refine List.filter_congr fun r _ => ?_
  simp only [deleted_removed, not_or, Bool.decide_and, Bool.and_comm]

end

/-! ## What operations do -/

namespace Reflects

section
variable {items : List Item} {w : Workspace} (h : Reflects items w)
include h

theorem groups_eq : w.groups = (groupsIn (leftIn items)).map Group.row := by
  rw [h.rows]
  rfl

theorem tags_eq : w.tags = (tagsIn (leftIn items)).map Tag.row := by
  rw [h.rows]
  rfl

theorem todos_eq : w.todos = (todosIn (leftIn items)).map Todo.row := by
  rw [h.rows]
  show (todosLeft items).map Todo.row = _
  rw [todosLeft, List.map_map]
  rfl

theorem mem_left_of_group {y : GroupRow} (hy : y ∈ w.groups) : ∃ g, .group g ∈ leftIn items ∧ g.row = y := by
  rw [h.groups_eq] at hy
  obtain ⟨g, hg, rfl⟩ := List.mem_map.mp hy
  exact ⟨g, mem_groupsIn.mp hg, rfl⟩

theorem mem_left_of_tag {y : TagRow} (hy : y ∈ w.tags) : ∃ t, .tag t ∈ leftIn items ∧ t.row = y := by
  rw [h.tags_eq] at hy
  obtain ⟨t, ht, rfl⟩ := List.mem_map.mp hy
  exact ⟨t, mem_tagsIn.mp ht, rfl⟩

theorem mem_left_of_todo {y : TodoRow} (hy : y ∈ w.todos) : ∃ t, .todo t ∈ leftIn items ∧ t.row = y := by
  rw [h.todos_eq] at hy
  obtain ⟨t, ht, rfl⟩ := List.mem_map.mp hy
  exact ⟨t, mem_todosIn.mp ht, rfl⟩

theorem row_mem_groups {g : Group} (hg : .group g ∈ leftIn items) : g.row ∈ w.groups := by
  rw [h.groups_eq]
  exact List.mem_map_of_mem (mem_groupsIn.mpr hg)

theorem row_mem_tags {t : Tag} (ht : .tag t ∈ leftIn items) : t.row ∈ w.tags := by
  rw [h.tags_eq]
  exact List.mem_map_of_mem (mem_tagsIn.mpr ht)

theorem row_mem_todos {t : Todo} (ht : .todo t ∈ leftIn items) : t.row ∈ w.todos := by
  rw [h.todos_eq]
  exact List.mem_map_of_mem (mem_todosIn.mpr ht)

section
variable {records : List Record} (hfresh : FreshIds (items ++ records.map .made))
include hfresh

theorem trimmed_old {t : Todo} (ht : t ∈ todosIn (leftIn items)) :
    trimmed (items ++ records.map .made) t = trimmed items t := by
  have hmade : t ∈ todosIn (madeIn items) := mem_todosIn.mpr (mem_leftIn.mp (mem_todosIn.mp ht)).1
  unfold trimmed
  congr 1
  refine List.filter_congr fun id hid => ?_
  rw [decide_eq_decide, Attached, Attached, takenOff_made, leftIn_made hfresh]
  refine and_congr_left fun _ => ⟨?_, ?_⟩
  · -- What the todo names was there before it, and so is no new tag.
    rintro ⟨x, hx, rfl⟩
    rcases List.mem_append.mp (mem_tagsIn.mp hx) with hx | hx
    · exact ⟨x, mem_tagsIn.mpr hx, rfl⟩
    · obtain ⟨y, hy, hid⟩ := h.named t hmade _ hid
      exact absurd hid (id_ne_of_new hfresh (mem_tagsIn.mp hy) hx)
  · rintro ⟨x, hx, rfl⟩
    exact ⟨x, mem_tagsIn.mpr (List.mem_append_left _ (mem_tagsIn.mp hx)), rfl⟩

variable (hcons : (w.addAll records).Consistent)
include hcons

theorem attached_new {t : Todo} (ht : t ∈ todosIn records) {id : Uuid} (hid : id ∈ t.tags) :
    Attached (items ++ records.map .made) t.id id := by
  constructor
  · have hlink : (⟨.id t.id, .id id⟩ : LinkRow) ∈ (w.addAll records).links :=
      List.mem_append_right _ (List.mem_flatMap.mpr ⟨t, ht, List.mem_map_of_mem hid⟩)
    obtain ⟨_, _, y, hy, _, hyid, _⟩ := hcons.linkEnds _ hlink
    rw [leftIn_made hfresh]
    rcases List.mem_append.mp hy with hy | hy
    · obtain ⟨x, hx, rfl⟩ := h.mem_left_of_tag hy
      exact ⟨x, mem_tagsIn.mpr (List.mem_append_left _ hx), Key.id.inj hyid⟩
    · obtain ⟨x, hx, rfl⟩ := List.mem_map.mp hy
      exact ⟨x, mem_tagsIn.mpr (List.mem_append_right _ (mem_tagsIn.mp hx)), Key.id.inj hyid⟩
  · rw [takenOff_made]
    rintro ⟨before, d, hcut, ⟨t', ht', htid⟩, _⟩
    exact id_ne_of_new hfresh (madeIn_of_cut hcut (mem_todosIn.mp ht')) (mem_todosIn.mp ht) htid

theorem todosLeft_made : todosLeft (items ++ records.map .made) = todosLeft items ++ todosIn records := by
  unfold todosLeft
  rw [leftIn_made hfresh, todosIn, List.filterMap_append, List.map_append]
  congr 1
  · exact List.map_congr_left fun t ht => h.trimmed_old hfresh ht
  · conv_rhs => rw [← List.map_id (todosIn records)]
    refine List.map_congr_left fun t ht => ?_
    unfold trimmed
    rw [List.filter_eq_self.mpr]
    · rfl
    · intro id hid
      simp only [decide_eq_true_eq]
      exact h.attached_new hfresh hcons ht hid

/-- New rows are those of new records. -/
theorem addAll : Reflects (items ++ records.map .made) (w.addAll records) where
  consistent := hcons
  rows := by
    rw [h.todosLeft_made hfresh hcons, leftIn_made hfresh]
    conv_lhs => rw [h.rows, Workspace.addAll, add_add]
    simp only [groupsIn, tagsIn, List.filterMap_append]
  named t ht id hid := by
    rw [madeIn_append, madeIn_map_made] at ht ⊢
    rcases List.mem_append.mp (mem_todosIn.mp ht) with ht | ht
    · obtain ⟨x, hx, hxid⟩ := h.named t (mem_todosIn.mpr ht) id hid
      exact ⟨x, mem_tagsIn.mpr (List.mem_append_left _ (mem_tagsIn.mp hx)), hxid⟩
    · obtain ⟨⟨x, hx, hxid⟩, _⟩ := h.attached_new hfresh hcons (mem_todosIn.mpr ht) hid
      have hmade := (mem_leftIn.mp (mem_tagsIn.mp hx)).1
      rw [madeIn_append, madeIn_map_made] at hmade
      exact ⟨x, mem_tagsIn.mpr hmade, hxid⟩

end

end

end Reflects

/-! ## What deletions do -/

theorem flatMap_filter_of {α β : Type} {l : List α} {p : α → Bool} {f g : α → List β}
    (hkeep : ∀ x ∈ l, p x = true → f x = g x) (hdrop : ∀ x ∈ l, p x = false → f x = []) :
    l.flatMap f = (l.filter p).flatMap g := by
  induction l with
  | nil => rfl
  | cons x l ih =>
    rw [List.forall_mem_cons] at hkeep hdrop
    rw [List.flatMap_cons, ih hkeep.2 hdrop.2]
    cases hx : p x with
    | true => rw [List.filter_cons_of_pos hx, List.flatMap_cons, hkeep.1 hx]
    | false => rw [List.filter_cons_of_neg (by simp [hx]), hdrop.1 hx, List.nil_append]

theorem filter_rows {α β : Type} {row : α → β} {p : β → Bool} {q : α → Bool} (h : ∀ x, p (row x) = q x) (l : List α) :
    (l.map row).filter p = (l.filter q).map row := by
  rw [List.filter_map]
  exact congrArg _ (List.filter_congr fun x _ => h x)

def Deletion.trims (d : Deletion) (w : Workspace) (t : Todo) : Todo :=
  { t with tags := t.tags.filter fun id => !d.takesLink ⟨.id t.id, .id id⟩ && .id id ∉ d.goneTags w }

/-- Where all rows are rows of records, a deletion leaves the rows of some of these records. -/
theorem remove_rows {w : Workspace} {groups : List Group} {tags : List Tag} {todos : List Todo} (h : w.Consistent)
    (rows : w = empty.add groups tags todos) (d : Deletion) :
    w.remove d = empty.add (groups.filter fun g => !d.takesGroup g.row) (tags.filter fun t => !d.takesTag w t.row)
      ((todos.filter fun t => t.row.id ∉ d.goneTodos w).map (d.trims w)) := by
  have hgroups : w.groups = groups.map Group.row := by rw [rows]; rfl
  have htags : w.tags = tags.map Tag.row := by rw [rows]; rfl
  have htodos : w.todos = todos.map Todo.row := by rw [rows]; rfl
  have hlinks : w.links = todos.flatMap Todo.links := by rw [rows]; rfl
  have htodos' : (w.todos.filter fun t => t.id ∉ d.goneTodos w) =
      ((todos.filter fun t => t.row.id ∉ d.goneTodos w).map (d.trims w)).map Todo.row := by
    rw [htodos, filter_rows fun _ => rfl, List.map_map]
    rfl
  have hlinks' : (w.links.filter fun l => !d.takesLink l && l.todo ∉ d.goneTodos w && l.tag ∉ d.goneTags w) =
      ((todos.filter fun t => t.row.id ∉ d.goneTodos w).map (d.trims w)).flatMap Todo.links := by
    rw [hlinks, List.filter_flatMap, List.flatMap_map]
    refine flatMap_filter_of (fun t _ hstays => filter_rows (fun id => ?_) t.tags) fun t _ hgoes => ?_
    · have hstays : Key.id t.id ∉ d.goneTodos w := of_decide_eq_true hstays
      simp [hstays]
    · rw [List.filter_eq_nil_iff]
      intro l hl hkept
      obtain ⟨id, _, rfl⟩ := List.mem_map.mp hl
      simp only [Bool.and_eq_true, decide_eq_true_eq] at hkept
      exact of_decide_eq_false hgoes hkept.1.2
  rw [remove_eq_keep h]
  unfold keep
  rw [hgroups, htags, htodos', hlinks', h.tables, filter_rows fun _ => rfl, filter_rows fun _ => rfl]
  rfl

def Deletion.Takes (d : Deletion) (w : Workspace) : Record → Prop
  | .group g => d.takesGroup g.row = true
  | .tag t => d.takesTag w t.row = true
  | .todo t => t.row.id ∈ d.goneTodos w

section
variable {d : Deletion}

theorem hits_group {g : Group} : d.hits (.group g) = true ↔ d.takesGroup g.row = true := by
  cases d <;> simp [Deletion.hits, Deletion.takesGroup]

theorem hits_tag {t : Tag} : d.hits (.tag t) = true ↔ ∃ p, d = .tags p ∧ p t.row = true := by
  cases d <;> simp [Deletion.hits]

theorem hits_todo {t : Todo} : d.hits (.todo t) = true ↔ ∃ p, d = .todos p ∧ p t.row = true := by
  cases d <;> simp [Deletion.hits]

end

theorem FreshIds.eq_of_id {items : List Item} (h : FreshIds items) {r r' : Record} (hr : r ∈ leftIn items)
    (hr' : r' ∈ madeIn items) (hid : r.id = r'.id) : r = r' :=
  List.inj_on_of_nodup_map h (mem_leftIn.mp hr).1 hr' hid

namespace Reflects

section
variable {items : List Item} {w : Workspace} {d : Deletion} (h : Reflects items w) (hfresh : FreshIds items)
include h

theorem exists_group {id : Uuid} (hid : ∃ y ∈ w.groups, y.id = .id id) : ∃ g, .group g ∈ leftIn items ∧ g.id = id := by
  obtain ⟨y, hy, hid⟩ := hid
  obtain ⟨g, hg, rfl⟩ := h.mem_left_of_group hy
  exact ⟨g, hg, Key.id.inj hid⟩

theorem group_of_tag {t : Tag} (ht : .tag t ∈ leftIn items) : ∃ g, .group g ∈ leftIn items ∧ g.id = t.group := by
  obtain ⟨y, hy, hid, _⟩ := h.consistent.tagGroup _ (h.row_mem_tags ht)
  exact h.exists_group ⟨y, hy, hid⟩

theorem group_of_todo {t : Todo} (ht : .todo t ∈ leftIn items) : ∃ g, .group g ∈ leftIn items ∧ g.id = t.group := by
  obtain ⟨y, hy, hid, _⟩ := h.consistent.todoGroup _ (h.row_mem_todos ht)
  exact h.exists_group ⟨y, hy, hid⟩

theorem parent_of_todo {t : Todo} {id : Uuid} (ht : .todo t ∈ leftIn items) (hparent : t.parent = some id) :
    ∃ q, .todo q ∈ leftIn items ∧ q.id = id := by
  have hkey : t.row.parent = .id id := congrArg Key.ofId? hparent
  obtain ⟨y, hy, hid, _⟩ := h.consistent.parent_mem (h.row_mem_todos ht) (ne_none_of_id ⟨id, hkey⟩)
  obtain ⟨q, hq, rfl⟩ := h.mem_left_of_todo hy
  exact ⟨q, hq, Key.id.inj (hid.trans hkey)⟩

theorem isParent_of_names {t q : Todo} (ht : .todo t ∈ leftIn items) (hq : .todo q ∈ leftIn items)
    (hparent : t.parent = some q.id) : w.IsParent q.row t.row :=
  ⟨h.row_mem_todos hq, h.row_mem_todos ht, congrArg Key.ofId? hparent⟩

theorem takes_of_takesTodo {t : Todo} (ht : .todo t ∈ leftIn items) (htakes : d.takesTodo w t.row = true) :
    d.Takes w (.todo t) :=
  (mem_goneTodos_iff h.consistent (h.row_mem_todos ht)).mpr ⟨_, h.row_mem_todos ht, htakes, .refl⟩

theorem takes_of_hits {r : Record} (hr : r ∈ leftIn items) (hhits : d.hits r = true) : d.Takes w r := by
  cases r with
  | group g => exact hits_group.mp hhits
  | tag t => exact (takesTag_iff h.consistent).mpr (.inl (hits_tag.mp hhits))
  | todo t => exact h.takes_of_takesTodo hr ((takesTodo_iff h.consistent).mpr (.inl (hits_todo.mp hhits)))

theorem takes_of_names {r q : Record} (hr : r ∈ leftIn items) (hq : q ∈ leftIn items) (hnames : r.Names q)
    (htakes : d.Takes w q) : d.Takes w r := by
  cases hnames with
  | @tagGroup t g hgroup =>
    have hid : g.row.id = t.row.group := congrArg Key.id hgroup.symm
    exact (takesTag_iff h.consistent).mpr (.inr ⟨_, h.row_mem_groups hq, htakes, hid⟩)
  | @todoGroup t g hgroup =>
    have hid : g.row.id = t.row.group := congrArg Key.id hgroup.symm
    exact h.takes_of_takesTodo hr ((takesTodo_iff h.consistent).mpr (.inr ⟨_, h.row_mem_groups hq, htakes, hid⟩))
  | todoParent hparent =>
    obtain ⟨y, hy, htodo, hchain⟩ := (mem_goneTodos_iff h.consistent (h.row_mem_todos hq)).mp htakes
    have hchain' := hchain.tail (h.isParent_of_names hr hq hparent)
    exact (mem_goneTodos_iff h.consistent (h.row_mem_todos hr)).mpr ⟨y, hy, htodo, hchain'⟩

theorem goes_of_group {r : Record} (hr : r ∈ leftIn items) {y : GroupRow} (hy : y ∈ w.groups)
    (htakes : d.takesGroup y = true) (hnames : ∀ g, g.row = y → r.Names (.group g)) : Goes d (madeIn items) r := by
  obtain ⟨g, hg, hrow⟩ := h.mem_left_of_group hy
  have hgoes : Goes d (madeIn items) (.group g) := .hit (mem_leftIn.mp hg).1 (hits_group.mpr (hrow ▸ htakes))
  exact .named (mem_leftIn.mp hr).1 (hnames g hrow) hgoes

theorem goes_of_takesTodo {t : Todo} (ht : .todo t ∈ leftIn items) (htakes : d.takesTodo w t.row = true) :
    Goes d (madeIn items) (.todo t) := by
  rcases (takesTodo_iff h.consistent).mp htakes with hhits | ⟨y, hy, hgroup, hid⟩
  · exact .hit (mem_leftIn.mp ht).1 (hits_todo.mpr hhits)
  · refine h.goes_of_group ht hy hgroup ?_
    rintro g rfl
    exact .todoGroup (Key.id.inj hid).symm

theorem goes_of_below {y c : TodoRow} (hchain : Relation.ReflTransGen w.IsParent y c) (htakes : d.takesTodo w y = true)
    {t : Todo} (ht : .todo t ∈ leftIn items) (hrow : t.row = c) : Goes d (madeIn items) (.todo t) := by
  induction hchain generalizing t with
  | refl =>
    subst hrow
    exact h.goes_of_takesTodo ht htakes
  | @tail b c _ hbc ih =>
    obtain ⟨q, hq, rfl⟩ := h.mem_left_of_todo hbc.1
    have hparent : t.parent = some q.id := by
      have hkey : Key.ofId? t.parent = .id q.id := (congrArg TodoRow.parent hrow).trans hbc.2.2
      cases hp : t.parent with
      | none =>
        rw [hp] at hkey
        cases hkey
      | some id =>
        rw [hp] at hkey
        cases hkey
        rfl
    exact .named (mem_leftIn.mp ht).1 (.todoParent hparent) (ih hq rfl)

theorem goes_of_takes {r : Record} (hr : r ∈ leftIn items) (htakes : d.Takes w r) : Goes d (madeIn items) r := by
  have hmade := (mem_leftIn.mp hr).1
  cases r with
  | group g => exact .hit hmade (hits_group.mpr htakes)
  | tag t =>
    rcases (takesTag_iff h.consistent).mp htakes with hhits | ⟨y, hy, hgroup, hid⟩
    · exact .hit hmade (hits_tag.mpr hhits)
    · refine h.goes_of_group hr hy hgroup ?_
      rintro g rfl
      exact .tagGroup (Key.id.inj hid).symm
  | todo t =>
    obtain ⟨y, hy, htodo, hchain⟩ := (mem_goneTodos_iff h.consistent (h.row_mem_todos hr)).mp htakes
    exact h.goes_of_below hchain htodo hr rfl

include hfresh

/-- What a record that is left names is left, too. -/
theorem left_of_names {r q : Record} (hr : r ∈ leftIn items) (hq : q ∈ madeIn items) (hnames : r.Names q) :
    q ∈ leftIn items := by
  cases hnames with
  | tagGroup hgroup =>
    obtain ⟨g, hg, hid⟩ := h.group_of_tag hr
    exact hfresh.eq_of_id hg hq (hid.trans hgroup) ▸ hg
  | todoGroup hgroup =>
    obtain ⟨g, hg, hid⟩ := h.group_of_todo hr
    exact hfresh.eq_of_id hg hq (hid.trans hgroup) ▸ hg
  | todoParent hparent =>
    obtain ⟨q, hq', hid⟩ := h.parent_of_todo hr hparent
    exact hfresh.eq_of_id hq' hq hid ▸ hq'

theorem takes_of_goes {r : Record} (hr : r ∈ leftIn items) (hgoes : Goes d (madeIn items) r) : d.Takes w r := by
  induction hgoes with
  | hit _ hhits => exact h.takes_of_hits hr hhits
  | named _ hnames hgoes ih =>
    have hq := h.left_of_names hfresh hr hgoes.mem hnames
    exact h.takes_of_names hr hq hnames (ih hq)

theorem goes_iff {r : Record} (hr : r ∈ leftIn items) : Goes d (madeIn items) r ↔ d.Takes w r :=
  ⟨h.takes_of_goes hfresh hr, h.goes_of_takes hr⟩

theorem mem_goneTags_iff {id : Uuid} :
    .id id ∈ d.goneTags w ↔ ∃ x, .tag x ∈ leftIn items ∧ x.id = id ∧ Goes d (madeIn items) (.tag x) := by
  rw [mem_goneTags h.consistent]
  constructor
  · rintro ⟨y, hy, htakes, hid⟩
    obtain ⟨x, hx, rfl⟩ := h.mem_left_of_tag hy
    exact ⟨x, hx, Key.id.inj hid, h.goes_of_takes hx htakes⟩
  · rintro ⟨x, hx, rfl, hgoes⟩
    exact ⟨x.row, h.row_mem_tags hx, h.takes_of_goes hfresh hx hgoes, rfl⟩

/-- A tag stays on a todo that stays if the tag stays and is not taken off. -/
theorem attached_removed {t : Todo} (ht : .todo t ∈ leftIn items) {id : Uuid} :
    Attached (items ++ [.removed d]) t.id id ↔
      Attached items t.id id ∧ d.takesLink ⟨.id t.id, .id id⟩ = false ∧ .id id ∉ d.goneTags w := by
  have htodo : ∃ t' ∈ todosIn (madeIn items), t'.id = t.id := ⟨t, mem_todosIn.mpr (mem_leftIn.mp ht).1, rfl⟩
  have htag : (∃ x ∈ tagsIn (leftIn (items ++ [.removed d])), x.id = id) ↔
      (∃ x ∈ tagsIn (leftIn items), x.id = id) ∧ .id id ∉ d.goneTags w := by
    rw [leftIn_removed, h.mem_goneTags_iff hfresh]
    simp only [mem_tagsIn, List.mem_filter, decide_eq_true_eq]
    constructor
    · rintro ⟨x, ⟨hx, hstays⟩, rfl⟩
      refine ⟨⟨x, hx, rfl⟩, ?_⟩
      rintro ⟨x', hx', hid, hgoes⟩
      cases hfresh.eq_of_id hx' (mem_leftIn.mp hx).1 hid
      exact hstays hgoes
    · rintro ⟨⟨x, hx, rfl⟩, hstays⟩
      exact ⟨x, ⟨hx, fun hgoes => hstays ⟨x, hx, rfl, hgoes⟩⟩, rfl⟩
  unfold Attached
  rw [htag, takenOff_removed htodo, not_or, Bool.not_eq_true]
  tauto

theorem groupsIn_removed :
    groupsIn (leftIn (items ++ [.removed d])) = (groupsIn (leftIn items)).filter fun g => !d.takesGroup g.row := by
  rw [leftIn_removed, groupsIn_filter]
  refine List.filter_congr fun g hg => ?_
  simp [h.goes_iff hfresh (mem_groupsIn.mp hg), Deletion.Takes]

theorem tagsIn_removed :
    tagsIn (leftIn (items ++ [.removed d])) = (tagsIn (leftIn items)).filter fun t => !d.takesTag w t.row := by
  rw [leftIn_removed, tagsIn_filter]
  refine List.filter_congr fun t ht => ?_
  simp [h.goes_iff hfresh (mem_tagsIn.mp ht), Deletion.Takes]

theorem trimmed_removed {t : Todo} (ht : .todo t ∈ leftIn items) :
    trimmed (items ++ [.removed d]) t = d.trims w (trimmed items t) := by
  unfold Deletion.trims trimmed
  simp only
  rw [List.filter_filter]
  congr 1
  refine List.filter_congr fun id _ => ?_
  rw [Bool.eq_iff_iff]
  simp only [Bool.and_eq_true, Bool.not_eq_true', decide_eq_true_eq, h.attached_removed hfresh ht]
  tauto

theorem todosLeft_removed :
    todosLeft (items ++ [.removed d]) =
      ((todosLeft items).filter fun t => t.row.id ∉ d.goneTodos w).map (d.trims w) := by
  have hstays : ((todosLeft items).filter fun t => t.row.id ∉ d.goneTodos w) =
      (todosIn (leftIn (items ++ [.removed d]))).map (trimmed items) := by
    rw [todosLeft, leftIn_removed, todosIn_filter, filter_rows fun _ => rfl]
    refine congrArg _ (List.filter_congr fun t ht => ?_)
    show decide (t.row.id ∉ d.goneTodos w) = _
    simp [h.goes_iff hfresh (mem_todosIn.mp ht), Deletion.Takes]
  rw [hstays, List.map_map, todosLeft]
  refine List.map_congr_left fun t ht => h.trimmed_removed hfresh ?_
  rw [leftIn_removed, todosIn_filter] at ht
  exact mem_todosIn.mp (List.mem_of_mem_filter ht)

/-- A deletion deletes the rows of the records that go in it, and takes the tags that go off the todos that stay. -/
theorem remove (d : Deletion) : Reflects (items ++ [.removed d]) (w.remove d) where
  consistent := h.consistent.remove d
  rows := by
    rw [h.groupsIn_removed hfresh, h.tagsIn_removed hfresh, h.todosLeft_removed hfresh]
    exact remove_rows h.consistent h.rows d
  named := by
    rw [madeIn_removed]
    exact h.named

end

end Reflects

/-! ## Histories -/

section
variable {φ α : Type}

theorem Reflects.empty : Reflects [] .empty := ⟨.empty, rfl, fun _ ht => absurd ht List.not_mem_nil⟩

/-- An event does to the rows what it does to the trace. -/
theorem Reflects.event {items : List Item} {w : Workspace} (h : Reflects items w) (e : Event φ α)
    (hfresh : FreshIds (items ++ e.items w)) : Reflects (items ++ e.items w) (e.result w) := by
  have hcons := e.result_consistent h.consistent
  cases e with
  | step st =>
    have hadd : (Event.step st).result w = w.addAll (st.made w) := st.result_eq h.consistent
    rw [hadd] at hcons ⊢
    exact h.addAll hfresh hcons
  | remove d => exact h.remove hfresh.of_append d
  | delete t id =>
    rw [delete_result h.consistent]
    cases hd : Deletion.ofId? t id with
    | none =>
      have hitems : (Event.delete t id : Event φ α).items w = [] := by rw [Event.items, hd]; rfl
      rw [hitems, List.append_nil]
      exact h
    | some d =>
      have hitems : (Event.delete t id : Event φ α).items w = [.removed d] := by rw [Event.items, hd]; rfl
      rw [hitems]
      exact h.remove hfresh.of_append d

theorem Reflects.events {items : List Item} {w : Workspace} (h : Reflects items w) (events : List (Event φ α))
    (hfresh : FreshIds (items ++ traceFrom w events)) :
    Reflects (items ++ traceFrom w events) (events.foldl (fun w e => e.result w) w) := by
  induction events generalizing items w with
  | nil => rwa [traceFrom, List.append_nil]
  | cons e events ih =>
    rw [traceFrom, ← List.append_assoc] at hfresh ⊢
    exact ih (h.event e hfresh.of_append) hfresh

/-- Whatever users did and whatever was deleted, the tables hold what the trace leaves. -/
theorem reflects_of_history (events : List (Event φ α)) (hfresh : FreshIds (trace events)) :
    Reflects (trace events) (after events) :=
  Reflects.empty.events events hfresh

end

end PresetWorkspace.Workspace
