import PresetWorkspace.Proofs.Outline
import PresetWorkspace.Proofs.RatioText

/-!
# Reading back

A row that was made of a record reads as that record. So the tags and todos of
a group that has just come into being read back as they were added, whatever
else the tables hold, and what has been set up of a preset reads back as the
preset (`setUp_reads_back`). Only ratios may change: they are kept as text,
and there is none for a value that is not finite.
-/

namespace PresetWorkspace

open Workspace

def GroupTemplate.ratios (t : GroupTemplate) : List Binary64 :=
  match t.goalRatios with
  | none => []
  | some m => m.entries.map (·.2)

/-- All rows of before, with others behind them. -/
structure Workspace.KeptIn (old new : Workspace) : Prop where
  groups : old.groups <+: new.groups
  tags : old.tags <+: new.tags
  todos : old.todos <+: new.todos
  links : old.links <+: new.links

/-- What was set up of a preset for a user reads back as the preset. The group can be read iff there are texts for
its ratios, and the ratios are the same if these texts read as what they are texts of. -/
structure Preset.ReadsBack (p : Preset) (user : String) (r : Initialized Uuid) (w : Workspace) (tags : List Tag)
    (todos : List Todo) : Prop where
  group : (∃ g, w.group? r.groupId = .ok (some g)) ↔ ∀ x ∈ p.group.ratios, x.isFinite = true
  groupColumns : ∀ g, w.group? r.groupId = .ok (some g) →
    g.id = r.groupId ∧ g.user = user ∧ g.name = p.group.name ∧ g.color = p.group.color ∧
      g.description = p.group.description ∧ g.isTodoGroup = p.group.isTodoGroup
  groupRatios : (∀ x ∈ p.group.ratios, x.reread = .ok x) →
    ∃ g, w.group? r.groupId = .ok (some g) ∧ g.goalRatios = p.group.goalRatios
  tagRows : w.tagsOf r.groupId = .ok tags
  tagTemplates : tags.map Tag.template = p.tags
  tagOwner : ∀ t ∈ tags, t.user = user ∧ t.group = r.groupId
  todoRows : w.todosOf r.groupId = .ok todos
  todoForest : forest todos = TodoTemplate.outlines tags p.todos
  todoOwner : ∀ t ∈ todos, t.user = user ∧ t.group = r.groupId
  tagCount : r.tagsCreated = p.tags.length
  todoCount : r.todosCreated = TodoTemplate.countAll p.todos
  todoLength : todos.length = TodoTemplate.countAll p.todos

/-! ## Rows of records -/

theorem Tag.read_row (t : Tag) : t.row.read = .ok t := rfl

/-- The tags of a todo stand in the table of links. -/
theorem Todo.read_row (t : Todo) : t.row.read = .ok { t with tags := [] } := by
  obtain ⟨id, user, group, _ | parent, title, description, tags, createdAt⟩ := t <;> rfl

theorem Group.read_row (g : Group) :
    g.row.read = (readRatios 5 (g.goalRatios.map fun m => (Json.ofRatios m).compact)).map fun m =>
      { g with goalRatios := m } := by
  obtain ⟨id, user, name, color, description, goalRatios, isTodoGroup, createdAt⟩ := g
  unfold Group.row GroupRow.read
  simp only
  cases readRatios 5 (goalRatios.map fun m => (Json.ofRatios m).compact) with
  | error e => rfl
  | ok m => cases isTodoGroup <;> rfl

def Todo.pairs (t : Todo) : List (Uuid × Uuid) := t.tags.map fun tag => (t.id, tag)

theorem mapM_read_links (todos : List Todo) :
    (todos.flatMap Todo.links).mapM LinkRow.read = .ok (todos.flatMap Todo.pairs) := by
  have hrows : todos.flatMap Todo.links = (todos.flatMap Todo.pairs).map fun l => (⟨.id l.1, .id l.2⟩ : LinkRow) := by
    rw [List.map_flatMap]
    congr 1
    funext t
    simp only [Todo.links, Todo.pairs, List.map_map]
    rfl
  have hread : ∀ l : Uuid × Uuid, (⟨.id l.1, .id l.2⟩ : LinkRow).read = .ok (id l) := fun _ => rfl
  rw [hrows, mapM_map_ok hread, List.map_id]

theorem filter_pairs_of_ne {todos : List Todo} {id : Uuid} (h : ∀ t ∈ todos, t.id ≠ id) :
    (todos.flatMap Todo.pairs).filter (·.1 = id) = [] := by
  rw [List.filter_eq_nil_iff]
  intro l hl
  obtain ⟨t, ht, hlt⟩ := List.mem_flatMap.mp hl
  obtain ⟨tag, _, rfl⟩ := List.mem_map.mp hlt
  simpa using h t ht

theorem tags_of_pairs {todos : List Todo} (h : (todos.map (·.id)).Nodup) {t : Todo} (ht : t ∈ todos) :
    ((todos.flatMap Todo.pairs).filter (·.1 = t.id)).map (·.2) = t.tags := by
  induction todos with
  | nil => cases ht
  | cons q todos ih =>
    obtain ⟨hq, hnodup⟩ := List.nodup_cons.mp h
    have hne : ∀ t' ∈ todos, t'.id ≠ q.id := fun t' ht' he => hq (List.mem_map.mpr ⟨t', ht', he⟩)
    rw [List.flatMap_cons, List.filter_append, List.map_append]
    rcases List.mem_cons.mp ht with rfl | ht
    · rw [filter_pairs_of_ne hne, List.map_nil, List.append_nil, List.filter_eq_self.mpr]
      · rw [Todo.pairs, List.map_map]
        exact List.map_id _
      · intro l hl
        obtain ⟨tag, _, rfl⟩ := List.mem_map.mp hl
        simp
    · rw [ih hnodup ht, List.filter_eq_nil_iff.mpr, List.map_nil, List.nil_append]
      intro l hl
      obtain ⟨tag, _, rfl⟩ := List.mem_map.mp hl
      simpa using (hne t ht).symm

/-! ## Rows of a group -/

namespace Workspace

section
variable {w : Workspace} (h : w.Consistent) {id : Uuid}
include h

theorem tagsOf_of_rows {tags : List Tag} (hrows : w.tags.filter (·.group = .id id) = tags.map Tag.row) :
    w.tagsOf id = .ok tags := by
  unfold tagsOf
  rw [requireTable_eq_ok.mpr (h.hasTable .tags), hrows]
  show (tags.map Tag.row).mapM TagRow.read = _
  rw [mapM_map_ok (g := fun t => t) Tag.read_row, List.map_id']

theorem todosOf_of_rows {todos : List Todo} (hrows : w.todos.filter (·.group = .id id) = todos.map Todo.row)
    (hlinks : w.linksOf id = todos.flatMap Todo.links) (hnodup : (todos.map (·.id)).Nodup) :
    w.todosOf id = .ok todos := by
  unfold todosOf
  rw [requireTable_eq_ok.mpr (h.hasTable .todos), requireTable_eq_ok.mpr (h.hasTable .links), hrows, hlinks]
  show ((todos.map Todo.row).mapM TodoRow.read >>= _) = _
  rw [mapM_map_ok Todo.read_row]
  show ((todos.flatMap Todo.links).mapM LinkRow.read >>= _) = _
  rw [mapM_read_links]
  show Except.ok _ = _
  rw [List.map_map]
  congr 1
  conv_rhs => rw [← List.map_id todos]
  refine List.map_congr_left fun t ht => ?_
  show ({ t with tags := ((todos.flatMap Todo.pairs).filter (·.1 = t.id)).map (·.2) } : Todo) = t
  rw [tags_of_pairs hnodup ht]

end

theorem nodup_of_rows {todos : List Todo} (h : ((todos.map Todo.row).map (·.id)).Nodup) :
    (todos.map (·.id)).Nodup := by
  have hmap : (todos.map Todo.row).map (·.id) = (todos.map (·.id)).map Key.id := by
    rw [List.map_map, List.map_map]
    rfl
  exact List.Nodup.of_map Key.id (hmap ▸ h)

/-! ## A new group -/

theorem filter_snoc_rows {α β : Type} {old : List β} {new : List α} {row : α → β} {p : β → Bool}
    (hold : ∀ x ∈ old, p x = false) (hnew : ∀ x ∈ new, p (row x) = true) :
    (old ++ new.map row).filter p = new.map row := by
  rw [List.filter_append, List.filter_eq_nil_iff.mpr, List.filter_eq_self.mpr, List.nil_append]
  · intro x hx
    obtain ⟨y, hy, rfl⟩ := List.mem_map.mp hx
    exact hnew y hy
  · exact fun x hx => by rw [hold x hx]; exact Bool.false_ne_true

section
variable {w : Workspace} {g : Group} {tags : List Tag} {todos : List Todo}
variable (hw : w.Consistent) (h : (w.add [g] tags todos).Consistent)
variable (htags : ∀ t ∈ tags, t.group = g.id) (htodos : ∀ t ∈ todos, t.group = g.id)
include h

theorem group_is_new : ∀ g' ∈ w.groups, g'.id ≠ .id g.id := by
  intro g' hg' hid
  have hnodup : ((w.groups ++ [g].map Group.row).map (·.id)).Nodup := h.groupIds
  rw [List.map_append, List.nodup_append] at hnodup
  exact hnodup.2.2 g'.id (List.mem_map_of_mem hg') (.id g.id) (by simp [Group.row]) hid

theorem group?_new :
    (w.add [g] tags todos).group? g.id =
      (readRatios 5 (g.goalRatios.map fun m => (Json.ofRatios m).compact)).map fun m =>
        some { g with goalRatios := m } := by
  have hfind : (w.add [g] tags todos).groups.find? (·.id = .id g.id) = some g.row := by
    show (w.groups ++ [g.row]).find? (·.id = .id g.id) = some g.row
    rw [List.find?_append, List.find?_eq_none.mpr, List.find?_cons_of_pos (by simp [Group.row])]
    · rfl
    · exact fun g' hg' hid => group_is_new h g' hg' (of_decide_eq_true hid)
  unfold group?
  rw [requireTable_eq_ok.mpr (h.hasTable .groups), hfind]
  show some <$> g.row.read = _
  rw [Group.read_row]
  cases readRatios 5 (g.goalRatios.map fun m => (Json.ofRatios m).compact) <;> rfl

include hw

theorem tags_new : ∀ t ∈ w.tags, t.group ≠ .id g.id := by
  intro t ht hid
  obtain ⟨g', hg', hgid, _⟩ := hw.tagGroup t ht
  exact group_is_new h g' hg' (hgid.trans hid)

theorem todos_new : ∀ t ∈ w.todos, t.group ≠ .id g.id := by
  intro t ht hid
  obtain ⟨g', hg', hgid, _⟩ := hw.todoGroup t ht
  exact group_is_new h g' hg' (hgid.trans hid)

include htags

theorem tagsOf_new : (w.add [g] tags todos).tagsOf g.id = .ok tags := by
  have hfilter : (w.add [g] tags todos).tags.filter (·.group = .id g.id) = tags.map Tag.row := by
    refine filter_snoc_rows (fun t ht => decide_eq_false (tags_new hw h t ht)) fun t ht => decide_eq_true ?_
    rw [← htags t ht]
    rfl
  exact tagsOf_of_rows h hfilter

omit htags
include htodos

theorem todos_filter_new :
    (w.add [g] tags todos).todos.filter (·.group = .id g.id) = todos.map Todo.row := by
  refine filter_snoc_rows (fun t ht => decide_eq_false (todos_new hw h t ht)) fun t ht => decide_eq_true ?_
  rw [← htodos t ht]
  rfl

/-- An old link belongs to an old todo, which stands in another group. -/
theorem linksOf_new : (w.add [g] tags todos).linksOf g.id = todos.flatMap Todo.links := by
  have hold : ∀ l ∈ w.links,
      ¬ ((w.add [g] tags todos).todos.any fun t => t.id = l.todo && t.group = .id g.id) = true := by
    intro l hl hany
    obtain ⟨t, ht, htl⟩ := List.any_eq_true.mp hany
    rw [Bool.and_eq_true, decide_eq_true_eq, decide_eq_true_eq] at htl
    obtain ⟨t', ht', _, _, hid, _⟩ := hw.linkEnds l hl
    have hsame : t = t' := h.mem_todos_inj ht (List.mem_append_left _ ht') (htl.1.trans hid.symm)
    exact todos_new hw h t' ht' (hsame ▸ htl.2)
  have hnew : ∀ l ∈ todos.flatMap Todo.links,
      ((w.add [g] tags todos).todos.any fun t => t.id = l.todo && t.group = .id g.id) = true := by
    intro l hl
    obtain ⟨t, ht, htl⟩ := List.mem_flatMap.mp hl
    obtain ⟨tag, _, rfl⟩ := List.mem_map.mp htl
    refine List.any_eq_true.mpr ⟨t.row, List.mem_append_right _ (List.mem_map_of_mem ht), ?_⟩
    rw [Bool.and_eq_true, ← htodos t ht]
    exact ⟨decide_eq_true rfl, decide_eq_true rfl⟩
  unfold linksOf
  show (w.links ++ todos.flatMap Todo.links).filter _ = _
  rw [List.filter_append, List.filter_eq_nil_iff.mpr hold, List.filter_eq_self.mpr hnew, List.nil_append]

omit hw htodos in
theorem nodup_new : (todos.map (·.id)).Nodup := by
  have hnodup : ((w.todos ++ todos.map Todo.row).map (·.id)).Nodup := h.todoIds
  rw [List.map_append, List.nodup_append] at hnodup
  exact nodup_of_rows hnodup.2.1

theorem todosOf_new : (w.add [g] tags todos).todosOf g.id = .ok todos :=
  todosOf_of_rows h (todos_filter_new hw h htodos) (linksOf_new hw h htodos) (nodup_new h)

end

theorem add_keptIn (w : Workspace) (groups : List Group) (tags : List Tag) (todos : List Todo) :
    w.KeptIn (w.add groups tags todos) :=
  ⟨List.prefix_append _ _, List.prefix_append _ _, List.prefix_append _ _, List.prefix_append _ _⟩

end Workspace

/-! ## Ratios of a group -/

section
variable {t : GroupTemplate}

theorem GroupTemplate.readRatios_finite (h : ∀ x ∈ t.ratios, x.isFinite = true) (index : Nat) :
    ∃ m, readRatios index (t.goalRatios.map fun m => (Json.ofRatios m).compact) = .ok m := by
  unfold ratios at h
  cases hm : t.goalRatios with
  | none => exact ⟨none, rfl⟩
  | some m =>
    rw [hm] at h
    exact ⟨_, PresetWorkspace.readRatios_finite (List.forall_mem_map.mp h) index⟩

theorem GroupTemplate.finite_of_readRatios {index : Nat} {m : Option Ratios}
    (h : readRatios index (t.goalRatios.map fun m => (Json.ofRatios m).compact) = .ok m) :
    ∀ x ∈ t.ratios, x.isFinite = true := by
  unfold ratios
  cases hm : t.goalRatios with
  | none => exact fun x hx => absurd hx List.not_mem_nil
  | some m =>
    rw [hm] at h
    refine List.forall_mem_map.mpr fun e he => ?_
    cases hfinite : e.2.isFinite with
    | true => rfl
    | false =>
      obtain ⟨e', he'⟩ := readRatios_infinite ⟨e, he, hfinite⟩ index
      rw [Option.map_some, he'] at h
      cases h

theorem GroupTemplate.readRatios_same (h : ∀ x ∈ t.ratios, x.reread = .ok x) (index : Nat) :
    readRatios index (t.goalRatios.map fun m => (Json.ofRatios m).compact) = .ok t.goalRatios := by
  unfold ratios at h
  cases hm : t.goalRatios with
  | none => rfl
  | some m =>
    rw [hm] at h
    exact PresetWorkspace.readRatios_same (List.forall_mem_map.mp h) index

end

/-! ## Presets -/

namespace Workspace

theorem Session.setUp_ok {source : Nat → Draw} {user name : String} {p : Preset} {s : Session} {r : Initialized Uuid}
    (h : (setUp source user name p s).1 = .ok r) :
    (p.materialize name (scope source user) s).1 = .ok r ∧
      (setUp source user name p s).2 = (p.materialize name (scope source user) s).2 := by
  have hadapt := Creating.ok_of_adapt h
  have hok : (p.materialize name (scope source user) s).1 = .ok r := by
    cases hbody : (p.materialize name (scope source user) s).1 with
    | ok r' =>
      rw [transaction_ok hbody, hbody] at hadapt
      exact hadapt
    | error e =>
      rw [transaction_error hbody] at hadapt
      cases hadapt
  refine ⟨hok, ?_⟩
  unfold setUp
  rw [Creating.adapt_apply, transaction_ok hok]

section
variable {w : Workspace} {user name : String} {p : Preset} {draw : Draw} {tags : List Tag} {todos : List Todo}
variable (hw : w.Consistent) (h : (w.add [p.group.request.record user draw] tags todos).Consistent)
include h

theorem group?_of_preset {g : Group} :
    (w.add [p.group.request.record user draw] tags todos).group? draw.id = .ok (some g) ↔
      ∃ m, readRatios 5 (p.group.goalRatios.map fun m => (Json.ofRatios m).compact) = .ok m ∧
        g = { p.group.request.record user draw with goalRatios := m } := by
  have hgroup : (w.add [p.group.request.record user draw] tags todos).group? draw.id =
      (readRatios 5 (p.group.goalRatios.map fun m => (Json.ofRatios m).compact)).map fun m =>
        some { p.group.request.record user draw with goalRatios := m } := group?_new h
  rw [hgroup]
  cases readRatios 5 (p.group.goalRatios.map fun m => (Json.ofRatios m).compact) with
  | error e =>
    constructor
    · intro hg
      cases hg
    · rintro ⟨m, hm, _⟩
      cases hm
  | ok m =>
    constructor
    · intro hg
      cases hg
      exact ⟨m, rfl, rfl⟩
    · rintro ⟨m, hm, rfl⟩
      cases hm
      rfl

include hw

theorem readsBack_of_rows (htemplates : tags.map Tag.template = p.tags)
    (htags : ∀ t ∈ tags, t.user = user ∧ t.group = draw.id)
    (hgrown : Grown user draw.id (tags.map fun t => (t.name, t.id)).reverse none p.todos todos) :
    p.ReadsBack user ⟨name, draw.id, p.tags.length, TodoTemplate.countAll p.todos⟩
      (w.add [p.group.request.record user draw] tags todos) tags todos := by
  have howned := hgrown.owned
  refine { group := ⟨?_, ?_⟩, groupColumns := ?_, groupRatios := ?_, tagRows := ?_, tagTemplates := htemplates,
           tagOwner := htags, todoRows := ?_, todoForest := ?_, todoOwner := howned, tagCount := rfl, todoCount := rfl,
           todoLength := hgrown.length_eq }
  · rintro ⟨g, hg⟩
    obtain ⟨m, hm, _⟩ := (group?_of_preset h).mp hg
    exact GroupTemplate.finite_of_readRatios hm
  · intro hfinite
    obtain ⟨m, hm⟩ := GroupTemplate.readRatios_finite hfinite 5
    exact ⟨_, (group?_of_preset h).mpr ⟨m, hm, rfl⟩⟩
  · intro g hg
    obtain ⟨m, _, rfl⟩ := (group?_of_preset h).mp hg
    exact ⟨rfl, rfl, rfl, rfl, rfl, rfl⟩
  · intro hsame
    exact ⟨_, (group?_of_preset h).mpr ⟨_, GroupTemplate.readRatios_same hsame 5, rfl⟩, rfl⟩
  · exact tagsOf_new hw h fun t ht => (htags t ht).2
  · exact todosOf_new hw h fun t ht => (howned t ht).2
  · exact hgrown.forest_eq (nodup_new h)

end

/-- Once a preset has been set up, whatever happened before, it reads back: its group, its tags in order, and the
forest of its todos. All rows of before are kept. -/
theorem setUp_reads_back {φ α : Type} (events : List (Event φ α)) {source : Nat → Draw} {user name : String}
    {p : Preset} {s : Session} {r : Initialized Uuid} (hs : s.workspace = after events)
    (h : (Session.setUp source user name p s).1 = .ok r) :
    let w := (Session.setUp source user name p s).2.workspace
    (∃ tags todos, p.ReadsBack user r w tags todos) ∧ r.presetName = name ∧ s.workspace.KeptIn w := by
  obtain ⟨hok, hsession⟩ := Session.setUp_ok h
  have hw : s.workspace.Consistent := by
    rw [hs]
    exact consistent_of_history events
  obtain ⟨draw, tags, todos, rfl, htemplates, htags, hgrown, hadd, hcons⟩ := materialize_ok hw hok
  rw [hsession]
  intro w
  have hrows : w = s.workspace.add [p.group.request.record user draw] tags todos := hadd
  rw [hrows]
  have hcons : (s.workspace.add [p.group.request.record user draw] tags todos).Consistent := hadd ▸ hcons
  refine ⟨⟨tags, todos, ?_⟩, rfl, add_keptIn _ _ _ _⟩
  exact readsBack_of_rows hw hcons htemplates htags hgrown

/-- Two tags have one name, which then stands for the second one. -/
theorem setUp_reads_back_last_tag :
    let source : Nat → Draw := fun n => ⟨⟨BitVec.ofNat 128 (n + 1)⟩, 0⟩
    let child : TodoTemplate := { title := "b", tagNames := some ["t", "u", "t"] }
    let p : Preset :=
      { name := "p", group := { name := "g", color := "c" }, tags := [⟨"t", "c", none⟩, ⟨"t", "d", none⟩],
        todos := [{ title := "a", children := some [child] }] }
    let s : Session := { workspace := after ([] : List (Event Unit Unit)) }
    let r : Initialized Uuid := ⟨"p", ⟨1⟩, 2, 2⟩
    (Session.setUp source "alice" "p" p s).1 = .ok r ∧
      ∃ tags todos, p.ReadsBack "alice" r (Session.setUp source "alice" "p" p s).2.workspace tags todos := by
  intro source child p s r
  have hok : (Session.setUp source "alice" "p" p s).1 = .ok r := by decide +kernel
  exact ⟨hok, (setUp_reads_back ([] : List (Event Unit Unit)) rfl hok).1⟩

/-- A preset with an infinite ratio is set up, and then its group cannot be read. -/
theorem setUp_unreadable :
    let source : Nat → Draw := fun n => ⟨⟨BitVec.ofNat 128 (n + 1)⟩, 0⟩
    let group : GroupTemplate := { name := "g", color := "c", goalRatios := some ⟨[("k", .infinity)], by decide⟩ }
    let out := Session.setUp source "alice" "p" { name := "p", group }
      { workspace := after ([] : List (Event Unit Unit)) }
    out.1 = .ok ⟨"p", ⟨1⟩, 0, 0⟩ ∧ (out.2.workspace.group? ⟨1⟩).toOption = none := by
  decide +kernel

end Workspace

end PresetWorkspace
