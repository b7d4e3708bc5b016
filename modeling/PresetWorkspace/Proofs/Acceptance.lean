import PresetWorkspace.Proofs.Checks
import PresetWorkspace.Proofs.History

/-!
# What is accepted

Where all tables are there and new ids are new, a preset asks for nothing that
can be refused but a title: its group is the user's, its tags are in it, and a
parent is created before its children (`Ready`). So `materialize_eq` tells the
result of setting up a preset from its titles, and the first one that is none
stops it.
-/

namespace PresetWorkspace

open Workspace

/-! ## Titles -/

mutual

def TodoTemplate.titlesOf : TodoTemplate → List String
  | ⟨title, _, _, none⟩ => [title]
  | ⟨title, _, _, some ts⟩ => title :: TodoTemplate.titles ts

def TodoTemplate.titles : List TodoTemplate → List String
  | [] => []
  | t :: ts => t.titlesOf ++ TodoTemplate.titles ts

end

theorem TodoTemplate.titles_cons (t : TodoTemplate) (ts : List TodoTemplate) :
    titles (t :: ts) = t.title :: (titles t.subtodos ++ titles ts) := by
  obtain ⟨title, description, tagNames, _ | below⟩ := t <;> simp [titles, titlesOf, subtodos]

def TodoTemplate.untitled? (ts : List TodoTemplate) : Option String := (titles ts).find? fun s => !isTitle s

theorem TodoTemplate.untitled?_cons (t : TodoTemplate) (ts : List TodoTemplate) :
    untitled? (t :: ts) = if isTitle t.title then (untitled? t.subtodos).or (untitled? ts) else some t.title := by
  unfold untitled?
  rw [titles_cons, List.find?_cons, List.find?_append]
  cases isTitle t.title <;> rfl

theorem TodoTemplate.untitled?_eq_none {ts : List TodoTemplate} :
    untitled? ts = none ↔ ∀ s ∈ titles ts, isTitle s = true := by
  unfold untitled?
  rw [List.find?_eq_none]
  simp only [Bool.not_eq_true', Bool.not_eq_false]

theorem mem_of_tagIds {t : TodoTemplate} {ids : TagIds Uuid} {id : Uuid} (h : id ∈ (t.tagIds ids).getD []) :
    id ∈ ids.map (·.2) := by
  rw [TodoTemplate.tagIds_eq_ite] at h
  split at h
  · cases h
  · obtain ⟨name, -, hlookup⟩ := List.mem_filterMap.mp h
    obtain ⟨front, back, rfl, -⟩ := List.lookup_eq_some_iff.mp hlookup
    simp

namespace Workspace

/-! ## What a call leaves -/

structure More (w w' : Workspace) (id : Uuid) : Prop where
  tables : w'.dropped = w.dropped
  groups : w.groups ⊆ w'.groups
  tags : w.tags ⊆ w'.tags
  todos : w.todos ⊆ w'.todos
  newGroups : ∀ g ∈ w'.groups, g ∈ w.groups ∨ g.id = .id id
  newTags : ∀ t ∈ w'.tags, t ∈ w.tags ∨ t.id = .id id
  newTodos : ∀ t ∈ w'.todos, t ∈ w.todos ∨ t.id = .id id

theorem more_self (w : Workspace) (id : Uuid) : More w w id :=
  ⟨rfl, List.Subset.refl _, List.Subset.refl _, List.Subset.refl _, fun _ => .inl, fun _ => .inl, fun _ => .inl⟩

theorem mem_snoc {α : Type} {l : List α} {x : α} {P : α → Prop} (hx : P x) : ∀ y ∈ l ++ [x], y ∈ l ∨ P y := by
  intro y hy
  rcases List.mem_append.mp hy with hy | hy
  · exact .inl hy
  · rw [List.mem_singleton.mp hy]
    exact .inr hx

theorem create_more (user : String) (draw : Draw) (call : Call Uuid) (w : Workspace) :
    More w (create user draw call w).2 draw.id := by
  have ho : Outcome w user draw call _ := create_outcome call
  generalize create user draw call w = out at ho
  cases ho with
  | rejected e => exact more_self w _
  | group fresh => exact { more_self w _ with groups := List.subset_append_left _ _, newGroups := mem_snoc rfl }
  | tag owned fresh => exact { more_self w _ with tags := List.subset_append_left _ _, newTags := mem_snoc rfl }
  | todo owned parent tags title fresh =>
    exact { more_self w _ with todos := List.subset_append_left _ _, newTodos := mem_snoc rfl }
  | unlinked e gone fresh =>
    exact { more_self w _ with todos := List.subset_append_left _ _, newTodos := mem_snoc rfl }

section
variable {w w' : Workspace} {user : String} {id new : Uuid} (h : More w w' new)
include h

theorem More.ownsGroup (howns : w.ownsGroup user id = true) : w'.ownsGroup user id = true := by
  obtain ⟨g, hg, hid⟩ := ownsGroup_iff.mp howns
  exact ownsGroup_iff.mpr ⟨g, h.groups hg, hid⟩

theorem More.ownsTag (howns : w.ownsTag user id = true) : w'.ownsTag user id = true := by
  obtain ⟨t, ht, hid⟩ := ownsTag_iff.mp howns
  exact ownsTag_iff.mpr ⟨t, h.tags ht, hid⟩

theorem More.ownsTodo {group : Uuid} (howns : w.ownsTodo user group id = true) : w'.ownsTodo user group id = true := by
  obtain ⟨t, ht, hid⟩ := ownsTodo_iff.mp howns
  exact ownsTodo_iff.mpr ⟨t, h.todos ht, hid⟩

end

/-! ## What a call needs -/

section
variable {w : Workspace} {user : String} {draw : Draw} (htables : w.dropped = [])
include htables

theorem create_group_accepts {r : GroupRequest} (fresh : ∀ g ∈ w.groups, g.id ≠ .id draw.id) :
    (create user draw (.group r) w).1 = .ok draw.id ∧
      (create user draw (.group r) w).2.ownsGroup user draw.id = true := by
  have hadd : w.addGroup user draw r = .ok _ := addGroup_eq_ok.mpr ⟨hasTable_of_dropped htables _, fresh, rfl⟩
  have hcreate : create user draw (.group r) w = create.finish draw w (w.addGroup user draw r) := rfl
  rw [hcreate, hadd]
  exact ⟨rfl, ownsGroup_iff.mpr ⟨_, List.mem_append_right _ (List.mem_singleton_self _), rfl, rfl⟩⟩

theorem create_tag_accepts {r : TagRequest Uuid} (owned : w.ownsGroup user r.group = true)
    (fresh : ∀ t ∈ w.tags, t.id ≠ .id draw.id) :
    (create user draw (.tag r) w).1 = .ok draw.id ∧ (create user draw (.tag r) w).2.ownsTag user draw.id = true := by
  have htable := hasTable_of_dropped htables
  have hadd : w.addTag user draw r = .ok _ :=
    addTag_eq_ok.mpr ⟨requireGroup_eq_ok.mpr ⟨htable _, owned⟩, htable _, fresh, rfl⟩
  have hcreate : create user draw (.tag r) w = create.finish draw w (w.addTag user draw r) := rfl
  rw [hcreate, hadd]
  exact ⟨rfl, ownsTag_iff.mpr ⟨_, List.mem_append_right _ (List.mem_singleton_self _), rfl, rfl⟩⟩

section
variable {r : TodoRequest Uuid} (owned : w.ownsGroup user r.group = true)
  (parent : ∀ id ∈ r.parent, w.ownsTodo user r.group id = true) (tags : ∀ id ∈ r.tags.getD [], w.ownsTag user id = true)
include owned parent tags

theorem create_todo_accepts (title : isTitle r.title = true) (fresh : ∀ t ∈ w.todos, t.id ≠ .id draw.id) :
    (create user draw (.todo r) w).1 = .ok draw.id ∧
      (create user draw (.todo r) w).2.ownsTodo user r.group draw.id = true := by
  have hpasses : r.fault? w user = none :=
    TodoRequest.fault?_eq_none.mpr (TodoRequest.forall_checks.mpr ⟨owned, parent, tags, isTitle_iff.mp title⟩)
  rw [create_todo_eq htables fresh, hpasses]
  exact ⟨rfl, ownsTodo_iff.mpr ⟨_, List.mem_append_right _ (List.mem_singleton_self _), rfl, rfl, rfl⟩⟩

theorem create_todo_rejects (title : ¬ isTitle r.title = true) (fresh : ∀ t ∈ w.todos, t.id ≠ .id draw.id) :
    (create user draw (.todo r) w).1 = .error .emptyTitle := by
  rw [isTitle_iff, Nat.not_lt, Nat.le_zero] at title
  rw [create_todo_eq htables fresh, TodoRequest.fault?_of_title owned parent tags title]

end

end

/-! ## Readiness -/

namespace Session

/-- The draws up to the last one have ids of their own, which no row has. -/
structure Fresh (source : Nat → Draw) (last : Nat) (s : Session) : Prop where
  distinct : ∀ m n, s.drawn ≤ m → m < n → n < last → (source m).id ≠ (source n).id
  groups : ∀ n, s.drawn ≤ n → n < last → ∀ g ∈ s.workspace.groups, g.id ≠ .id (source n).id
  tags : ∀ n, s.drawn ≤ n → n < last → ∀ t ∈ s.workspace.tags, t.id ≠ .id (source n).id
  todos : ∀ n, s.drawn ≤ n → n < last → ∀ t ∈ s.workspace.todos, t.id ≠ .id (source n).id

/-- A session in which todos of a user's group can be created below a parent and with some tags. -/
structure Ready (source : Nat → Draw) (last : Nat) (user : String) (group : Uuid) (tags : List Uuid)
    (parent : Option Uuid) (s : Session) : Prop where
  tables : s.workspace.dropped = []
  fresh : Fresh source last s
  ownsGroup : s.workspace.ownsGroup user group = true
  ownsTags : ∀ id ∈ tags, s.workspace.ownsTag user id = true
  ownsParent : ∀ id ∈ parent, s.workspace.ownsTodo user group id = true

section
variable {source : Nat → Draw} {last : Nat} {user : String} {s : Session} {group : Uuid} {tags : List Uuid}
  {parent : Option Uuid}

theorem Fresh.scope (h : Fresh source last s) (call : Call Uuid) : Fresh source last (scope source user call s).2 := by
  obtain ⟨-, hworkspace, hdrawn⟩ := scope_eq source user call s
  have hmore := create_more user (source s.drawn) call s.workspace
  rw [← hworkspace] at hmore
  have hlater {n : Nat} (hn : s.drawn + 1 ≤ n) (hlast : n < last) : Key.id (source s.drawn).id ≠ .id (source n).id := by
    simpa using h.distinct s.drawn n (Nat.le_refl _) hn hlast
  constructor
  · intro m n hm hmn hn
    rw [hdrawn] at hm
    exact h.distinct m n (Nat.le_of_succ_le hm) hmn hn
  · intro n hn hlast g hg
    rw [hdrawn] at hn
    rcases hmore.newGroups g hg with hold | hnew
    · exact h.groups n (Nat.le_of_succ_le hn) hlast g hold
    · rw [hnew]
      exact hlater hn hlast
  · intro n hn hlast t ht
    rw [hdrawn] at hn
    rcases hmore.newTags t ht with hold | hnew
    · exact h.tags n (Nat.le_of_succ_le hn) hlast t hold
    · rw [hnew]
      exact hlater hn hlast
  · intro n hn hlast t ht
    rw [hdrawn] at hn
    rcases hmore.newTodos t ht with hold | hnew
    · exact h.todos n (Nat.le_of_succ_le hn) hlast t hold
    · rw [hnew]
      exact hlater hn hlast

theorem Ready.scope (h : Ready source last user group tags parent s) (call : Call Uuid) :
    Ready source last user group tags parent (scope source user call s).2 := by
  obtain ⟨-, hworkspace, -⟩ := scope_eq source user call s
  have hmore := create_more user (source s.drawn) call s.workspace
  rw [← hworkspace] at hmore
  refine ⟨hmore.tables.trans h.tables, h.fresh.scope call, hmore.ownsGroup h.ownsGroup, ?_, ?_⟩
  · intro id hid
    exact hmore.ownsTag (h.ownsTags id hid)
  · intro id hid
    exact hmore.ownsTodo (h.ownsParent id hid)

theorem createForest_ready (ts : List TodoTemplate) (ids : TagIds Uuid) (parent' : Option Uuid)
    (h : Ready source last user group tags parent s) :
    Ready source last user group tags parent (createForest (Session.scope source user) group ids parent' ts s).2 := by
  obtain ⟨b, hb⟩ := createForest_isScript (ι := Uuid) (ε := Error) group ids parent' ts
  have hrun : createForest (Session.scope source user) group ids parent' ts = b.run _ := hb _ _
  rw [hrun]
  exact Script.run_keeps _ (fun call _ hs => hs.scope call) b h

end

/-! ## Draws -/

section
variable (source : Nat → Draw) (user : String)

theorem drawn_le_of_stopping {α : Type} {n : Nat} {b : Script Uuid Error (Rejected Error) α} (h : b.Stopping n)
    (s : Session) : (b.run (scope source user) s).2.drawn ≤ s.drawn + n := by
  induction h generalizing s with
  | give v => exact Nat.le_refl s.drawn
  | @ask n call next stops goesOn ih =>
    have hdrawn := (scope_eq source user call s).2.2
    rw [Script.run_ask]
    cases hcall : (scope source user call s).1 with
    | ok id =>
      have := ih id (scope source user call s).2
      omega
    | error e =>
      rw [stops e, Script.run_fail]
      dsimp only
      omega

theorem createTags_drawn (group : Uuid) (ts : List TagTemplate) (ids : TagIds Uuid) (s : Session) :
    (createTags (scope source user) group ts ids s).2.drawn ≤ s.drawn + ts.length := by
  obtain ⟨b, hstops, hb⟩ := createTags_isStopping (ι := Uuid) (ε := Error) group ts ids
  have hrun : createTags (scope source user) group ts ids = b.run (scope source user) := hb _ _
  rw [hrun]
  exact drawn_le_of_stopping source user hstops s

theorem createForest_drawn (group : Uuid) (ids : TagIds Uuid) (parent : Option Uuid) (ts : List TodoTemplate)
    (s : Session) :
    (createForest (scope source user) group ids parent ts s).2.drawn ≤ s.drawn + TodoTemplate.countAll ts := by
  obtain ⟨b, hstops, hb⟩ := createForest_isStopping (ι := Uuid) (ε := Error) group ids parent ts
  have hrun : createForest (scope source user) group ids parent ts = b.run (scope source user) := hb _ _
  rw [hrun]
  exact drawn_le_of_stopping source user hstops s

end

/-! ## The result of a preset -/

section
variable {source : Nat → Draw} {user : String} {call : Call Uuid} {s : Session} {α : Type}
  {f : Uuid → Creating (Rejected Error) Session α}

theorem bind_issue_ok {id : Uuid} (h : (create user (source s.drawn) call s.workspace).1 = .ok id) :
    (Store.issue (scope source user) call >>= f) s = f id (scope source user call s).2 := by
  apply Creating.bind_of_ok
  unfold Store.issue
  rw [Creating.adapt_apply, (scope_eq source user call s).1, h]
  rfl

theorem bind_issue_error {e : Error} (h : (create user (source s.drawn) call s.workspace).1 = .error e) :
    (Store.issue (scope source user) call >>= f) s =
      (.error ⟨call.subject, call.label, e⟩, (scope source user call s).2) := by
  apply Creating.bind_of_error
  unfold Store.issue
  rw [Creating.adapt_apply, (scope_eq source user call s).1, h]
  rfl

end

section
variable {source : Nat → Draw} {last : Nat} {user : String} {s : Session} {group : Uuid} {tags : List Uuid}
  {parent : Option Uuid}

theorem createTags_eq (ts : List TagTemplate) (ids : TagIds Uuid)
    (h : Ready source last user group (ids.map (·.2)) parent s) (hlast : s.drawn + ts.length ≤ last) :
    ∃ ids', (createTags (Session.scope source user) group ts ids s).1 = .ok ids' ∧
      Ready source last user group (ids'.map (·.2)) parent (createTags (Session.scope source user) group ts ids s).2 := by
  induction ts generalizing ids s with
  | nil => exact ⟨ids, rfl, h⟩
  | cons t ts ih =>
    rw [List.length_cons] at hlast
    obtain ⟨-, hworkspace, hdrawn⟩ := scope_eq source user (.tag (t.request group)) s
    obtain ⟨hok, howns⟩ := create_tag_accepts h.tables (r := t.request group) h.ownsGroup
      (h.fresh.tags _ (Nat.le_refl _) (by omega))
    rw [← hworkspace] at howns
    have hnext := h.scope (.tag (t.request group))
    rw [createTags, bind_issue_ok hok]
    apply ih ((t.name, (source s.drawn).id) :: ids)
    · exact ⟨hnext.tables, hnext.fresh, hnext.ownsGroup, List.forall_mem_cons.mpr ⟨howns, hnext.ownsTags⟩,
        hnext.ownsParent⟩
    · omega

/-- A forest comes into being, or stops at the first title that is none. -/
theorem createForest_eq (ts : List TodoTemplate) (ids : TagIds Uuid)
    (h : Ready source last user group (ids.map (·.2)) parent s) (hlast : s.drawn + TodoTemplate.countAll ts ≤ last) :
    (createForest (Session.scope source user) group ids parent ts s).1 =
      match TodoTemplate.untitled? ts with
      | none => .ok (TodoTemplate.countAll ts)
      | some title => .error ⟨.todo, title, .emptyTitle⟩ := by
  induction ts using TodoTemplate.forest_induction generalizing parent s with
  | nil => rfl
  | cons t ts below rest =>
    rw [TodoTemplate.countAll_cons] at hlast
    have htags : ∀ id ∈ (t.request group ids parent).tags.getD [], s.workspace.ownsTag user id = true := by
      intro id hid
      exact h.ownsTags id (mem_of_tagIds hid)
    rw [createForest_cons, TodoTemplate.untitled?_cons]
    by_cases htitle : isTitle t.title = true
    · -- The root is there; it is the parent of what is below it, and what comes after has the old one.
      obtain ⟨-, hworkspace, hdrawn⟩ := scope_eq source user (.todo (t.request group ids parent)) s
      obtain ⟨hok, howns⟩ :=
        create_todo_accepts h.tables (r := t.request group ids parent) h.ownsGroup h.ownsParent htags
        htitle (h.fresh.todos _ (Nat.le_refl _) (by omega))
      rw [← hworkspace] at howns
      have hnext := h.scope (.todo (t.request group ids parent))
      have hchild : Ready source last user group (ids.map (·.2)) (some (source s.drawn).id)
          (Session.scope source user (.todo (t.request group ids parent)) s).2 := by
        refine ⟨hnext.tables, hnext.fresh, hnext.ownsGroup, hnext.ownsTags, ?_⟩
        intro id hid
        rw [← Option.mem_some_iff.mp hid]
        exact howns
      have hbelow := below hchild (by omega)
      have hdrawn' := createForest_drawn source user group ids (some (source s.drawn).id) t.subtodos
        (Session.scope source user (.todo (t.request group ids parent)) s).2
      have hrest := rest (createForest_ready t.subtodos ids (some (source s.drawn).id) hnext) (by omega)
      rw [bind_issue_ok hok, if_pos htitle]
      cases huntitled : TodoTemplate.untitled? t.subtodos with
      | some title =>
        rw [huntitled] at hbelow
        rw [Creating.bind_of_error hbelow]
        rfl
      | none =>
        rw [huntitled] at hbelow
        rw [Creating.bind_of_ok hbelow, Option.none_or]
        cases huntitled' : TodoTemplate.untitled? ts with
        | some title =>
          rw [huntitled'] at hrest
          rw [Creating.bind_of_error hrest]
        | none =>
          rw [huntitled'] at hrest
          rw [Creating.bind_of_ok hrest, TodoTemplate.countAll_cons]
          rfl
    · have hrejects := create_todo_rejects h.tables (r := t.request group ids parent) h.ownsGroup h.ownsParent htags
        htitle (h.fresh.todos _ (Nat.le_refl _) (by omega))
      rw [bind_issue_error hrejects, if_neg htitle]
      rfl

end

end Session

end Workspace

def Preset.recordCount (p : Preset) : Nat := 1 + p.tags.length + TodoTemplate.countAll p.todos

namespace Workspace.Session

/-- Setting up a preset makes all of its records, or stops at the first title that is none. -/
theorem materialize_eq {source : Nat → Draw} {last : Nat} {user : String} {s : Session} (p : Preset) (name : String)
    (htables : s.workspace.dropped = []) (hfresh : Fresh source last s) (hlast : s.drawn + p.recordCount ≤ last) :
    (p.materialize name (Session.scope source user) s).1 =
      match TodoTemplate.untitled? p.todos with
      | none => .ok
        { presetName := name
          groupId := (source s.drawn).id
          tagsCreated := p.tags.length
          todosCreated := TodoTemplate.countAll p.todos }
      | some title => .error ⟨.todo, title, .emptyTitle⟩ := by
  unfold Preset.recordCount at hlast
  obtain ⟨-, hworkspace, hdrawn⟩ := scope_eq source user (.group p.group.request) s
  obtain ⟨hok, howns⟩ := create_group_accepts htables (r := p.group.request)
    (hfresh.groups _ (Nat.le_refl _) (by omega))
  rw [← hworkspace] at howns
  have hmore := create_more user (source s.drawn) (.group p.group.request) s.workspace
  rw [← hworkspace] at hmore
  have hready : Ready source last user (source s.drawn).id [] none
      (Session.scope source user (.group p.group.request) s).2 :=
    ⟨hmore.tables.trans htables, hfresh.scope _, howns, by simp, by simp⟩
  obtain ⟨ids, hids, hready'⟩ := createTags_eq p.tags [] hready (by omega)
  have hdrawn' := createTags_drawn source user (source s.drawn).id p.tags []
    (Session.scope source user (.group p.group.request) s).2
  have hforest := createForest_eq p.todos ids hready' (by omega)
  unfold Preset.materialize
  rw [bind_issue_ok hok, Creating.bind_of_ok hids]
  cases huntitled : TodoTemplate.untitled? p.todos with
  | some title =>
    rw [huntitled] at hforest
    rw [Creating.bind_of_error hforest]
  | none =>
    rw [huntitled] at hforest
    rw [Creating.bind_of_ok hforest]
    rfl

theorem setUp_eq {source : Nat → Draw} {last : Nat} {user : String} {s : Session} (p : Preset) (name : String)
    (htables : s.workspace.dropped = []) (hfresh : Fresh source last s) (hlast : s.drawn + p.recordCount ≤ last) :
    (setUp source user name p s).1 =
      match TodoTemplate.untitled? p.todos with
      | none => .ok
        { presetName := name
          groupId := (source s.drawn).id
          tagsCreated := p.tags.length
          todosCreated := TodoTemplate.countAll p.todos }
      | some title => .error
        ((rejection ⟨.todo, title, .emptyTitle⟩).within ("Failed to initialize preset '" ++ name ++ "'")) := by
  have hmaterialize : (p.materialize name (scope source user) s).1 = _ := materialize_eq p name htables hfresh hlast
  unfold setUp
  rw [Creating.adapt_apply]
  cases huntitled : TodoTemplate.untitled? p.todos with
  | none =>
    rw [huntitled] at hmaterialize
    rw [transaction_ok hmaterialize, hmaterialize]
    rfl
  | some title =>
    rw [huntitled] at hmaterialize
    rw [transaction_error hmaterialize]
    rfl

end Workspace.Session

end PresetWorkspace
