import PresetWorkspace.Proofs.History

/-!
# What a preset adds

Setting up a preset only adds rows: one for its group, one for each tag in
order, and one for each todo, a parent before all that is below it. `Grown`
says which todos a forest of templates has become; it follows the walk of
`createForest` root by root, so that `createForest_ok` and all that is read
off the rows later are inductions on it.
-/

namespace PresetWorkspace

open Workspace

def Tag.template (t : Tag) : TagTemplate := { name := t.name, color := t.color, description := t.description }

namespace Workspace

/-! ## More rows -/

def add (w : Workspace) (groups : List Group) (tags : List Tag) (todos : List Todo) : Workspace :=
  { w with
    groups := w.groups ++ groups.map Group.row
    tags := w.tags ++ tags.map Tag.row
    todos := w.todos ++ todos.map Todo.row
    links := w.links ++ todos.flatMap Todo.links }

theorem add_nil (w : Workspace) : w.add [] [] [] = w := by simp [add]

theorem add_add (w : Workspace) (groups groups' : List Group) (tags tags' : List Tag) (todos todos' : List Todo) :
    (w.add groups tags todos).add groups' tags' todos' =
      w.add (groups ++ groups') (tags ++ tags') (todos ++ todos') := by
  simp only [add, List.map_append, List.flatMap_append, List.append_assoc]

def adding (w : Workspace) (user : String) (draw : Draw) : Call Uuid → Workspace
  | .group r => w.add [r.record user draw] [] []
  | .tag r => w.add [] [r.record user draw] []
  | .todo r => w.add [] [] [r.record user draw]

theorem create_ok {w : Workspace} {user : String} {draw : Draw} {call : Call Uuid} {id : Uuid} (h : w.Consistent)
    (hok : (create user draw call w).1 = .ok id) :
    id = draw.id ∧ (create user draw call w).2 = w.adding user draw call := by
  have ho : Outcome w user draw call _ := create_outcome call
  generalize create user draw call w = out at ho hok
  cases ho with
  | rejected e => cases hok
  | unlinked e gone fresh => cases hok
  | group fresh =>
    cases hok
    exact ⟨rfl, by simp [adding, add]⟩
  | tag owned fresh =>
    cases hok
    exact ⟨rfl, by simp [adding, add]⟩
  | todo owned parent tags title fresh =>
    cases hok
    refine ⟨rfl, ?_⟩
    rw [linked_new (h.no_links fresh)]
    simp [adding, add, Todo.links, TodoRequest.record]

namespace Session

section
variable {source : Nat → Draw} {user : String} {s : Session}

theorem issue_ok {call : Call Uuid} {id : Uuid} (h : s.workspace.Consistent)
    (hok : ((Store.issue (scope source user) call : Creating (Rejected Error) Session Uuid) s).1 = .ok id) :
    let s' := ((Store.issue (scope source user) call : Creating (Rejected Error) Session Uuid) s).2
    id = (source s.drawn).id ∧ s'.workspace = s.workspace.adding user (source s.drawn) call ∧
      s'.workspace.Consistent := by
  unfold Store.issue at hok ⊢
  have hcall := Creating.ok_of_adapt hok
  obtain ⟨hanswer, hworkspace, _⟩ := scope_eq source user call s
  rw [hanswer] at hcall
  obtain ⟨hid, hadding⟩ := create_ok h hcall
  intro s'
  have hs' : s'.workspace = (create user (source s.drawn) call s.workspace).2 := hworkspace
  refine ⟨hid, hs'.trans hadding, ?_⟩
  rw [hs']
  exact h.create user _ call

end

end Session

end Workspace

/-! ## Tags -/

section
variable {source : Nat → Draw} {user : String}

theorem createTags_ok {group : Uuid} {ts : List TagTemplate} {ids ids' : TagIds Uuid} {s : Session}
    (h : s.workspace.Consistent) (hok : (createTags (Session.scope source user) group ts ids s).1 = .ok ids') :
    let s' := (createTags (Session.scope source user) group ts ids s).2
    ∃ tags : List Tag, tags.map Tag.template = ts ∧ (∀ t ∈ tags, t.user = user ∧ t.group = group) ∧
      ids' = (tags.map fun t => (t.name, t.id)).reverse ++ ids ∧ s'.workspace = s.workspace.add [] tags [] ∧
      s'.workspace.Consistent := by
  induction ts generalizing ids s with
  | nil =>
    cases hok
    exact ⟨[], rfl, fun _ ht => absurd ht List.not_mem_nil, rfl, (add_nil _).symm, h⟩
  | cons t ts ih =>
    simp only [createTags] at hok ⊢
    obtain ⟨id, hid, hrest⟩ := Creating.ok_of_bind hok
    obtain ⟨hdraw, hadding, hcons⟩ := Session.issue_ok h hid
    rw [hrest] at hok ⊢
    obtain ⟨tags, htemplates, howned, hids, hworkspace, hcons'⟩ := ih hcons hok
    refine ⟨(t.request group).record user (source s.drawn) :: tags, ?_, ?_, ?_, ?_, hcons'⟩
    · rw [List.map_cons, htemplates]
      rfl
    · exact List.forall_mem_cons.mpr ⟨⟨rfl, rfl⟩, howned⟩
    · rw [hids, hdraw, List.map_cons, List.reverse_cons, List.append_assoc]
      rfl
    · rw [hworkspace, hadding]
      exact add_add _ _ _ _ _ _ _

/-! ## Todos -/

/-- The todos that a forest has become below a parent, each root before all that is below it. -/
inductive Grown (user : String) (group : Uuid) (ids : TagIds Uuid) :
    Option Uuid → List TodoTemplate → List Todo → Prop
  | nil {parent} : Grown user group ids parent [] []
  | cons {parent t ts below rest} (draw : Draw)
      (subtodos : Grown user group ids (some draw.id) t.subtodos below)
      (siblings : Grown user group ids parent ts rest) :
      Grown user group ids parent (t :: ts) ((t.request group ids parent).record user draw :: (below ++ rest))

theorem Grown.length_eq {group : Uuid} {ids : TagIds Uuid} {parent : Option Uuid} {ts : List TodoTemplate}
    {todos : List Todo} (h : Grown user group ids parent ts todos) : todos.length = TodoTemplate.countAll ts := by
  induction h with
  | nil => rfl
  | cons draw subtodos siblings below rest =>
    rw [TodoTemplate.countAll_cons, List.length_cons, List.length_append, below, rest]
    omega

theorem Grown.owned {group : Uuid} {ids : TagIds Uuid} {parent : Option Uuid} {ts : List TodoTemplate}
    {todos : List Todo} (h : Grown user group ids parent ts todos) : ∀ t ∈ todos, t.user = user ∧ t.group = group := by
  induction h with
  | nil => exact fun _ ht => absurd ht List.not_mem_nil
  | cons draw subtodos siblings below rest =>
    exact List.forall_mem_cons.mpr ⟨⟨rfl, rfl⟩, List.forall_mem_append.mpr ⟨below, rest⟩⟩

theorem createForest_ok {group : Uuid} {ids : TagIds Uuid} {parent : Option Uuid} {ts : List TodoTemplate} {n : Nat}
    {s : Session} (h : s.workspace.Consistent)
    (hok : (createForest (Session.scope source user) group ids parent ts s).1 = .ok n) :
    let s' := (createForest (Session.scope source user) group ids parent ts s).2
    ∃ todos : List Todo, Grown user group ids parent ts todos ∧ n = TodoTemplate.countAll ts ∧
      s'.workspace = s.workspace.add [] [] todos ∧ s'.workspace.Consistent := by
  induction ts using TodoTemplate.forest_induction generalizing parent n s with
  | nil =>
    simp only [createForest] at hok ⊢
    cases hok
    exact ⟨[], .nil, rfl, (add_nil _).symm, h⟩
  | cons t ts below rest =>
    -- The root, all below it, and the trees after it, each from the rows that the one before has left.
    rw [createForest_cons] at hok ⊢
    obtain ⟨id, hid, hnext⟩ := Creating.ok_of_bind hok
    obtain ⟨rfl, hadding, hcons⟩ := Session.issue_ok h hid
    rw [hnext] at hok ⊢
    obtain ⟨m, hm, hnext⟩ := Creating.ok_of_bind hok
    obtain ⟨todos, hgrown, rfl, hworkspace, hcons⟩ := below hcons hm
    rw [hnext] at hok ⊢
    obtain ⟨m, hm, hnext⟩ := Creating.ok_of_bind hok
    obtain ⟨todos', hgrown', rfl, hworkspace', hcons⟩ := rest hcons hm
    rw [hnext] at hok ⊢
    cases hok
    refine ⟨_, .cons (source s.drawn) hgrown hgrown', (TodoTemplate.countAll_cons t ts).symm, ?_, hcons⟩
    show ((createForest (Session.scope source user) group ids parent ts _).2).workspace = _
    rw [hworkspace', hworkspace, hadding]
    simp only [adding, add_add, List.append_nil, List.nil_append, List.cons_append]

/-! ## Presets -/

theorem materialize_ok {p : Preset} {name : String} {r : Initialized Uuid} {s : Session} (h : s.workspace.Consistent)
    (hok : (p.materialize name (Session.scope source user) s).1 = .ok r) :
    let s' := (p.materialize name (Session.scope source user) s).2
    ∃ (draw : Draw) (tags : List Tag) (todos : List Todo),
      r = { presetName := name, groupId := draw.id, tagsCreated := p.tags.length,
            todosCreated := TodoTemplate.countAll p.todos } ∧
        tags.map Tag.template = p.tags ∧ (∀ t ∈ tags, t.user = user ∧ t.group = draw.id) ∧
        Grown user draw.id (tags.map fun t => (t.name, t.id)).reverse none p.todos todos ∧
        s'.workspace = s.workspace.add [p.group.request.record user draw] tags todos ∧ s'.workspace.Consistent := by
  unfold Preset.materialize at hok ⊢
  obtain ⟨id, hid, hnext⟩ := Creating.ok_of_bind hok
  obtain ⟨rfl, hadding, hcons⟩ := Session.issue_ok h hid
  rw [hnext] at hok ⊢
  obtain ⟨ids, hids, hnext⟩ := Creating.ok_of_bind hok
  obtain ⟨tags, htemplates, howned, rfl, hworkspace, hcons⟩ := createTags_ok hcons hids
  rw [hnext] at hok ⊢
  obtain ⟨n, hn, hnext⟩ := Creating.ok_of_bind hok
  obtain ⟨todos, hgrown, rfl, hworkspace', hcons⟩ := createForest_ok hcons hn
  rw [hnext] at hok ⊢
  cases hok
  rw [List.append_nil] at hgrown
  refine ⟨source s.drawn, tags, todos, rfl, htemplates, howned, hgrown, ?_, hcons⟩
  refine hworkspace'.trans ?_
  rw [hworkspace, hadding]
  simp only [adding, add_add, List.append_nil, List.nil_append]

end

end PresetWorkspace
