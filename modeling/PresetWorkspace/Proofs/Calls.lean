import Mathlib.Data.List.Nodup
import PresetWorkspace.Proofs.Levels

/-!
# The calls of a preset

`Preset.calls` lists the calls of a preset, given the ids that they get: the
group, the tags, and the todos in document order below their parents. These
are the calls that a store sees which takes them all (`materialize_calls`).
The first todo below another one comes right after it, so its parent is the
todo before, and the calls alone give back the forest (`forestOfCalls`).
-/

namespace PresetWorkspace

variable {ι ε σ : Type}

/-! ## The list of calls -/

namespace TodoTemplate

mutual

/-- A todo and all below it in document order, each with the place of its parent in that order. -/
def placedTree (parent : Option Nat) (place : Nat) : TodoTemplate → List (TodoTemplate × Option Nat)
  | ⟨title, description, tagNames, none⟩ => [(⟨title, description, tagNames, none⟩, parent)]
  | ⟨title, description, tagNames, some ts⟩ =>
    (⟨title, description, tagNames, some ts⟩, parent) :: placed (some place) (place + 1) ts

def placed (parent : Option Nat) (place : Nat) : List TodoTemplate → List (TodoTemplate × Option Nat)
  | [] => []
  | t :: ts => placedTree parent place t ++ placed parent (place + t.count) ts

end

theorem placed_cons (parent : Option Nat) (place : Nat) (t : TodoTemplate) (ts : List TodoTemplate) :
    placed parent place (t :: ts) =
      (t, parent) :: (placed (some place) (place + 1) t.subtodos ++
        placed parent (place + (1 + countAll t.subtodos)) ts) := by
  rw [← count_eq]
  obtain ⟨title, description, tagNames, _ | below⟩ := t <;> simp [placed, placedTree, subtodos]

def lastId? (tags : List (TagTemplate × ι)) (name : String) : Option ι :=
  (tags.reverse.find? (·.1.name = name)).map (·.2)

/-- A todo as a store is asked for it: below the todo with the id of its parent's place, with the last tag
of each of its names. Without names it asks for no tags at all. -/
def asked (group : ι) (tags : List (TagTemplate × ι)) (todos : List ι) (t : TodoTemplate) (parent : Option Nat) :
    TodoRequest ι where
  title := t.title
  description := t.description
  group := group
  tags := if t.tagNames.getD [] = [] then none else some ((t.tagNames.getD []).filterMap (lastId? tags))
  parent := parent.bind (todos[·]?)

end TodoTemplate

def Preset.calls (p : Preset) (group : ι) (tags todos : List ι) : List (Call ι) :=
  .group
      { name := p.group.name
        color := p.group.color
        description := p.group.description
        goalRatios := p.group.goalRatios
        isTodoGroup := p.group.isTodoGroup } ::
    (p.tags.map fun t => .tag { name := t.name, color := t.color, description := t.description, group }) ++
    (TodoTemplate.placed none 0 p.todos).map fun e => .todo (e.1.asked group (p.tags.zip tags) todos e.2)

def Call.todo? : Call ι → Option (TodoRequest ι)
  | .group _ => none
  | .tag _ => none
  | .todo r => some r

/-! ## What a store sees -/

theorem request_eq_asked (group : ι) (tags : List (TagTemplate × ι)) (todos : List ι) (t : TodoTemplate)
    (parent : Option Nat) :
    t.request group (tags.map fun e => (e.1.name, e.2)).reverse (parent.bind (todos[·]?)) =
      t.asked group tags todos parent := by
  have hlookup : (List.lookup · (tags.map fun e => (e.1.name, e.2)).reverse) = TodoTemplate.lastId? tags :=
    funext (lookup_reverse tags (·.1.name) (·.2))
  unfold TodoTemplate.request TodoTemplate.asked
  rw [TodoTemplate.tagIds_eq_ite, hlookup]

theorem recording_of_ok {store : Store ι ε σ} {call : Call ι} {s : σ} {id : ι} (h : (store call s).1 = .ok id)
    (log : List (Call ι × ι)) : store.recording call (s, log) = (.ok id, (store call s).2, (call, id) :: log) := by
  unfold Store.recording
  cases hcall : store call s with
  | mk answer s' =>
    rw [hcall] at h
    cases h
    simp [ExceptT.mk, hcall]

section
variable {store : Store ι ε σ} (haccepts : ∀ call s, ∃ id, (store call s).1 = .ok id)
include haccepts

theorem issue_recording (call : Call ι) (s : σ) (log : List (Call ι × ι)) :
    ∃ id s', store.recording.issue call (s, log) = (.ok id, s', (call, id) :: log) := by
  obtain ⟨id, hid⟩ := haccepts call s
  refine ⟨id, (store call s).2, ?_⟩
  unfold Store.issue
  rw [Creating.adapt_apply, recording_of_ok hid]
  rfl

theorem createTags_recording (group : ι) (ts : List TagTemplate) (ids : TagIds ι) (s : σ) (log : List (Call ι × ι)) :
    ∃ (new : List (Call ι × ι)) (s' : σ),
      createTags store.recording group ts ids (s, log) =
          (.ok (((ts.zip (new.map (·.2))).map fun e => (e.1.name, e.2)).reverse ++ ids), s', new.reverse ++ log) ∧
        new.map (·.1) = ts.map fun t => .tag (t.request group) := by
  induction ts generalizing ids s log with
  | nil => exact ⟨[], s, rfl, rfl⟩
  | cons t ts ih =>
    obtain ⟨id, s', hissue⟩ := issue_recording haccepts (.tag (t.request group)) s log
    obtain ⟨new, s'', hrest, hcalls⟩ := ih ((t.name, id) :: ids) s' ((.tag (t.request group), id) :: log)
    refine ⟨(.tag (t.request group), id) :: new, s'', ?_, ?_⟩
    · rw [createTags, Creating.bind_apply, hissue]
      simp only
      rw [hrest]
      simp
    · rw [List.map_cons, List.map_cons, hcalls]

theorem createForest_recording (group : ι) (ids : TagIds ι) (ts : List TodoTemplate) (parent : Option Nat)
    (prior : List ι) (hparent : ∀ place ∈ parent, place < prior.length) (s : σ) (log : List (Call ι × ι)) :
    ∃ (new : List (Call ι × ι)) (s' : σ),
      createForest store.recording group ids (parent.bind (prior[·]?)) ts (s, log) =
          (.ok (TodoTemplate.countAll ts), s', new.reverse ++ log) ∧
        new.length = TodoTemplate.countAll ts ∧
        ∀ later, new.map (·.1) = (TodoTemplate.placed parent prior.length ts).map fun e =>
          .todo (e.1.request group ids (e.2.bind ((prior ++ new.map (·.2) ++ later)[·]?))) := by
  induction ts using TodoTemplate.forest_induction generalizing parent prior s log with
  | nil => exact ⟨[], s, rfl, rfl, fun _ => rfl⟩
  | cons t ts below rest =>
    have hprior (more : List ι) : parent.bind ((prior ++ more)[·]?) = parent.bind (prior[·]?) := by
      cases parent with
      | none => rfl
      | some place => exact List.getElem?_append_left (hparent place rfl)
    obtain ⟨root, hroot⟩ : ∃ root : Call ι, .todo (t.request group ids (parent.bind (prior[·]?))) = root := ⟨_, rfl⟩
    obtain ⟨id, s₁, hissue⟩ := issue_recording haccepts root s log
    obtain ⟨newBelow, s₂, hbelow, hlengthBelow, hcallsBelow⟩ :=
      below (some prior.length) (prior ++ [id]) (by simp) s₁ ((root, id) :: log)
    obtain ⟨newRest, s₃, hrest, hlengthRest, hcallsRest⟩ := rest parent (prior ++ id :: newBelow.map (·.2))
      (fun place hplace => by have := hparent place hplace; rw [List.length_append]; omega) s₂
      (newBelow.reverse ++ (root, id) :: log)
    refine ⟨(root, id) :: (newBelow ++ newRest), s₃, ?_, ?_, fun later => ?_⟩
    · have hid : (some prior.length).bind ((prior ++ [id])[·]?) = some id := by simp
      rw [hid] at hbelow
      rw [hprior] at hrest
      rw [createForest_cons, hroot, Creating.bind_apply, hissue]
      simp only
      rw [Creating.bind_apply, hbelow]
      simp only
      rw [Creating.bind_apply, hrest]
      simp only [TodoTemplate.countAll_cons, List.reverse_cons, List.reverse_append, List.append_assoc,
        List.cons_append, List.nil_append]
      rfl
    · rw [TodoTemplate.countAll_cons, List.length_cons, List.length_append, hlengthBelow, hlengthRest]
      omega
    · -- The root's call, then those below it, then its siblings': each list of ids goes on in the next.
      have hbelow := hcallsBelow (newRest.map (·.2) ++ later)
      have hrest := hcallsRest later
      have hplace : (prior ++ id :: newBelow.map (·.2)).length =
          prior.length + (1 + TodoTemplate.countAll t.subtodos) := by
        simp [hlengthBelow]
        omega
      rw [hplace] at hrest
      rw [List.length_append, List.length_singleton] at hbelow
      simp only [List.append_assoc, List.cons_append, List.nil_append] at hbelow hrest
      rw [TodoTemplate.placed_cons]
      simp only [List.map_cons, List.map_append, hbelow, hrest, hprior, hroot, List.append_assoc, List.cons_append]

end

theorem filterMap_todo?_calls (p : Preset) (group : ι) (tags todos : List ι) :
    (p.calls group tags todos).filterMap Call.todo? =
      (TodoTemplate.placed none 0 p.todos).map fun e => e.1.asked group (p.tags.zip tags) todos e.2 := by
  have htags :
      (p.tags.map fun t => (.tag ⟨t.name, t.color, t.description, group⟩ : Call ι)).filterMap Call.todo? = [] := by
    rw [List.filterMap_map, List.filterMap_eq_nil_iff]
    exact fun _ _ => rfl
  unfold Preset.calls
  rw [List.cons_append, List.filterMap_cons_none (by rfl), List.filterMap_append, htags, List.nil_append,
    List.filterMap_map]
  exact congrFun List.filterMap_eq_map _

theorem length_placed (parent : Option Nat) (place : Nat) (ts : List TodoTemplate) :
    (TodoTemplate.placed parent place ts).length = TodoTemplate.countAll ts := by
  induction ts using TodoTemplate.forest_induction generalizing parent place with
  | nil => rfl
  | cons t ts below rest =>
    rw [TodoTemplate.placed_cons, TodoTemplate.countAll_cons, List.length_cons, List.length_append, below, rest]
    omega

theorem materialize_recording {store : Store ι ε σ} (haccepts : ∀ call s, ∃ id, (store call s).1 = .ok id) (p : Preset)
    (name : String) (s : σ) :
    ∃ (group : ι) (tags todos : List ι) (s' : σ) (log : List (Call ι × ι)),
      p.materialize name store.recording (s, []) =
          (.ok { presetName := name, groupId := group, tagsCreated := p.tags.length,
                 todosCreated := TodoTemplate.countAll p.todos }, s', log.reverse) ∧
        log.map (·.1) = p.calls group tags todos ∧ log.map (·.2) = group :: tags ++ todos ∧
        tags.length = p.tags.length ∧ todos.length = TodoTemplate.countAll p.todos := by
  obtain ⟨group, s₁, hgroup⟩ := issue_recording haccepts (.group p.group.request) s []
  obtain ⟨newTags, s₂, htags, hcallsTags⟩ :=
    createTags_recording haccepts group p.tags [] s₁ [(.group p.group.request, group)]
  obtain ⟨newTodos, s₃, htodos, hlength, hcallsTodos⟩ := createForest_recording haccepts group
    (((p.tags.zip (newTags.map (·.2))).map fun e => (e.1.name, e.2)).reverse ++ []) p.todos none []
    (fun _ h => by cases h) s₂ (newTags.reverse ++ [(.group p.group.request, group)])
  refine ⟨group, newTags.map (·.2), newTodos.map (·.2), s₃, (.group p.group.request, group) :: (newTags ++ newTodos),
    ?_, ?_, by simp, ?_, by rw [List.length_map, hlength]⟩
  · unfold Preset.materialize
    rw [Creating.bind_apply, hgroup]
    simp only
    rw [Creating.bind_apply, htags]
    simp only
    rw [Creating.bind_apply, show createForest store.recording group _ none p.todos _ = _ from htodos]
    simp
    rfl
  · have hcalls := hcallsTodos []
    simp only [List.nil_append, List.append_nil, List.length_nil, request_eq_asked] at hcalls
    rw [List.map_cons, List.map_append, hcallsTags, hcalls]
    rfl
  · rw [List.length_map]
    simpa using congrArg List.length hcallsTags

/-! ## The forest of a list of calls -/

abbrev Heading := String × Option String

def TodoTemplate.heading (t : TodoTemplate) : Heading := (t.title, t.description)

/-- The walk over a forest at a place: the ancestors of the todo before, and those of the forest, which the next
todo of the forest has as well. -/
structure Standing (all : List ι) (place : Nat) (parent : Option Nat) (before chain : List ι) : Prop where
  head : parent.bind (all[·]?) = chain.head?
  nodup : before.Nodup
  beforeKnown : before ⊆ all.take place
  chainKnown : chain ⊆ all.take place
  next : chain <:+ before ∨ ∃ id, id ∉ before ∧ chain = id :: before

section
variable {all before chain : List ι} {place : Nat} {parent : Option Nat}

/-- From a root on to what is below it. -/
theorem Standing.below (h : Standing all place parent before chain) (hall : all.Nodup) (hplace : place < all.length) :
    Standing all (place + 1) (some place) chain (all[place] :: chain) := by
  have htake := List.take_succ_eq_append_getElem hplace
  have hnodup : (all.take (place + 1)).Nodup := hall.sublist (List.take_sublist _ _)
  have hmono : chain ⊆ all.take (place + 1) :=
    List.Subset.trans h.chainKnown (List.take_subset_take_left _ (Nat.le_succ _))
  rw [htake] at hnodup
  have hnew : all[place] ∉ chain := fun hmem =>
    (List.nodup_append.mp hnodup).2.2 _ (h.chainKnown hmem) _ (List.mem_singleton_self _) rfl
  refine ⟨by simp [hplace], ?_, hmono, List.cons_subset.mpr ⟨?_, hmono⟩, .inr ⟨_, hnew, rfl⟩⟩
  · rcases h.next with hsuffix | ⟨id, hid, rfl⟩
    · exact h.nodup.sublist hsuffix.sublist
    · exact List.nodup_cons.mpr ⟨hid, h.nodup⟩
  · rw [htake]
    exact List.mem_append_right _ (List.mem_singleton_self _)

/-- From what is below a root back to its siblings. -/
theorem Standing.up {id : ι} {root : Option Nat} (h : Standing all place root before (id :: chain))
    (hparent : parent.bind (all[·]?) = chain.head?) : Standing all place parent before chain := by
  refine ⟨hparent, h.nodup, h.beforeKnown, (List.cons_subset.mp h.chainKnown).2, .inl ?_⟩
  rcases h.next with hsuffix | ⟨_, _, heq⟩
  · exact (List.suffix_cons _ _).trans hsuffix
  · cases heq
    exact List.suffix_refl _

variable [DecidableEq ι]

/-- The ancestors of a todo, the nearest first, from its parent and the ancestors of the todo before it. A parent
that is not among these is the todo before. -/
def ancestors (before : List ι) : (parent : Option ι) → List ι
  | none => []
  | some parent => if parent ∈ before then before.dropWhile (· ≠ parent) else parent :: before

def depths (before : List ι) : List (TodoRequest ι) → List (Heading × Nat)
  | [] => []
  | r :: rs =>
    ((r.title, r.description), (ancestors before r.parent).length) :: depths (ancestors before r.parent) rs

def forestOfCalls (calls : List (Call ι)) : List (RoseTree Heading) :=
  RoseTree.grow (depths [] (calls.filterMap Call.todo?)) 0

theorem Standing.ancestors_eq (h : Standing all place parent before chain) :
    ancestors before (parent.bind (all[·]?)) = chain := by
  rw [h.head]
  rcases h.next with ⟨front, rfl⟩ | ⟨id, hid, rfl⟩
  · cases chain with
    | nil => rfl
    | cons id chain =>
      have hfront : ∀ x ∈ front, decide (x ≠ id) = true := fun x hx =>
        decide_eq_true ((List.nodup_append.mp h.nodup).2.2 x hx id List.mem_cons_self)
      rw [List.head?_cons, ancestors, if_pos (by simp), List.dropWhile_append_of_pos hfront]
      simp
  · rw [List.head?_cons, ancestors, if_neg hid]

theorem depths_placed (group : ι) (tags : List (TagTemplate × ι)) (hall : all.Nodup) (ts : List TodoTemplate)
    (h : Standing all place parent before chain) (hplace : place + TodoTemplate.countAll ts ≤ all.length)
    (more : List (TodoRequest ι)) :
    ∃ after, Standing all (place + TodoTemplate.countAll ts) parent after chain ∧
      depths before ((TodoTemplate.placed parent place ts).map (fun e => e.1.asked group tags all e.2) ++ more) =
        TodoTemplate.levels TodoTemplate.heading chain.length ts ++ depths after more := by
  induction ts using TodoTemplate.forest_induction generalizing parent place before chain more with
  | nil => exact ⟨before, h, rfl⟩
  | cons t ts below rest =>
    rw [TodoTemplate.countAll_cons] at hplace ⊢
    have hnext : place + (1 + TodoTemplate.countAll t.subtodos) = place + 1 + TodoTemplate.countAll t.subtodos := by
      omega
    obtain ⟨after, hafter, hbelow⟩ := below (h.below hall (by omega)) (by omega)
      ((TodoTemplate.placed parent (place + 1 + TodoTemplate.countAll t.subtodos) ts).map
        (fun e => e.1.asked group tags all e.2) ++ more)
    obtain ⟨last, hlast, hrest⟩ := rest (hafter.up h.head) (by omega) more
    refine ⟨last, ?_, ?_⟩
    · rw [← Nat.add_assoc, hnext]
      exact hlast
    · rw [TodoTemplate.placed_cons, TodoTemplate.levels_cons, hnext]
      simp only [List.map_cons, List.map_append, List.cons_append, List.append_assoc, depths]
      rw [show (t.asked group tags all parent).parent = parent.bind (all[·]?) from rfl, h.ancestors_eq, hbelow, hrest]
      rfl

theorem forestOfCalls_calls {p : Preset} {group : ι} {tags todos : List ι} (hnodup : todos.Nodup)
    (hlength : todos.length = TodoTemplate.countAll p.todos) :
    forestOfCalls (p.calls group tags todos) = TodoTemplate.trees TodoTemplate.heading p.todos := by
  have hstart : Standing todos 0 none [] [] := ⟨rfl, List.nodup_nil, by simp, by simp, .inl (List.suffix_refl _)⟩
  obtain ⟨after, -, hdepths⟩ := depths_placed group (p.tags.zip tags) hnodup p.todos hstart (by omega) []
  unfold forestOfCalls
  rw [filterMap_todo?_calls, ← TodoTemplate.grow_levels]
  simpa [depths] using congrArg (RoseTree.grow · 0) hdepths

end

/-- A store that takes all calls is asked for the records of a preset, in order and by the ids that it has given
out, and for as many todos as the preset has. These calls alone tell the forest of the preset, if no id of a todo
came twice. -/
theorem materialize_calls [DecidableEq ι] {store : Store ι ε σ} (haccepts : ∀ call s, ∃ id, (store call s).1 = .ok id)
    (p : Preset) (name : String) (s : σ) :
    ∃ (group : ι) (tags todos : List ι) (s' : σ) (log : List (Call ι × ι)),
      p.materialize name store.recording (s, []) =
          (.ok { presetName := name, groupId := group, tagsCreated := p.tags.length,
                 todosCreated := TodoTemplate.countAll p.todos }, s', log.reverse) ∧
        log.map (·.1) = p.calls group tags todos ∧ log.map (·.2) = group :: tags ++ todos ∧
        tags.length = p.tags.length ∧
        ((log.map (·.1)).filterMap Call.todo?).length = TodoTemplate.countAll p.todos ∧
        (todos.Nodup → forestOfCalls (log.map (·.1)) = TodoTemplate.trees TodoTemplate.heading p.todos) := by
  obtain ⟨group, tags, todos, s', log, hrun, hcalls, hids, htags, htodos⟩ := materialize_recording haccepts p name s
  refine ⟨group, tags, todos, s', log, hrun, hcalls, hids, htags, ?_, fun hnodup => ?_⟩
  · rw [hcalls, filterMap_todo?_calls, List.length_map, length_placed]
  · rw [hcalls]
    exact forestOfCalls_calls hnodup htodos

def numbering : Store Nat Unit Nat := fun _ => ExceptT.mk fun next => (.ok next, next + 1)

def garden : Preset where
  name := "garden"
  group := { name := "Garden", color := "#00aa00" }
  tags := [{ name := "wet", color := "#0000ff" }, { name := "dry", color := "#ffff00" },
    { name := "wet", color := "#00ffff" }]
  todos :=
    [{ title := "dig"
       tagNames := some ["wet", "cold", "wet"]
       children := some [{ title := "sow", description := some "", children := some [] }, { title := "rake" }] },
      { title := "rest", tagNames := some [] }]

theorem materialize_calls_numbering :
    (∀ call s, ∃ id, (numbering call s).1 = .ok id) ∧
      ∃ (s' : Nat) (log : List (Call Nat × Nat)),
        garden.materialize "garden" numbering.recording (0, []) =
            (.ok { presetName := "garden", groupId := 0, tagsCreated := 3, todosCreated := 4 }, s', log.reverse) ∧
          log.map (·.1) = garden.calls 0 [1, 2, 3] [4, 5, 6, 7] ∧
          ((log.map (·.1)).filterMap Call.todo?).map (fun r => (r.title, r.tags, r.parent)) =
            [("dig", some [3, 3], none), ("sow", none, some 4), ("rake", none, some 4), ("rest", none, none)] ∧
          forestOfCalls (log.map (·.1)) = TodoTemplate.trees TodoTemplate.heading garden.todos := by
  have haccepts : ∀ call s, ∃ id, (numbering call s).1 = .ok id := fun _ s => ⟨s, rfl⟩
  obtain ⟨group, tags, todos, s', log, hrun, hcalls, hids, htags, -, hforest⟩ :=
    materialize_calls haccepts garden "garden" 0
  have hlog : log.map (·.2) = [0, 1, 2, 3, 4, 5, 6, 7] := by
    have hreverse : (garden.materialize "garden" numbering.recording (0, [])).2.2 = log.reverse := by rw [hrun]
    rw [← log.reverse_reverse, ← hreverse]
    rfl
  obtain ⟨a, b, c, rfl⟩ := List.length_eq_three.mp htags
  rw [hlog] at hids
  obtain ⟨rfl, rfl, rfl, rfl, rfl⟩ : 0 = group ∧ 1 = a ∧ 2 = b ∧ 3 = c ∧ [4, 5, 6, 7] = todos := by
    simpa using hids
  refine ⟨haccepts, s', log, hrun, hcalls, ?_, hforest (by decide)⟩
  rw [hcalls]
  rfl

end PresetWorkspace
