import PresetWorkspace.Proofs.History

/-!
# Users on one workspace

What a user gets back and finds in the tables does not depend on the other
users. `ownedBy` cuts a workspace down to the rows of one user: the calls of
others leave it alone (`create_other`), and the user's own calls see no more
of the workspace than that (`create_ownedBy`). So two workspaces that agree on
the rows of a user go on to agree, however the steps of others are mixed in.
-/

namespace PresetWorkspace.Workspace

/-! ## Rows of a user -/

/-- The rows of a user, and the links of the user's todos. -/
def ownedBy (w : Workspace) (a : String) : Workspace :=
  { w with
    groups := w.groups.filter (·.user = a)
    tags := w.tags.filter (·.user = a)
    todos := w.todos.filter (·.user = a)
    links := w.links.filter fun l => w.todos.any fun t => t.id = l.todo && t.user = a }

/-- No row of another user has the id. -/
structure Unclaimed (w : Workspace) (a : String) (id : Uuid) : Prop where
  groups : ∀ g ∈ w.groups, g.user ≠ a → g.id ≠ .id id
  tags : ∀ t ∈ w.tags, t.user ≠ a → t.id ≠ .id id
  todos : ∀ t ∈ w.todos, t.user ≠ a → t.id ≠ .id id

theorem any_filter_of_imp {α : Type} {l : List α} {p q : α → Bool} (h : ∀ x ∈ l, q x = true → p x = true) :
    (l.filter p).any q = l.any q := by
  rw [List.any_filter]
  induction l with
  | nil => rfl
  | cons x l ih =>
    rw [List.any_cons, List.any_cons, ih fun y hy => h y (List.mem_cons_of_mem _ hy)]
    congr 1
    have hx := h x List.mem_cons_self
    cases hq : q x with
    | false => rw [Bool.and_false]
    | true => rw [hx hq, Bool.and_true]

theorem filter_filter_of_imp {α : Type} {l : List α} {p q : α → Bool} (h : ∀ x ∈ l, q x = true → p x = true) :
    (l.filter p).filter q = l.filter q := by
  rw [List.filter_filter]
  refine List.filter_congr fun x hx => ?_
  cases hq : q x with
  | false => rw [Bool.false_and]
  | true => rw [h x hx hq, Bool.and_true]

/-! ## Calls of others -/

section
variable {w : Workspace} {a user : String} {draw : Draw}

/-- A call of another user leaves the rows of a user alone. -/
theorem create_other (hu : user ≠ a) (call : Call Uuid) : (create user draw call w).2.ownedBy a = w.ownedBy a := by
  have ho : Outcome w user draw call _ := create_outcome call
  generalize create user draw call w = out at ho
  have hd : decide (user = a) = false := decide_eq_false hu
  cases ho with
  | rejected e => rfl
  | group fresh => simp [ownedBy, GroupRequest.record, Group.row, hd]
  | tag owned fresh => simp [ownedBy, TagRequest.record, Tag.row, hd]
  | unlinked e gone fresh => simp [ownedBy, TodoRequest.record, Todo.row, hd]
  | @todo r owned parent tags title fresh =>
    have hnew : ∀ l ∈ ((r.tags.getD []).filter fun tag => (⟨.id draw.id, .id tag⟩ : LinkRow) ∉ w.links).eraseDups.map
        fun tag => (⟨.id draw.id, .id tag⟩ : LinkRow),
        ¬ (w.todos.any fun t => t.id = l.todo && t.user = a) = true := by
      intro l hl hany
      obtain ⟨tag, _, rfl⟩ := List.mem_map.mp hl
      obtain ⟨t, ht, htid⟩ := List.any_eq_true.mp hany
      simp only [Bool.and_eq_true, decide_eq_true_eq] at htid
      exact fresh t ht htid.1
    simp only [ownedBy, TodoRequest.record, Todo.row, List.filter_append, List.filter_cons, List.filter_nil, hd,
      List.any_append, List.any_cons, List.any_nil, Bool.and_false, Bool.or_false, linked_eq]
    rw [List.filter_eq_nil_iff.mpr hnew]
    simp

theorem unclaimed_of_create {call : Call Uuid} {id : Uuid} (h : (create user draw call w).2.Unclaimed a id) :
    w.Unclaimed a id := by
  have ho : Outcome w user draw call _ := create_outcome call
  generalize create user draw call w = out at ho h
  cases ho with
  | rejected e => exact h
  | group fresh => exact { h with groups := fun g hg => h.groups g (List.mem_append_left _ hg) }
  | tag owned fresh => exact { h with tags := fun t ht => h.tags t (List.mem_append_left _ ht) }
  | todo owned parent tags title fresh =>
    exact { h with todos := fun t ht => h.todos t (List.mem_append_left _ ht) }
  | unlinked e gone fresh => exact { h with todos := fun t ht => h.todos t (List.mem_append_left _ ht) }

theorem Unclaimed.create {id : Uuid} (h : w.Unclaimed a id) (draw : Draw) (call : Call Uuid) :
    (Workspace.create a draw call w).2.Unclaimed a id := by
  have ho : Outcome w a draw call _ := create_outcome call
  generalize Workspace.create a draw call w = out at ho
  have own : ∀ {P : Prop}, a ≠ a → P := fun hne => absurd rfl hne
  cases ho with
  | rejected e => exact h
  | group fresh => exact { h with groups := Consistent.forall_mem_snoc.mpr ⟨h.groups, own⟩ }
  | tag owned fresh => exact { h with tags := Consistent.forall_mem_snoc.mpr ⟨h.tags, own⟩ }
  | todo owned parent tags title fresh => exact { h with todos := Consistent.forall_mem_snoc.mpr ⟨h.todos, own⟩ }
  | unlinked e gone fresh => exact { h with todos := Consistent.forall_mem_snoc.mpr ⟨h.todos, own⟩ }

end

/-! ## Own calls -/

section
variable {w : Workspace} {a : String} {draw : Draw}

theorem ownsGroup_ownedBy (id : Uuid) : (w.ownedBy a).ownsGroup a id = w.ownsGroup a id := by
  refine any_filter_of_imp fun g _ hg => ?_
  rw [Bool.and_eq_true] at hg
  exact hg.2

theorem ownsTag_ownedBy (id : Uuid) : (w.ownedBy a).ownsTag a id = w.ownsTag a id := by
  refine any_filter_of_imp fun t _ ht => ?_
  rw [Bool.and_eq_true] at ht
  exact ht.2

theorem ownsTodo_ownedBy (group id : Uuid) : (w.ownedBy a).ownsTodo a group id = w.ownsTodo a group id := by
  refine any_filter_of_imp fun t _ ht => ?_
  rw [Bool.and_eq_true, Bool.and_eq_true] at ht
  exact ht.1.2

theorem requireGroup_ownedBy (id : Uuid) : (w.ownedBy a).requireGroup a id = w.requireGroup a id := by
  unfold requireGroup
  rw [ownsGroup_ownedBy]
  rfl

theorem requireParent_ownedBy (group : Uuid) (parent : Option Uuid) :
    (w.ownedBy a).requireParent a group parent = w.requireParent a group parent := by
  cases parent with
  | none => rfl
  | some id =>
    simp only [requireParent, ownsTodo_ownedBy]
    rfl

theorem requireTags_ownedBy (ids : List Uuid) : (w.ownedBy a).requireTags a ids = w.requireTags a ids := by
  induction ids with
  | nil => rfl
  | cons id ids ih =>
    unfold requireTags
    rw [ownsTag_ownedBy, ih]
    rfl

theorem any_id_ownedBy {α : Type} {l : List α} {key : α → Key} {user : α → String} {id : Uuid}
    (h : ∀ x ∈ l, user x ≠ a → key x ≠ .id id) :
    (l.filter fun x => user x = a).any (fun x => key x = .id id) = l.any fun x => key x = .id id := by
  refine any_filter_of_imp fun x hx hk => ?_
  rw [decide_eq_true_eq] at hk ⊢
  by_contra hu
  exact h x hx hu hk

theorem addGroup_ownedBy (free : w.Unclaimed a draw.id) (r : GroupRequest) :
    (w.ownedBy a).addGroup a draw r = (w.addGroup a draw r).map (·.ownedBy a) := by
  unfold addGroup
  rw [show (w.ownedBy a).groups.any (·.id = .id draw.id) = w.groups.any (·.id = .id draw.id) from
    any_id_ownedBy free.groups]
  show (w.requireTable .groups >>= _) = _
  cases w.requireTable .groups with
  | error e => rfl
  | ok u =>
    cases hany : w.groups.any (·.id = .id draw.id) with
    | true => rfl
    | false =>
      show Except.ok _ = Except.ok _
      simp [ownedBy]

theorem addTag_ownedBy (free : w.Unclaimed a draw.id) (r : TagRequest Uuid) :
    (w.ownedBy a).addTag a draw r = (w.addTag a draw r).map (·.ownedBy a) := by
  unfold addTag
  rw [requireGroup_ownedBy, show (w.ownedBy a).tags.any (·.id = .id draw.id) = w.tags.any (·.id = .id draw.id) from
    any_id_ownedBy free.tags]
  cases w.requireGroup a r.group with
  | error e => rfl
  | ok u =>
    show (w.requireTable .tags >>= _) = _
    cases w.requireTable .tags with
    | error e => rfl
    | ok u =>
      cases hany : w.tags.any (·.id = .id draw.id) with
      | true => rfl
      | false =>
        show Except.ok _ = Except.ok _
        simp [ownedBy]

theorem addTodo_ownedBy (h : w.Consistent) (free : w.Unclaimed a draw.id) (r : TodoRequest Uuid) :
    (w.ownedBy a).addTodo a draw r = (w.addTodo a draw r).map (·.ownedBy a) := by
  unfold addTodo
  rw [requireGroup_ownedBy, requireParent_ownedBy, requireTags_ownedBy,
    show (w.ownedBy a).todos.any (·.id = .id draw.id) = w.todos.any (·.id = .id draw.id) from
      any_id_ownedBy free.todos]
  cases w.requireGroup a r.group with
  | error e => rfl
  | ok u =>
  cases w.requireParent a r.group r.parent with
  | error e => rfl
  | ok u =>
  cases w.requireTags a (r.tags.getD []) with
  | error e => rfl
  | ok u =>
  show (w.requireTable .todos >>= _) = _
  cases w.requireTable .todos with
  | error e => rfl
  | ok u =>
  by_cases ht : isTitle r.title = true
  · cases hany : w.todos.any (·.id = .id draw.id) with
    | true => simp only [ht]; rfl
    | false =>
      have hlinks := h.no_links (any_id_eq_false.mp (Bool.eq_false_iff.mp hany))
      simp only [ht]
      show Except.ok _ = Except.ok _
      simp only [ownedBy, List.filter_append, List.any_append]
      congr 2
      · simp
      · refine List.filter_congr fun l hl => ?_
        simp [Ne.symm (hlinks l hl)]
  · simp only [ht]
    rfl

theorem addLink_filter {links : List LinkRow} {p : LinkRow → Bool} {l : LinkRow} (h : p l = true) :
    (addLink links l).filter p = addLink (links.filter p) l := by
  unfold addLink
  by_cases hl : l ∈ links
  · rw [if_pos hl, if_pos (List.mem_filter.mpr ⟨hl, h⟩)]
  · rw [if_neg hl, if_neg fun hm => hl (List.mem_filter.mp hm).1, List.filter_append, List.filter_cons_of_pos h,
      List.filter_nil]

theorem linked_filter (links : List LinkRow) {p : LinkRow → Bool} {todo : Uuid}
    (h : ∀ tag, p ⟨.id todo, .id tag⟩ = true) (tags : List Uuid) :
    (linked links todo tags).filter p = linked (links.filter p) todo tags := by
  induction tags generalizing links with
  | nil => rfl
  | cons tag tags ih =>
    show (linked (addLink links ⟨.id todo, .id tag⟩) todo tags).filter p = _
    rw [ih, addLink_filter (h tag)]
    rfl

theorem attach_ownedBy {todo : Uuid} (own : w.todos.any (fun t => t.id = .id todo && t.user = a) = true)
    (tags : List Uuid) : (w.ownedBy a).attach todo tags = (w.attach todo tags).map (·.ownedBy a) := by
  cases tags with
  | nil => rfl
  | cons tag tags =>
    show (w.requireTable .links >>= _) = (w.requireTable .links >>= _).map _
    cases w.requireTable .links with
    | error e => rfl
    | ok u =>
      show Except.ok _ = Except.ok _
      have hl := linked_filter w.links (p := fun l => w.todos.any fun t => t.id = l.todo && t.user = a) (fun _ => own)
        (tag :: tags)
      simp only [ownedBy]
      congr 2
      exact hl.symm

/-- A user's own calls do the same to the user's rows alone. -/
theorem create_ownedBy (h : w.Consistent) (free : w.Unclaimed a draw.id) (call : Call Uuid) :
    create a draw call (w.ownedBy a) = ((create a draw call w).1, (create a draw call w).2.ownedBy a) := by
  cases call with
  | group r =>
    show create.finish draw _ _ = _
    rw [addGroup_ownedBy free]
    show _ = ((create.finish draw w (w.addGroup a draw r)).1, (create.finish draw w (w.addGroup a draw r)).2.ownedBy a)
    cases w.addGroup a draw r <;> rfl
  | tag r =>
    show create.finish draw _ _ = _
    rw [addTag_ownedBy free]
    show _ = ((create.finish draw w (w.addTag a draw r)).1, (create.finish draw w (w.addTag a draw r)).2.ownedBy a)
    cases w.addTag a draw r <;> rfl
  | todo r =>
    unfold create
    simp only
    rw [addTodo_ownedBy h free]
    cases hadd : w.addTodo a draw r with
    | error e => rfl
    | ok w' =>
      obtain ⟨_, _, _, _, _, _, rfl⟩ := addTodo_eq_ok.mp hadd
      simp only [Except.map]
      rw [attach_ownedBy (by simp [TodoRequest.record, Todo.row])]
      cases Workspace.attach _ draw.id (r.tags.getD []) <;> rfl

end

/-! ## Two workspaces -/

/-- Two consistent workspaces have the same rows of a user, and the second one claims no more ids for others. -/
structure Agree (a : String) (w w' : Workspace) : Prop where
  left : w.Consistent
  right : w'.Consistent
  owned : w.ownedBy a = w'.ownedBy a
  unclaimed : ∀ id, w.Unclaimed a id → w'.Unclaimed a id

namespace Agree

variable {a : String} {w w' : Workspace}

theorem other {user : String} (h : Agree a w w') (hu : user ≠ a) (draw : Draw) (call : Call Uuid) :
    Agree a (Workspace.create user draw call w).2 w' where
  left := h.left.create user draw call
  right := h.right
  owned := (create_other hu call).trans h.owned
  unclaimed id hid := h.unclaimed id (unclaimed_of_create hid)

theorem create {draw : Draw} (h : Agree a w w') (free : w.Unclaimed a draw.id) (call : Call Uuid) :
    (Workspace.create a draw call w).1 = (Workspace.create a draw call w').1 ∧
      Agree a (Workspace.create a draw call w).2 (Workspace.create a draw call w').2 := by
  have hl := create_ownedBy h.left free call
  have hr := create_ownedBy h.right (h.unclaimed _ free) call
  rw [h.owned, hr] at hl
  obtain ⟨hanswer, howned⟩ := Prod.mk.inj hl
  exact ⟨hanswer.symm,
    { left := h.left.create a draw call
      right := h.right.create a draw call
      owned := howned.symm
      unclaimed := fun id hid => (h.unclaimed id (unclaimed_of_create hid)).create draw call }⟩

theorem ownsGroup (h : Agree a w w') (id : Uuid) : w.ownsGroup a id = w'.ownsGroup a id := by
  rw [← ownsGroup_ownedBy, h.owned, ownsGroup_ownedBy]

theorem ownsTodo (h : Agree a w w') (group id : Uuid) : w.ownsTodo a group id = w'.ownsTodo a group id := by
  rw [← ownsTodo_ownedBy, h.owned, ownsTodo_ownedBy]

end Agree

namespace Session

variable {source : Nat → Draw} {a : String} {s s' : Session}

/-- Two sessions that agree on the rows of a user and have drawn as often. -/
def Agree (a : String) (s s' : Session) : Prop := Workspace.Agree a s.workspace s'.workspace ∧ s.drawn = s'.drawn

theorem scope_agree (h : Agree a s s') (free : s.workspace.Unclaimed a (source s.drawn).id) (call : Call Uuid) :
    (scope source a call s).1 = (scope source a call s').1 ∧
      Agree a (scope source a call s).2 (scope source a call s').2 := by
  obtain ⟨hanswer, hworkspace, hdrawn⟩ := scope_eq source a call s
  obtain ⟨hanswer', hworkspace', hdrawn'⟩ := scope_eq source a call s'
  unfold Agree
  rw [hanswer, hanswer', hworkspace, hworkspace', hdrawn, hdrawn', ← h.2]
  obtain ⟨heq, hagree⟩ := h.1.create free call
  exact ⟨heq, hagree, rfl⟩

theorem drawn_le_run (source : Nat → Draw) (a : String) {φ α : Type} (b : Script Uuid Error φ α) (s : Session) :
    s.drawn ≤ (b.run (scope source a) s).2.drawn := by
  refine Script.run_keeps (P := fun s' : Session => s.drawn ≤ s'.drawn) _ (fun call s' hs => ?_) b (Nat.le_refl _)
  rw [(scope_eq source a call s').2.2]
  exact Nat.le_succ_of_le hs

theorem run_scope_agree {φ α : Type} (b : Script Uuid Error φ α) (h : Agree a s s')
    (free : ∀ n, s.drawn ≤ n → n < (b.run (scope source a) s).2.drawn → s.workspace.Unclaimed a (source n).id) :
    (b.run (scope source a) s).1 = (b.run (scope source a) s').1 ∧
      Agree a (b.run (scope source a) s).2 (b.run (scope source a) s').2 := by
  induction b generalizing s s' with
  | give v => exact ⟨rfl, h⟩
  | fail e => exact ⟨rfl, h⟩
  | ask call next ih =>
    rw [Script.run_ask] at free ⊢
    rw [Script.run_ask]
    obtain ⟨_, hworkspace, hdrawn⟩ := scope_eq source a call s
    have hmono := drawn_le_run source a (next (scope source a call s).1) (scope source a call s).2
    have hfirst := free s.drawn (Nat.le_refl _) (by omega)
    obtain ⟨heq, hagree⟩ := scope_agree h hfirst call
    rw [← heq]
    refine ih _ hagree fun n hn hlt => ?_
    rw [hworkspace]
    exact (free n (by omega) hlt).create _ call

theorem transaction_agree {φ α : Type} {body : Creating φ Session α} (h : Agree a s s')
    (hanswer : (body s).1 = (body s').1) (hbody : Agree a (body s).2 (body s').2) :
    (transaction body s).1 = (transaction body s').1 ∧ Agree a (transaction body s).2 (transaction body s').2 := by
  cases hr : (body s).1 with
  | ok v =>
    rw [transaction_ok hr, transaction_ok (hanswer ▸ hr)]
    exact ⟨hanswer, hbody⟩
  | error e =>
    rw [transaction_error hr, transaction_error (hanswer ▸ hr)]
    exact ⟨rfl, h.1, hbody.2⟩

theorem drawn_transaction {φ α : Type} (body : Creating φ Session α) (s : Session) :
    (transaction body s).2.drawn = (body s).2.drawn := by
  cases hr : (body s).1 with
  | ok v => rw [transaction_ok hr]
  | error e => rw [transaction_error hr]; rfl

end Session

/-! ## Mixed steps -/

variable {φ α : Type}

def Step.Fresh (st : Step φ α) (w : Workspace) : Prop :=
  ∀ n < (st.session w).2.drawn, w.Unclaimed st.user (st.source n).id

theorem Step.own {w w' : Workspace} (st : Step φ α) (h : Agree st.user w w') (fresh : st.Fresh w) :
    st.answer w = st.answer w' ∧ Agree st.user (st.result w) (st.result w') := by
  have hs : Session.Agree st.user { workspace := w } { workspace := w' } := ⟨h, rfl⟩
  obtain ⟨user, operation, source⟩ := st
  unfold Fresh session at fresh
  unfold answer result session
  cases operation with
  | create call =>
    simp only at fresh hs ⊢
    have hfirst : 0 < (Session.scope source user call { workspace := w }).2.drawn := by
      rw [(Session.scope_eq source user call _).2.2]
      exact Nat.succ_pos _
    obtain ⟨heq, hagree⟩ := Session.scope_agree hs (fresh 0 hfirst) call
    exact ⟨congrArg Answer.created heq, hagree.1⟩
  | transact body =>
    simp only [Session.drawn_transaction] at fresh hs ⊢
    obtain ⟨heq, hagree⟩ := Session.run_scope_agree body hs fun n _ hn => fresh n hn
    obtain ⟨hanswer, hresult⟩ := Session.transaction_agree hs heq hagree
    exact ⟨congrArg Answer.transacted hanswer, hresult.1⟩
  | setUp name p =>
    obtain ⟨b, hb⟩ := materialize_isScript (ι := Uuid) (ε := Error) p name
    have hrun : p.materialize name (Session.scope source user) = b.run _ := hb _ _
    unfold Session.setUp at fresh ⊢
    simp only [Creating.adapt_apply, hrun, Session.drawn_transaction] at fresh hs ⊢
    obtain ⟨heq, hagree⟩ := Session.run_scope_agree b hs fun n _ hn => fresh n hn
    obtain ⟨hanswer, hresult⟩ := Session.transaction_agree hs heq hagree
    rw [hanswer]
    exact ⟨rfl, hresult.1⟩

theorem Step.other {a : String} {w w' : Workspace} (st : Step φ α) (hu : st.user ≠ a) (h : Agree a w w') :
    Agree a (st.result w) w' :=
  st.result_keeps (P := fun w => Agree a w w') (fun draw call _ hw => hw.other hu draw call) h

def run : List (Step φ α) → Workspace → List (String × Answer φ α) × Workspace
  | [], w => ([], w)
  | st :: steps, w =>
    let rest := run steps (st.result w)
    ((st.user, st.answer w) :: rest.1, rest.2)

/-- No step of a user draws an id of another user's row. -/
def Fresh (a : String) : List (Step φ α) → Workspace → Prop
  | [], _ => True
  | st :: steps, w => (st.user = a → st.Fresh w) ∧ Fresh a steps (st.result w)

theorem run_own {a : String} {steps : List (Step φ α)} {w w' : Workspace} (h : Agree a w w') (fresh : Fresh a steps w) :
    (run steps w).1.filter (·.1 = a) = (run (steps.filter (·.user = a)) w').1 ∧
      Agree a (run steps w).2 (run (steps.filter (·.user = a)) w').2 := by
  -- `Agree` is the invariant: an own step is taken on both sides, one of another user on the left side only.
  induction steps generalizing w w' with
  | nil => exact ⟨rfl, h⟩
  | cons st steps ih =>
    by_cases hu : st.user = a
    · subst hu
      obtain ⟨hanswer, hagree⟩ := st.own h (fresh.1 rfl)
      obtain ⟨hanswers, hrest⟩ := ih hagree fresh.2
      rw [List.filter_cons_of_pos (by simp)]
      simp only [run]
      rw [List.filter_cons_of_pos (by simp), hanswers, hanswer]
      exact ⟨rfl, hrest⟩
    · obtain ⟨hanswers, hrest⟩ := ih (st.other hu h) fresh.2
      rw [List.filter_cons_of_neg (by simpa using hu)]
      simp only [run]
      rw [List.filter_cons_of_neg (by simpa using hu)]
      exact ⟨hanswers, hrest⟩

/-! ## Readings -/

section
variable {w : Workspace} {a : String}

theorem groupsOf_ownedBy (w : Workspace) (a : String) : (w.ownedBy a).groupsOf a = w.groupsOf a := by
  unfold groupsOf
  rw [show (w.ownedBy a).groups.filter (·.user = a) = w.groups.filter (·.user = a) from
    filter_filter_of_imp fun _ _ h => h]
  rfl

variable (h : w.Consistent)
include h

theorem user_of_group {id : Uuid} (owned : w.ownsGroup a id = true) {g : GroupRow} (hg : g ∈ w.groups)
    (hid : g.id = .id id) : g.user = a := by
  obtain ⟨g', hg', hid', hu⟩ := ownsGroup_iff.mp owned
  rw [h.mem_groups_inj hg hg' (hid.trans hid'.symm), hu]

theorem group?_ownedBy {id : Uuid} (owned : w.ownsGroup a id = true) : (w.ownedBy a).group? id = w.group? id := by
  have hfind : (w.ownedBy a).groups.find? (·.id = .id id) = w.groups.find? (·.id = .id id) := by
    rw [← List.head?_filter, ← List.head?_filter]
    congr 1
    refine filter_filter_of_imp fun g hg hid => ?_
    exact decide_eq_true (user_of_group h owned hg (of_decide_eq_true hid))
  unfold group?
  rw [hfind]
  rfl

theorem tagsOf_ownedBy {id : Uuid} (owned : w.ownsGroup a id = true) : (w.ownedBy a).tagsOf id = w.tagsOf id := by
  have hfilter : (w.ownedBy a).tags.filter (·.group = .id id) = w.tags.filter (·.group = .id id) := by
    refine filter_filter_of_imp fun t ht hid => ?_
    obtain ⟨g, hg, hgid, hu⟩ := h.tagGroup t ht
    exact decide_eq_true (hu ▸ user_of_group h owned hg (hgid.trans (of_decide_eq_true hid)))
  unfold tagsOf
  rw [hfilter]
  rfl

theorem user_of_todo {id : Uuid} (owned : w.ownsGroup a id = true) {t : TodoRow} (ht : t ∈ w.todos)
    (hid : t.group = .id id) : t.user = a := by
  obtain ⟨g, hg, hgid, hu⟩ := h.todoGroup t ht
  exact hu ▸ user_of_group h owned hg (hgid.trans hid)

theorem linksOf_ownedBy {id : Uuid} (owned : w.ownsGroup a id = true) : (w.ownedBy a).linksOf id = w.linksOf id := by
  unfold linksOf
  have hany : ∀ l : LinkRow, ((w.ownedBy a).todos.any fun t => t.id = l.todo && t.group = .id id) =
      w.todos.any fun t => t.id = l.todo && t.group = .id id := by
    refine fun l => any_filter_of_imp fun t ht hl => ?_
    rw [Bool.and_eq_true, decide_eq_true_eq, decide_eq_true_eq] at hl
    exact decide_eq_true (user_of_todo h owned ht hl.2)
  simp only [hany]
  refine filter_filter_of_imp fun l _ hl => ?_
  obtain ⟨t, ht, htl⟩ := List.any_eq_true.mp hl
  rw [Bool.and_eq_true, decide_eq_true_eq, decide_eq_true_eq] at htl
  refine List.any_eq_true.mpr ⟨t, ht, ?_⟩
  rw [Bool.and_eq_true]
  exact ⟨decide_eq_true htl.1, decide_eq_true (user_of_todo h owned ht htl.2)⟩

theorem todosOf_ownedBy {id : Uuid} (owned : w.ownsGroup a id = true) : (w.ownedBy a).todosOf id = w.todosOf id := by
  have hfilter : (w.ownedBy a).todos.filter (·.group = .id id) = w.todos.filter (·.group = .id id) :=
    filter_filter_of_imp fun t ht hid => decide_eq_true (user_of_todo h owned ht (of_decide_eq_true hid))
  unfold todosOf
  rw [hfilter, linksOf_ownedBy h owned]
  rfl

theorem childrenOf_ownedBy {group id : Uuid} (owned : w.ownsTodo a group id = true) :
    (w.ownedBy a).childrenOf id = w.childrenOf id := by
  obtain ⟨q, hq, hqid, hqu, _⟩ := ownsTodo_iff.mp owned
  have hfilter : (w.ownedBy a).todos.filter (·.parent = .id id) = w.todos.filter (·.parent = .id id) := by
    refine filter_filter_of_imp fun t ht hid => decide_eq_true ?_
    have hpar : t.parent = .id id := of_decide_eq_true hid
    obtain ⟨before, after, hrows, _⟩ := List.eq_append_cons_of_mem ht
    obtain ⟨q', hq', hid', hu, _⟩ := h.todoParent before t after hrows (by rw [hpar]; exact fun hn => by cases hn)
    have hq'w : q' ∈ w.todos := hrows ▸ List.mem_append_left _ hq'
    rw [← hu, h.mem_todos_inj hq'w hq (hid'.trans (hpar.trans hqid.symm)), hqu]
  unfold childrenOf
  rw [hfilter]
  rfl

end

/-! ## Isolation -/

/-- Whatever steps of others are mixed in, a user gets the same answers, keeps the same rows and reads the same
records, as long as none of the user's steps draws an id of another user's row. -/
theorem run_isolated {φ' α' : Type} (events : List (Event φ' α')) (a : String) (steps : List (Step φ α))
    (fresh : Fresh a steps (after events)) :
    let mixed := run steps (after events)
    let alone := run (steps.filter (·.user = a)) (after events)
    mixed.1.filter (·.1 = a) = alone.1 ∧
      mixed.2.ownedBy a = alone.2.ownedBy a ∧
      mixed.2.groupsOf a = alone.2.groupsOf a ∧
      (∀ id, mixed.2.ownsGroup a id = true →
        mixed.2.group? id = alone.2.group? id ∧ mixed.2.tagsOf id = alone.2.tagsOf id ∧
          mixed.2.todosOf id = alone.2.todosOf id) ∧
      ∀ group id, mixed.2.ownsTodo a group id = true → mixed.2.childrenOf id = alone.2.childrenOf id := by
  intro mixed alone
  have hstart : (after events).Consistent := consistent_of_history events
  obtain ⟨hanswers, hagree⟩ := run_own ⟨hstart, hstart, rfl, fun _ h => h⟩ fresh
  refine ⟨hanswers, hagree.owned, ?_, fun id hid => ?_, fun group id hid => ?_⟩
  · rw [← groupsOf_ownedBy, hagree.owned, groupsOf_ownedBy]
  · have hid' : alone.2.ownsGroup a id = true := by rw [← hagree.ownsGroup, hid]
    refine ⟨?_, ?_, ?_⟩
    · rw [← group?_ownedBy hagree.left hid, hagree.owned, group?_ownedBy hagree.right hid']
    · rw [← tagsOf_ownedBy hagree.left hid, hagree.owned, tagsOf_ownedBy hagree.right hid']
    · rw [← todosOf_ownedBy hagree.left hid, hagree.owned, todosOf_ownedBy hagree.right hid']
  · have hid' : alone.2.ownsTodo a group id = true := by rw [← hagree.ownsTodo, hid]
    rw [← childrenOf_ownedBy hagree.left hid, hagree.owned, childrenOf_ownedBy hagree.right hid']

/-- One user asks for a tag in the group of another one. -/
theorem run_isolated_foreign_group :
    let group : Call Uuid :=
      .group { name := "", color := "", description := none, goalRatios := none, isTodoGroup := true }
    let tag : Call Uuid := .tag { name := "", color := "", description := none, group := ⟨1⟩ }
    let steps : List (Step Unit Unit) :=
      [⟨"bob", .create group, fun _ => ⟨⟨1⟩, 0⟩⟩, ⟨"alice", .create tag, fun _ => ⟨⟨2⟩, 0⟩⟩]
    let start := after ([] : List (Event Unit Unit))
    Fresh "alice" steps start ∧
      (run steps start).1.filter (·.1 = "alice") = (run (steps.filter (·.user = "alice")) start).1 := by
  intro group tag steps start
  let first : Step Unit Unit := ⟨"bob", .create group, fun _ => ⟨⟨1⟩, 0⟩⟩
  have unclaimed : (first.result start).Unclaimed "alice" ⟨2⟩ := ⟨by decide, by decide, by decide⟩
  have fresh : Fresh "alice" steps start := ⟨fun h => absurd h (by decide), fun _ n _ => unclaimed, trivial⟩
  exact ⟨fresh, (run_isolated [] "alice" steps fresh).1⟩

end PresetWorkspace.Workspace
