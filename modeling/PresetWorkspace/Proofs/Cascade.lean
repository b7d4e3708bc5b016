import PresetWorkspace.Proofs.Consistency
import PresetWorkspace.Workspace.Edit

/-!
# Removed rows

Rows go together with all rows that name them. `keysBelow_closed` shows that
the search for the todos below some others has fuel enough to find them all,
so no removal leaves a key behind and every removal keeps a workspace
consistent (`Consistent.remove`).
-/

namespace PresetWorkspace.Workspace

/-! ## Todos below others -/

theorem subset_keysBelow (todos : List TodoRow) (fuel : Nat) (level seen : List Key) :
    seen ⊆ keysBelow todos fuel level seen := by
  induction fuel generalizing level seen with
  | zero => exact fun _ h => h
  | succ fuel ih =>
    unfold keysBelow
    simp only
    split
    · exact fun _ h => h
    · exact fun _ h => ih _ _ (List.mem_append_left _ h)

def unseen (todos : List TodoRow) (seen : List Key) : List TodoRow :=
  todos.filter fun t => t.id ≠ .none && t.id ∉ seen

theorem mem_unseen {todos : List TodoRow} {seen : List Key} {t : TodoRow} :
    t ∈ unseen todos seen ↔ t ∈ todos ∧ t.id ≠ .none ∧ t.id ∉ seen := by
  simp [unseen]

theorem unseen_append_lt {todos : List TodoRow} {seen next : List Key} {t : TodoRow} (ht : t ∈ unseen todos seen)
    (hn : t.id ∈ next) : (unseen todos (seen ++ next)).length < (unseen todos seen).length := by
  have h : unseen todos (seen ++ next) = (unseen todos seen).filter fun t => t.id ∉ next := by
    unfold unseen
    rw [List.filter_filter]
    apply List.filter_congr
    intro x _
    by_cases h1 : x.id ∈ seen <;> by_cases h2 : x.id ∈ next <;> simp [h1, h2]
  rw [h, List.length_filter_lt_length_iff_exists]
  exact ⟨t, ht, by simpa using hn⟩

/-- A todo below one that has been found is found too. What has been seen so far may still lack the todos below the
last level, and those only. -/
theorem keysBelow_closed (todos : List TodoRow) : ∀ (fuel : Nat) (level seen : List Key),
    (unseen todos seen).length ≤ fuel →
    (∀ t ∈ todos, t.parent ∈ seen → t.parent ∈ level ∨ t.id = .none ∨ t.id ∈ seen) →
    ∀ t ∈ todos, t.parent ∈ keysBelow todos fuel level seen → t.id = .none ∨ t.id ∈ keysBelow todos fuel level seen
  | 0, level, seen, hf, _, t, ht, _ => by
    -- Without fuel nothing is unseen, so everything has been found.
    by_contra hn
    rw [not_or] at hn
    have : t ∈ unseen todos seen := mem_unseen.mpr ⟨ht, hn⟩
    rw [List.eq_nil_of_length_eq_zero (Nat.le_zero.mp hf)] at this
    cases this
  | fuel + 1, level, seen, hf, hs, t, ht, hp => by
    unfold keysBelow at hp ⊢
    generalize hnext : (todos.filter fun t => t.parent ∈ level && t.id ≠ .none && t.id ∉ seen).map (·.id) = next
      at hp ⊢
    have hmem : ∀ q ∈ todos, q.parent ∈ level → q.id ≠ .none → q.id ∉ seen → q.id ∈ next := by
      intro q hq hl hid hns
      rw [← hnext]
      exact List.mem_map_of_mem (List.mem_filter.mpr ⟨hq, by simp [hl, hid, hns]⟩)
    simp only at hp ⊢
    split at hp
    · rename_i hempty
      rw [if_pos hempty]
      rw [List.isEmpty_iff] at hempty
      rcases hs t ht hp with hl | h
      · by_contra hn
        rw [not_or] at hn
        have := hmem t ht hl hn.1 hn.2
        rw [hempty] at this
        cases this
      · exact h
    · rename_i hne
      rw [if_neg hne]
      refine keysBelow_closed todos fuel next (seen ++ next) ?_ ?_ t ht hp
      · obtain ⟨k, hk⟩ := List.exists_mem_of_ne_nil next (by simpa using hne)
        have hk' := hk
        rw [← hnext] at hk'
        obtain ⟨q, hq, rfl⟩ := List.mem_map.mp hk'
        obtain ⟨hqt, hq⟩ := List.mem_filter.mp hq
        simp only [Bool.and_eq_true, decide_eq_true_eq] at hq
        have := unseen_append_lt (mem_unseen.mpr ⟨hqt, hq.1.2, hq.2⟩) hk
        omega
      · -- Below the old level lies the new one, and below the new one may lie what is not seen yet.
        intro q hq hpar
        rcases List.mem_append.mp hpar with hpar | hpar
        · rcases hs q hq hpar with hl | hid | hid
          · by_cases h : q.id = .none ∨ q.id ∈ seen
            · exact .inr (h.imp_right (List.mem_append_left _))
            · rw [not_or] at h
              exact .inr (.inr (List.mem_append_right _ (hmem q hq hl h.1 h.2)))
          · exact .inr (.inl hid)
          · exact .inr (.inr (List.mem_append_left _ hid))
        · exact .inl hpar

/-- The keys of the todos that go with those of a kind. -/
def goneTodos (todos : List TodoRow) (p : TodoRow → Bool) : List Key :=
  let first := keysOf ((todos.filter p).map (·.id))
  keysBelow todos todos.length first first

/-- A todo that is not to go is none of the kind, and not below any that goes. -/
theorem stays_of_notMem_goneTodos {todos : List TodoRow} {p : TodoRow → Bool} (keys : ∀ t ∈ todos, t.id ≠ .none)
    {t : TodoRow} (ht : t ∈ todos) (h : t.id ∉ goneTodos todos p) : (!p t && t.parent ∉ goneTodos todos p) = true := by
  have hp : p t = false := by
    refine Bool.eq_false_iff.mpr fun hp => h ?_
    refine subset_keysBelow _ _ _ _ (List.mem_filter.mpr ⟨?_, by simpa using keys t ht⟩)
    exact List.mem_map_of_mem (List.mem_filter.mpr ⟨ht, hp⟩)
  have hpar : t.parent ∉ goneTodos todos p := by
    intro hpar
    rcases keysBelow_closed todos _ _ _ (List.length_filter_le _ _) (fun q _ hq => .inl hq) t ht hpar with hid | hid
    · exact keys t ht hid
    · exact h hid
  simp [hp, hpar]

/-! ## Kept rows -/

def keep (w : Workspace) (g : GroupRow → Bool) (t : TagRow → Bool) (d : TodoRow → Bool) (l : LinkRow → Bool) :
    Workspace :=
  { w with
    groups := w.groups.filter g
    tags := w.tags.filter t
    todos := w.todos.filter d
    links := w.links.filter l }

/-- A removal keeps a workspace consistent if it keeps every row that a kept row names. -/
theorem Consistent.keep {w : Workspace} (h : w.Consistent) {g : GroupRow → Bool} {t : TagRow → Bool}
    {d : TodoRow → Bool} {l : LinkRow → Bool}
    (tagGroup : ∀ x ∈ w.tags, t x = true → ∀ y ∈ w.groups, y.id = x.group → g y = true)
    (todoGroup : ∀ x ∈ w.todos, d x = true → ∀ y ∈ w.groups, y.id = x.group → g y = true)
    (todoParent : ∀ x ∈ w.todos, d x = true → ∀ y ∈ w.todos, y.id = x.parent → d y = true)
    (linkTodo : ∀ x ∈ w.links, l x = true → ∀ y ∈ w.todos, y.id = x.todo → d y = true)
    (linkTag : ∀ x ∈ w.links, l x = true → ∀ y ∈ w.tags, y.id = x.tag → t y = true) :
    (w.keep g t d l).Consistent where
  tables := h.tables
  groupKeys x hx := h.groupKeys x (List.mem_of_mem_filter hx)
  tagKeys x hx := h.tagKeys x (List.mem_of_mem_filter hx)
  todoKeys x hx := h.todoKeys x (List.mem_of_mem_filter hx)
  groupIds := (List.filter_sublist.map _).nodup h.groupIds
  tagIds := (List.filter_sublist.map _).nodup h.tagIds
  todoIds := (List.filter_sublist.map _).nodup h.todoIds
  tagGroup x hx := by
    obtain ⟨hx, ht⟩ := List.mem_filter.mp hx
    obtain ⟨y, hy, hid, hu⟩ := h.tagGroup x hx
    exact ⟨y, List.mem_filter.mpr ⟨hy, tagGroup x hx ht y hy hid⟩, hid, hu⟩
  todoGroup x hx := by
    obtain ⟨hx, hd⟩ := List.mem_filter.mp hx
    obtain ⟨y, hy, hid, hu⟩ := h.todoGroup x hx
    exact ⟨y, List.mem_filter.mpr ⟨hy, todoGroup x hx hd y hy hid⟩, hid, hu⟩
  todoParent before x after hx hp := by
    obtain ⟨before', rest, hrows, rfl, hrest⟩ := List.filter_eq_append_iff.mp hx
    obtain ⟨between, after', rfl, hbetween, hd, rfl⟩ := List.filter_eq_cons_iff.mp hrest
    have hrows' : w.todos = (before' ++ between) ++ x :: after' := by rw [hrows, List.append_assoc]
    obtain ⟨q, hq, hid, hq'⟩ := h.todoParent _ x _ hrows' hp
    have hmem : ∀ y ∈ before' ++ between, y ∈ w.todos := fun y hy => hrows' ▸ List.mem_append_left _ hy
    have hdq : d q = true := by
      refine todoParent x ?_ hd q (hmem q hq) hid
      rw [hrows']
      simp
    refine ⟨q, List.mem_filter.mpr ⟨?_, hdq⟩, hid, hq'⟩
    rcases List.mem_append.mp hq with hq | hq
    · exact hq
    · exact absurd hdq (hbetween q hq)
  linkEnds x hx := by
    obtain ⟨hx, hl⟩ := List.mem_filter.mp hx
    obtain ⟨y, hy, tag, htag, hid, htid, hu⟩ := h.linkEnds x hx
    exact ⟨y, List.mem_filter.mpr ⟨hy, linkTodo x hx hl y hy hid⟩, tag,
      List.mem_filter.mpr ⟨htag, linkTag x hx hl tag htag htid⟩, hid, htid, hu⟩
  linksOnce := List.filter_sublist.nodup h.linksOnce
  titles x hx := h.titles x (List.mem_of_mem_filter hx)

/-! ## Removals -/

theorem ne_none_of_id {k : Key} (h : ∃ id, k = .id id) : k ≠ .none := by
  obtain ⟨id, rfl⟩ := h
  exact fun hn => by cases hn

theorem keys_ne_none {w : Workspace} (h : w.Consistent) : ∀ t ∈ w.todos, t.id ≠ .none :=
  fun t ht => ne_none_of_id (h.todoKeys t ht)

theorem mem_keysOf {ids : List Key} {k : Key} : k ∈ keysOf ids ↔ k ∈ ids ∧ k ≠ .none := by
  simp [keysOf]

/-- The keys of the rows that go are those of rows of the kind. -/
theorem mem_keysOf_filter {α : Type} {rows : List α} {key : α → Key} (keys : ∀ x ∈ rows, ∃ id, key x = .id id)
    {p : α → Bool} {k : Key} : k ∈ keysOf ((rows.filter p).map key) ↔ ∃ x ∈ rows, p x = true ∧ key x = k := by
  simp only [mem_keysOf, List.mem_map, List.mem_filter, and_assoc]
  refine and_iff_left_of_imp ?_
  rintro ⟨x, hx, -, rfl⟩
  exact ne_none_of_id (keys x hx)

theorem removeTodos_eq_keep (w : Workspace) (p : TodoRow → Bool) :
    w.removeTodos p = w.keep (fun _ => true) (fun _ => true)
      (fun t => !p t && t.parent ∉ goneTodos w.todos p) (fun l => l.todo ∉ goneTodos w.todos p) := by
  simp only [keep, List.filter_true]
  rfl

theorem removeTags_eq_keep (w : Workspace) (p : TagRow → Bool) :
    w.removeTags p = w.keep (fun _ => true) (fun t => !p t) (fun _ => true)
      (fun l => l.tag ∉ keysOf ((w.tags.filter p).map (·.id))) := by
  simp only [keep, List.filter_true]
  rfl

theorem removeGroups_eq_keep (w : Workspace) (p : GroupRow → Bool) :
    let gone := keysOf ((w.groups.filter p).map (·.id))
    let todos := goneTodos w.todos fun t => t.group ∈ gone
    w.removeGroups p = w.keep (fun g => !p g) (fun t => !decide (t.group ∈ gone))
      (fun t => !decide (t.group ∈ gone) && t.parent ∉ todos)
      (fun l => l.todo ∉ todos && l.tag ∉ keysOf ((w.tags.filter fun t => t.group ∈ gone).map (·.id))) := by
  intro gone todos
  unfold removeGroups
  rw [removeTodos_eq_keep, removeTags_eq_keep]
  simp only [keep, List.filter_true, List.filter_filter]
  rfl

namespace Consistent

variable {w : Workspace}

theorem removeTodos (h : w.Consistent) (p : TodoRow → Bool) : (w.removeTodos p).Consistent := by
  rw [removeTodos_eq_keep]
  refine h.keep (fun _ _ _ _ _ _ => rfl) (fun _ _ _ _ _ _ => rfl) ?_ ?_ (fun _ _ _ _ _ _ => rfl)
  · intro x _ hx y hy hid
    simp only [Bool.and_eq_true, decide_eq_true_eq] at hx
    exact stays_of_notMem_goneTodos (keys_ne_none h) hy (hid ▸ hx.2)
  · intro x _ hx y hy hid
    exact stays_of_notMem_goneTodos (keys_ne_none h) hy (hid ▸ of_decide_eq_true hx)

theorem removeTags (h : w.Consistent) (p : TagRow → Bool) : (w.removeTags p).Consistent := by
  rw [removeTags_eq_keep]
  refine h.keep (fun _ _ _ _ _ _ => rfl) (fun _ _ _ _ _ _ => rfl) (fun _ _ _ _ _ _ => rfl)
    (fun _ _ _ _ _ _ => rfl) ?_
  intro x _ hx y hy hid
  rw [Bool.not_eq_true']
  exact Bool.eq_false_iff.mpr fun hp => of_decide_eq_true hx ((mem_keysOf_filter h.tagKeys).mpr ⟨y, hy, hp, hid⟩)

theorem removeGroups (h : w.Consistent) (p : GroupRow → Bool) : (w.removeGroups p).Consistent := by
  rw [removeGroups_eq_keep]
  have named : ∀ y ∈ w.groups, p y = true → y.id ∈ keysOf ((w.groups.filter p).map (·.id)) :=
    fun y hy hp => (mem_keysOf_filter h.groupKeys).mpr ⟨y, hy, hp, rfl⟩
  generalize keysOf ((w.groups.filter p).map (·.id)) = gone at named
  refine h.keep ?_ ?_ ?_ ?_ ?_
  · intro x _ hx y hy hid
    simp only [Bool.not_eq_true', decide_eq_false_iff_not] at hx ⊢
    exact Bool.eq_false_iff.mpr fun hp => hx (hid ▸ named y hy hp)
  · intro x _ hx y hy hid
    simp only [Bool.and_eq_true, Bool.not_eq_true', decide_eq_false_iff_not] at hx ⊢
    exact Bool.eq_false_iff.mpr fun hp => hx.1 (hid ▸ named y hy hp)
  · intro x _ hx y hy hid
    simp only [Bool.and_eq_true, decide_eq_true_eq] at hx
    exact stays_of_notMem_goneTodos (keys_ne_none h) hy (hid ▸ hx.2)
  · intro x _ hx y hy hid
    simp only [Bool.and_eq_true, decide_eq_true_eq] at hx
    exact stays_of_notMem_goneTodos (keys_ne_none h) hy (hid ▸ hx.1)
  · intro x _ hx y hy hid
    simp only [Bool.and_eq_true, decide_eq_true_eq, Bool.not_eq_true', decide_eq_false_iff_not] at hx ⊢
    exact fun hg => hx.2 ((mem_keysOf_filter h.tagKeys).mpr ⟨y, hy, by simpa using hg, hid⟩)

end Consistent

/-! ## Deletions -/

inductive Deletion where
  | groups (p : GroupRow → Bool)
  | tags (p : TagRow → Bool)
  | todos (p : TodoRow → Bool)
  | links (p : LinkRow → Bool)

def remove (w : Workspace) : Deletion → Workspace
  | .groups p => w.removeGroups p
  | .tags p => w.removeTags p
  | .todos p => w.removeTodos p
  | .links p => { w with links := w.links.filter fun l => !p l }

theorem Consistent.remove {w : Workspace} (h : w.Consistent) (d : Deletion) : (w.remove d).Consistent := by
  cases d with
  | groups p => exact h.removeGroups p
  | tags p => exact h.removeTags p
  | todos p => exact h.removeTodos p
  | links p =>
    exact { h with
      linkEnds := fun l hl => h.linkEnds l (List.mem_of_mem_filter hl)
      linksOnce := List.filter_sublist.nodup h.linksOnce }

theorem ok_of_ite {ε α : Type} {c : Prop} [Decidable c] {a b r : α}
    (h : (if c then pure a else pure b : Except ε α) = .ok r) : a = r ∨ b = r := by
  by_cases hc : c
  · rw [if_pos hc] at h
    exact .inl (Except.ok.inj h)
  · rw [if_neg hc] at h
    exact .inr (Except.ok.inj h)

theorem delete_eq_remove {w w' : Workspace} {t : Table} {id : Key} {n : Nat} (h : w.delete t id = .ok (n, w')) :
    w' = w ∨ ∃ d, w' = w.remove d := by
  unfold delete at h
  simp only [check_eq_ok, guarded_eq_ok] at h
  obtain ⟨_, _, _, h⟩ := h
  rcases ok_of_ite h with h | h
  · exact .inl (Prod.mk.inj h).2.symm
  · cases t with
    | groups => exact .inr ⟨.groups _, (Prod.mk.inj h).2.symm⟩
    | tags => exact .inr ⟨.tags _, (Prod.mk.inj h).2.symm⟩
    | todos => exact .inr ⟨.todos _, (Prod.mk.inj h).2.symm⟩
    | links => exact .inl (Prod.mk.inj h).2.symm

end PresetWorkspace.Workspace
