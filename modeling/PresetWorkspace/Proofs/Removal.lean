import PresetWorkspace.Proofs.History

/-!
# What a removal takes

`mem_goneTodos_iff` tells which todos go with those of a kind: these and all
below them, and no others. So any deletion is one filter for each table, by
what it takes itself and what it takes with a group or a parent
(`remove_eq_keep`).
-/

namespace PresetWorkspace.Workspace

/-! ## Todos below others -/

/-- The search finds nothing but what a step from a parent to a child leads to. -/
theorem keysBelow_sound {todos : List TodoRow} {P : Key → Prop} (step : ∀ t ∈ todos, P t.parent → P t.id)
    (fuel : Nat) {level seen : List Key} (hlevel : ∀ k ∈ level, P k) (hseen : ∀ k ∈ seen, P k) :
    ∀ k ∈ keysBelow todos fuel level seen, P k := by
  induction fuel generalizing level seen with
  | zero => exact hseen
  | succ fuel ih =>
    unfold keysBelow
    simp only
    split
    · exact hseen
    · have hnext : ∀ k ∈ (todos.filter fun t => t.parent ∈ level && t.id ≠ .none && t.id ∉ seen).map (·.id), P k := by
        intro k hk
        obtain ⟨t, ht, rfl⟩ := List.mem_map.mp hk
        obtain ⟨ht, hparent⟩ := List.mem_filter.mp ht
        simp only [Bool.and_eq_true, decide_eq_true_eq] at hparent
        exact step t ht (hlevel _ hparent.1.1)
      exact ih hnext (List.forall_mem_append.mpr ⟨hseen, hnext⟩)

theorem goneTodos_of_none {todos : List TodoRow} {p : TodoRow → Bool} (h : ∀ t ∈ todos, p t = false) :
    goneTodos todos p = [] := by
  have hnone : todos.filter p = [] := List.filter_eq_nil_iff.mpr fun t ht => by simp [h t ht]
  unfold goneTodos
  rw [hnone]
  cases todos <;> simp [keysOf, keysBelow]

section
variable {w : Workspace} (h : w.Consistent)
include h

theorem mem_goneTodos_iff {p : TodoRow → Bool} {t : TodoRow} (ht : t ∈ w.todos) :
    t.id ∈ goneTodos w.todos p ↔ ∃ q ∈ w.todos, p q = true ∧ Relation.ReflTransGen w.IsParent q t := by
  let Below : Key → Prop := fun k =>
    ∃ t ∈ w.todos, t.id = k ∧ ∃ q ∈ w.todos, p q = true ∧ Relation.ReflTransGen w.IsParent q t
  constructor
  · intro hgone
    have hfirst : ∀ k ∈ keysOf ((w.todos.filter p).map (·.id)), Below k := by
      intro k hk
      obtain ⟨q, hq, hp, rfl⟩ := (mem_keysOf_filter h.todoKeys).mp hk
      exact ⟨q, hq, rfl, q, hq, hp, .refl⟩
    have hstep : ∀ c ∈ w.todos, Below c.parent → Below c.id := by
      rintro c hc ⟨b, hb, hid, q, hq, hp, hchain⟩
      exact ⟨c, hc, rfl, q, hq, hp, hchain.tail ⟨hb, hc, hid.symm⟩⟩
    obtain ⟨t', ht', hid, hbelow⟩ : Below t.id := keysBelow_sound hstep _ hfirst hfirst _ hgone
    rwa [← h.mem_todos_inj ht' ht hid]
  · rintro ⟨q, hq, hp, hchain⟩
    induction hchain with
    | refl =>
      exact subset_keysBelow _ _ _ _ ((mem_keysOf_filter h.todoKeys).mpr ⟨q, hq, hp, rfl⟩)
    | @tail b c _ hbc ih =>
      obtain ⟨hb, hc, hparent⟩ := hbc
      have hgone : c.parent ∈ goneTodos w.todos p := hparent ▸ ih hb
      have hclosed := keysBelow_closed w.todos _ _ _ (List.length_filter_le _ _) (fun _ _ hq => .inl hq) c hc hgone
      rcases hclosed with hid | hid
      · exact absurd hid (keys_ne_none h c hc)
      · exact hid

/-- A todo stays if it is none of the kind and stands below none that goes. -/
theorem stays_iff_notMem_goneTodos {p : TodoRow → Bool} {t : TodoRow} (ht : t ∈ w.todos) :
    (!p t && t.parent ∉ goneTodos w.todos p) = true ↔ t.id ∉ goneTodos w.todos p := by
  constructor
  · intro hstays hgone
    rw [Bool.and_eq_true, Bool.not_eq_true', decide_eq_true_eq] at hstays
    obtain ⟨q, hq, hp, hchain⟩ := (mem_goneTodos_iff h ht).mp hgone
    rcases hchain.cases_tail with rfl | ⟨b, hchain, hb, -, hparent⟩
    · rw [hstays.1] at hp
      cases hp
    · exact hstays.2 (hparent ▸ (mem_goneTodos_iff h hb).mpr ⟨q, hq, hp, hchain⟩)
  · exact stays_of_notMem_goneTodos (keys_ne_none h) ht

end

/-! ## Deletions -/

namespace Deletion

def takesGroup : Deletion → GroupRow → Bool
  | .groups p => p
  | _ => fun _ => false

def takesTag (w : Workspace) : Deletion → TagRow → Bool
  | .groups p => fun t => t.group ∈ keysOf ((w.groups.filter p).map (·.id))
  | .tags p => p
  | _ => fun _ => false

/-- Whether a todo is of the kind that is deleted, or goes with its group. Others go with their parents. -/
def takesTodo (w : Workspace) : Deletion → TodoRow → Bool
  | .groups p => fun t => t.group ∈ keysOf ((w.groups.filter p).map (·.id))
  | .todos p => p
  | _ => fun _ => false

def takesLink : Deletion → LinkRow → Bool
  | .links p => p
  | _ => fun _ => false

def goneTags (d : Deletion) (w : Workspace) : List Key := keysOf ((w.tags.filter (d.takesTag w)).map (·.id))

def goneTodos (d : Deletion) (w : Workspace) : List Key := Workspace.goneTodos w.todos (d.takesTodo w)

end Deletion

section
variable {w : Workspace} {d : Deletion} (h : w.Consistent)
include h

theorem mem_goneTags {k : Key} : k ∈ d.goneTags w ↔ ∃ t ∈ w.tags, d.takesTag w t = true ∧ t.id = k :=
  mem_keysOf_filter h.tagKeys

theorem takesTag_iff {t : TagRow} :
    d.takesTag w t = true ↔
      (∃ p, d = .tags p ∧ p t = true) ∨ ∃ g ∈ w.groups, d.takesGroup g = true ∧ g.id = t.group := by
  cases d with
  | groups p => simpa [Deletion.takesTag, Deletion.takesGroup] using mem_keysOf_filter h.groupKeys
  | _ => simp [Deletion.takesTag, Deletion.takesGroup]

theorem takesTodo_iff {t : TodoRow} :
    d.takesTodo w t = true ↔
      (∃ p, d = .todos p ∧ p t = true) ∨ ∃ g ∈ w.groups, d.takesGroup g = true ∧ g.id = t.group := by
  cases d with
  | groups p => simpa [Deletion.takesTodo, Deletion.takesGroup] using mem_keysOf_filter h.groupKeys
  | _ => simp [Deletion.takesTodo, Deletion.takesGroup]

end

theorem keep_congr {w : Workspace} {g g' : GroupRow → Bool} {t t' : TagRow → Bool} {d d' : TodoRow → Bool}
    {l l' : LinkRow → Bool} (hg : ∀ x ∈ w.groups, g x = g' x) (ht : ∀ x ∈ w.tags, t x = t' x)
    (hd : ∀ x ∈ w.todos, d x = d' x) (hl : ∀ x ∈ w.links, l x = l' x) : w.keep g t d l = w.keep g' t' d' l' := by
  unfold keep
  rw [List.filter_congr hg, List.filter_congr ht, List.filter_congr hd, List.filter_congr hl]

section
variable {w : Workspace}

theorem goneTags_of_none {d : Deletion} (h : ∀ t ∈ w.tags, d.takesTag w t = false) : d.goneTags w = [] := by
  have hnone : w.tags.filter (d.takesTag w) = [] := List.filter_eq_nil_iff.mpr fun t ht => by simp [h t ht]
  unfold Deletion.goneTags
  rw [hnone]
  rfl

/-- A deletion keeps the rows that neither are of its kind nor name a row that goes. -/
theorem remove_eq_keep (h : w.Consistent) (d : Deletion) :
    w.remove d = w.keep (fun g => !d.takesGroup g) (fun t => !d.takesTag w t) (fun t => t.id ∉ d.goneTodos w)
      (fun l => !d.takesLink l && l.todo ∉ d.goneTodos w && l.tag ∉ d.goneTags w) := by
  have hstays (p : TodoRow → Bool) : ∀ t ∈ w.todos,
      (!p t && t.parent ∉ goneTodos w.todos p) = decide (t.id ∉ goneTodos w.todos p) := fun t ht =>
    Bool.eq_iff_iff.mpr ((stays_iff_notMem_goneTodos h ht).trans decide_eq_true_iff.symm)
  cases d with
  | groups p =>
    show w.removeGroups p = _
    rw [removeGroups_eq_keep]
    exact keep_congr (fun _ _ => rfl) (fun _ _ => rfl) (hstays _) fun _ _ => rfl
  | tags p =>
    show w.removeTags p = _
    have htodos : (Deletion.tags p).goneTodos w = [] := goneTodos_of_none fun _ _ => rfl
    rw [removeTags_eq_keep, htodos]
    refine keep_congr (fun _ _ => rfl) (fun _ _ => rfl) (fun t _ => by simp) fun l _ => ?_
    show _ = (!false && decide (l.todo ∉ []) && decide (l.tag ∉ keysOf ((w.tags.filter p).map (·.id))))
    simp
  | todos p =>
    show w.removeTodos p = _
    have htags : (Deletion.todos p).goneTags w = [] := goneTags_of_none fun _ _ => rfl
    rw [removeTodos_eq_keep, htags]
    refine keep_congr (fun _ _ => rfl) (fun _ _ => rfl) (hstays p) fun l _ => ?_
    show _ = (!false && decide (l.todo ∉ goneTodos w.todos p) && decide (l.tag ∉ []))
    simp
  | links p =>
    have htodos : (Deletion.links p).goneTodos w = [] := goneTodos_of_none fun _ _ => rfl
    have htags : (Deletion.links p).goneTags w = [] := goneTags_of_none fun _ _ => rfl
    rw [htodos, htags]
    simp [remove, keep, Deletion.takesGroup, Deletion.takesTag, Deletion.takesLink]

theorem remove_eq_self (h : w.Consistent) (d : Deletion) (groups : ∀ g ∈ w.groups, d.takesGroup g = false)
    (tags : ∀ t ∈ w.tags, d.takesTag w t = false) (todos : ∀ t ∈ w.todos, d.takesTodo w t = false)
    (links : ∀ l ∈ w.links, d.takesLink l = false) : w.remove d = w := by
  have htodos : d.goneTodos w = [] := goneTodos_of_none todos
  rw [remove_eq_keep h, htodos, goneTags_of_none tags]
  unfold keep
  rw [List.filter_eq_self.mpr fun g hg => by rw [groups g hg]; rfl,
    List.filter_eq_self.mpr fun t ht => by rw [tags t ht]; rfl,
    List.filter_eq_self.mpr fun _ _ => decide_eq_true List.not_mem_nil,
    List.filter_eq_self.mpr fun l hl => by simp [links l hl]]

/-! ## Deletions by id -/

def Deletion.ofId? (t : Table) (id : Key) : Option Deletion :=
  match t with
  | .groups => some (.groups (·.id = id))
  | .tags => some (.tags (·.id = id))
  | .todos => some (.todos (·.id = id))
  | .links => none

theorem requireReferences_ok (h : w.Consistent) (ts : List Table) : w.requireReferences ts = .ok () :=
  forM_ok fun _ _ => forM_ok fun p _ => if_pos (h.hasTable p.2)

/-- A row that is there is counted. -/
theorem counted_of_mem {α : Type} {rows : List α} {key : α → Key} {x : α} {w' : Workspace} (hx : x ∈ rows)
    (keys : ∀ x ∈ rows, ∃ id, key x = .id id) :
    (if ¬ ((decide (key x ≠ .none) && rows.any fun y => decide (key y = key x)) = true) then pure (0, w)
      else pure (1, w') : Except Error (Nat × Workspace)) = .ok (1, w') := by
  rw [if_neg]
  · rfl
  · rw [Classical.not_not, Bool.and_eq_true, decide_eq_true_eq, List.any_eq_true]
    exact ⟨ne_none_of_id (keys x hx), x, hx, decide_eq_true rfl⟩

/-- The rows that are looked for are there, or nothing has them to lose. -/
theorem deleted_of_any {α : Type} {rows : List α} {key : α → Key} {id : Key} {w' : Workspace}
    (keys : ∀ x ∈ rows, ∃ id, key x = .id id) (hself : (∀ x ∈ rows, decide (key x = id) = false) → w' = w) :
    (match (if ¬ ((decide (id ≠ .none) && rows.any fun x => decide (key x = id)) = true) then pure (0, w)
        else pure (1, w') : Except Error (Nat × Workspace)) with
      | .ok (_, w') => w'
      | .error _ => w) = w' := by
  by_cases hany : ∃ x ∈ rows, key x = id
  · obtain ⟨x, hx, rfl⟩ := hany
    rw [counted_of_mem hx keys]
  · rw [hself fun x hx => decide_eq_false fun hid => hany ⟨x, hx, hid⟩]
    split
    · rename_i heq
      rcases ok_of_ite heq with heq | heq <;> exact (Prod.mk.inj heq).2.symm
    · rfl

/-- Deleting the row with an id is deleting all rows with that id. -/
theorem delete_result (h : w.Consistent) {φ α : Type} (t : Table) (id : Key) :
    (Event.delete t id : Event φ α).result w = ((Deletion.ofId? t id).map w.remove).getD w := by
  have htable : w.requireTable t = .ok () := requireTable_eq_ok.mpr (h.hasTable t)
  have hreferences : w.requireReferences (t :: w.reached t) = .ok () := requireReferences_ok h _
  unfold Event.result delete
  simp only [htable, hreferences]
  cases t with
  | groups =>
    refine deleted_of_any h.groupKeys fun hnone => ?_
    have hkeys : keysOf ((w.groups.filter fun g => g.id = id).map (·.id)) = [] := by
      rw [List.filter_eq_nil_iff.mpr fun g hg => by simp [hnone g hg]]
      rfl
    refine remove_eq_self h (.groups fun g => g.id = id) hnone (fun t _ => ?_) (fun t _ => ?_) fun _ _ => rfl
    · show decide (t.group ∈ keysOf _) = false
      rw [hkeys]
      rfl
    · show decide (t.group ∈ keysOf _) = false
      rw [hkeys]
      rfl
  | tags =>
    exact deleted_of_any h.tagKeys fun hnone =>
      remove_eq_self h (.tags fun t => t.id = id) (fun _ _ => rfl) hnone (fun _ _ => rfl) fun _ _ => rfl
  | todos =>
    exact deleted_of_any h.todoKeys fun hnone =>
      remove_eq_self h (.todos fun t => t.id = id) (fun _ _ => rfl) (fun _ _ => rfl) hnone fun _ _ => rfl
  | links => rfl

end

end PresetWorkspace.Workspace
