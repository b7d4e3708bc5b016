import PresetWorkspace.Proofs.Isolation
import PresetWorkspace.Proofs.Removal

/-!
# Rows that go together

The tables are one graph, in which a row has an edge to every row that it
names. A deletion takes the rows from which a row of its kind can be reached,
and leaves all others in their places (`remove_eq_without`). For a single row
these are listed table by table (`TakenWith`), and all of them are of one user
(`delete_takes`).
-/

namespace PresetWorkspace.Workspace

inductive Row where
  | group (g : GroupRow)
  | tag (t : TagRow)
  | todo (t : TodoRow)
  | link (l : LinkRow)

namespace Row

def table : Row → Table
  | group _ => .groups
  | tag _ => .tags
  | todo _ => .todos
  | link _ => .links

def key : Row → Key
  | group g => g.id
  | tag t => t.id
  | todo t => t.id
  | link _ => .none

def In (w : Workspace) : Row → Prop
  | group g => g ∈ w.groups
  | tag t => t ∈ w.tags
  | todo t => t ∈ w.todos
  | link l => l ∈ w.links

def IsOf (w : Workspace) (user : String) : Row → Prop
  | group g => g.user = user
  | tag t => t.user = user
  | todo t => t.user = user
  | link l => ∃ t ∈ w.todos, t.id = l.todo ∧ t.user = user

inductive Names : Row → Row → Prop
  | tagGroup {t : TagRow} {g : GroupRow} (h : t.group = g.id) : Names (tag t) (group g)
  | todoGroup {t : TodoRow} {g : GroupRow} (h : t.group = g.id) : Names (todo t) (group g)
  | todoParent {t q : TodoRow} (h : t.parent = q.id) : Names (todo t) (todo q)
  | linkTodo {l : LinkRow} {t : TodoRow} (h : l.todo = t.id) : Names (link l) (todo t)
  | linkTag {l : LinkRow} {t : TagRow} (h : l.tag = t.id) : Names (link l) (tag t)

end Row

/-- A path of rows from one to another, each of which names the next one. -/
def Reaches (w : Workspace) : Row → Row → Prop :=
  Relation.ReflTransGen fun r q => r.In w ∧ q.In w ∧ r.Names q

open Classical in
/-- The rows that are not of a kind, each as it was and in its place. -/
noncomputable def without (w : Workspace) (P : Row → Prop) : Workspace :=
  w.keep (fun g => ¬ P (.group g)) (fun t => ¬ P (.tag t)) (fun t => ¬ P (.todo t)) (fun l => ¬ P (.link l))

/-! ## What a deletion takes -/

def Deletion.strikes : Deletion → Row → Bool
  | .groups p, .group g => p g
  | .tags p, .tag t => p t
  | .todos p, .todo t => p t
  | .links p, .link l => p l
  | _, _ => false

def Deletion.TakesRow (d : Deletion) (w : Workspace) : Row → Prop
  | .group g => d.takesGroup g = true
  | .tag t => d.takesTag w t = true
  | .todo t => t.id ∈ d.goneTodos w
  | .link l => d.takesLink l = true ∨ l.todo ∈ d.goneTodos w ∨ l.tag ∈ d.goneTags w

section
variable {d : Deletion}

theorem strikes_group {g : GroupRow} : d.strikes (.group g) = d.takesGroup g := by
  cases d <;> rfl

theorem strikes_tag {t : TagRow} : d.strikes (.tag t) = true ↔ ∃ p, d = .tags p ∧ p t = true := by
  cases d <;> simp [Deletion.strikes]

theorem strikes_todo {t : TodoRow} : d.strikes (.todo t) = true ↔ ∃ p, d = .todos p ∧ p t = true := by
  cases d <;> simp [Deletion.strikes]

theorem strikes_link {l : LinkRow} : d.strikes (.link l) = d.takesLink l := by
  cases d <;> rfl

end

theorem reaches_of_names {w : Workspace} {r q : Row} (hn : r.Names q) (hr : r.In w) (hq : q.In w) : w.Reaches r q :=
  .single ⟨hr, hq, hn⟩

theorem reaches_of_chain {w : Workspace} {q t : TodoRow} (hchain : Relation.ReflTransGen w.IsParent q t) :
    w.Reaches (.todo t) (.todo q) := by
  induction hchain with
  | refl => exact .refl
  | tail _ hp ih =>
    obtain ⟨hq, ht, hparent⟩ := hp
    exact (reaches_of_names (.todoParent hparent) ht hq).trans ih

section
variable {w : Workspace} {d : Deletion} (h : w.Consistent)
include h

theorem takesRow_of_strikes {r : Row} (hr : r.In w) (hstruck : d.strikes r = true) : d.TakesRow w r := by
  cases r with
  | group g => exact strikes_group.symm.trans hstruck
  | tag t => exact (takesTag_iff h).mpr (.inl (strikes_tag.mp hstruck))
  | todo t =>
    have htakes : d.takesTodo w t = true := (takesTodo_iff h).mpr (.inl (strikes_todo.mp hstruck))
    exact (mem_goneTodos_iff h hr).mpr ⟨t, hr, htakes, .refl⟩
  | link l => exact .inl (strikes_link.symm.trans hstruck)

/-- A row goes with each row that it names. -/
theorem takesRow_of_names {r q : Row} (hr : r.In w) (hq : q.In w) (hn : r.Names q) (htakes : d.TakesRow w q) :
    d.TakesRow w r := by
  cases hn with
  | @tagGroup t g hid => exact (takesTag_iff h).mpr (.inr ⟨g, hq, htakes, hid.symm⟩)
  | @todoGroup t g hid =>
    have hgroup : d.takesTodo w t = true := (takesTodo_iff h).mpr (.inr ⟨g, hq, htakes, hid.symm⟩)
    exact (mem_goneTodos_iff h hr).mpr ⟨t, hr, hgroup, .refl⟩
  | todoParent hid =>
    obtain ⟨first, hfirst, hp, hchain⟩ := (mem_goneTodos_iff h hq).mp htakes
    exact (mem_goneTodos_iff h hr).mpr ⟨first, hfirst, hp, hchain.tail ⟨hq, hr, hid⟩⟩
  | linkTodo hid => exact .inr (.inl (hid ▸ htakes))
  | @linkTag l t hid => exact .inr (.inr (hid ▸ (mem_goneTags h).mpr ⟨t, hq, htakes, rfl⟩))

/-! A row that goes is struck itself, or names a row that goes. -/

theorem struck_of_takesTag {t : TagRow} (ht : t ∈ w.tags) (htakes : d.takesTag w t = true) :
    ∃ x, x.In w ∧ d.strikes x = true ∧ w.Reaches (.tag t) x := by
  rcases (takesTag_iff h).mp htakes with hstruck | ⟨g, hg, hgroup, hid⟩
  · exact ⟨.tag t, ht, strikes_tag.mpr hstruck, .refl⟩
  · exact ⟨.group g, hg, strikes_group ▸ hgroup, reaches_of_names (.tagGroup hid.symm) ht hg⟩

theorem struck_of_mem_goneTodos {t : TodoRow} (ht : t ∈ w.todos) (hgone : t.id ∈ d.goneTodos w) :
    ∃ x, x.In w ∧ d.strikes x = true ∧ w.Reaches (.todo t) x := by
  obtain ⟨q, hq, htakes, hchain⟩ := (mem_goneTodos_iff h ht).mp hgone
  have hreaches : w.Reaches (.todo t) (.todo q) := reaches_of_chain hchain
  rcases (takesTodo_iff h).mp htakes with hstruck | ⟨g, hg, hgroup, hid⟩
  · exact ⟨.todo q, hq, strikes_todo.mpr hstruck, hreaches⟩
  · exact ⟨.group g, hg, strikes_group ▸ hgroup, hreaches.trans (reaches_of_names (.todoGroup hid.symm) hq hg)⟩

theorem struck_of_takesRow {r : Row} (hr : r.In w) (htakes : d.TakesRow w r) :
    ∃ x, x.In w ∧ d.strikes x = true ∧ w.Reaches r x := by
  cases r with
  | group g => exact ⟨.group g, hr, strikes_group ▸ htakes, .refl⟩
  | tag t => exact struck_of_takesTag h hr htakes
  | todo t => exact struck_of_mem_goneTodos h hr htakes
  | link l =>
    obtain ⟨t, ht, _, _, hid, -⟩ := h.linkEnds l hr
    rcases htakes with htakes | hgone | hgone
    · exact ⟨.link l, hr, strikes_link ▸ htakes, .refl⟩
    · obtain ⟨x, hx, hstruck, hreaches⟩ := struck_of_mem_goneTodos h ht (hid ▸ hgone)
      exact ⟨x, hx, hstruck, (reaches_of_names (.linkTodo hid.symm) hr ht).trans hreaches⟩
    · obtain ⟨tag, htag, htakes, hid⟩ := (mem_goneTags h).mp hgone
      obtain ⟨x, hx, hstruck, hreaches⟩ := struck_of_takesTag h htag htakes
      exact ⟨x, hx, hstruck, (reaches_of_names (.linkTag hid.symm) hr htag).trans hreaches⟩

theorem takesRow_iff {r : Row} (hr : r.In w) :
    d.TakesRow w r ↔ ∃ x, x.In w ∧ d.strikes x = true ∧ w.Reaches r x := by
  refine ⟨struck_of_takesRow h hr, ?_⟩
  rintro ⟨x, hx, hstruck, hreaches⟩
  -- Along the path back from the row that is struck, every row goes with the one it names.
  induction hreaches using Relation.ReflTransGen.head_induction_on with
  | refl => exact takesRow_of_strikes h hx hstruck
  | head hstep _ ih => exact takesRow_of_names h hstep.1 hstep.2.1 hstep.2.2 (ih hstep.2.1)

/-- A deletion takes the rows from which a row of its kind can be reached. -/
theorem remove_eq_without (d : Deletion) :
    w.remove d = w.without fun r => ∃ x, x.In w ∧ d.strikes x = true ∧ w.Reaches r x := by
  rw [remove_eq_keep h]
  refine keep_congr (fun g hg => ?_) (fun t ht => ?_) (fun t ht => ?_) fun l hl => ?_
  · have hiff := takesRow_iff (d := d) h (r := .group g) hg
    simp [← hiff, Deletion.TakesRow]
  · have hiff := takesRow_iff (d := d) h (r := .tag t) ht
    simp [← hiff, Deletion.TakesRow]
  · have hiff := takesRow_iff (d := d) h (r := .todo t) ht
    simp [← hiff, Deletion.TakesRow]
  · have hiff := takesRow_iff (d := d) h (r := .link l) hl
    simp [← hiff, Deletion.TakesRow, Bool.and_assoc]

end

/-! ## Deleting a single row -/

section
variable {w : Workspace} (h : w.Consistent)
include h

/-- Deleting a row by its id is a deletion that strikes this row alone. -/
theorem delete_eq_ok {row : Row} (hrow : row.In w) (htable : row.table ≠ .links) :
    ∃ d : Deletion, w.delete row.table row.key = .ok (1, w.remove d) ∧
      ∀ x : Row, x.In w → (d.strikes x = true ↔ x = row) := by
  have hrequire : w.requireTable row.table = .ok () := requireTable_eq_ok.mpr (h.hasTable _)
  have hreferences : w.requireReferences (row.table :: w.reached row.table) = .ok () := requireReferences_ok h _
  unfold delete
  simp only [hrequire, hreferences]
  cases row with
  | group g =>
    refine ⟨.groups (·.id = g.id), counted_of_mem hrow h.groupKeys, fun x hx => ?_⟩
    cases x with
    | group x => simpa [Deletion.strikes] using ⟨h.mem_groups_inj hx hrow, congrArg GroupRow.id⟩
    | _ => simp [Deletion.strikes]
  | tag t =>
    refine ⟨.tags (·.id = t.id), counted_of_mem hrow h.tagKeys, fun x hx => ?_⟩
    cases x with
    | tag x => simpa [Deletion.strikes] using ⟨List.inj_on_of_nodup_map h.tagIds hx hrow, congrArg TagRow.id⟩
    | _ => simp [Deletion.strikes]
  | todo t =>
    refine ⟨.todos (·.id = t.id), counted_of_mem hrow h.todoKeys, fun x hx => ?_⟩
    cases x with
    | todo x => simpa [Deletion.strikes] using ⟨h.mem_todos_inj hx hrow, congrArg TodoRow.id⟩
    | _ => simp [Deletion.strikes]
  | link l => exact absurd rfl htable

/-- A row is deleted with the rows that reach it. -/
theorem delete_row {row : Row} (hrow : row.In w) (htable : row.table ≠ .links) :
    w.delete row.table row.key = .ok (1, w.without (w.Reaches · row)) := by
  obtain ⟨d, hdelete, hstrikes⟩ := delete_eq_ok h hrow htable
  have hreaches : (fun r => ∃ x, x.In w ∧ d.strikes x = true ∧ w.Reaches r x) = (w.Reaches · row) := by
    funext r
    refine propext ⟨?_, fun hr => ⟨row, hrow, (hstrikes row hrow).mpr rfl, hr⟩⟩
    rintro ⟨x, hx, hstruck, hr⟩
    exact (hstrikes x hx).mp hstruck ▸ hr
  rw [hdelete, remove_eq_without h, hreaches]

end

/-! ## Rows that reach a row -/

/-- The rows that go with a row of a table: with a group its tags, its todos, and the links that touch any of them; with
a tag its links; with a todo all todos below it, and the links of these. -/
def TakenWith (w : Workspace) : Row → Row → Prop
  | .group g, .group g' => g' = g
  | .group g, .tag t => t.group = g.id
  | .group g, .todo t => t.group = g.id
  | .group g, .link l =>
    (∃ t ∈ w.todos, t.id = l.todo ∧ t.group = g.id) ∨ ∃ t ∈ w.tags, t.id = l.tag ∧ t.group = g.id
  | .tag t, .tag t' => t' = t
  | .tag t, .link l => l.tag = t.id
  | .todo q, .todo t => Relation.ReflTransGen w.IsParent q t
  | .todo q, .link l => ∃ t ∈ w.todos, t.id = l.todo ∧ Relation.ReflTransGen w.IsParent q t
  | .link l, .link l' => l' = l
  | _, _ => False

section
variable {w : Workspace} (h : w.Consistent)
include h

theorem group_eq_of_parent {t q : TodoRow} (ht : t ∈ w.todos) (hq : q ∈ w.todos) (hparent : t.parent = q.id) :
    t.group = q.group ∧ t.user = q.user := by
  obtain ⟨q', hq', hid, huser, hgroup⟩ := h.parent_mem ht (hparent ▸ keys_ne_none h q hq)
  obtain rfl : q' = q := h.mem_todos_inj hq' hq (hid.trans hparent)
  exact ⟨hgroup.symm, huser.symm⟩

theorem takenWith_of_names {row r q : Row} (hr : r.In w) (hq : q.In w) (hn : r.Names q) (htaken : w.TakenWith row q) :
    w.TakenWith row r := by
  cases hn with
  | tagGroup hid =>
    cases row with
    | group g => exact htaken ▸ hid
    | _ => cases htaken
  | todoGroup hid =>
    cases row with
    | group g => exact htaken ▸ hid
    | _ => cases htaken
  | todoParent hid =>
    cases row with
    | group g => exact (group_eq_of_parent h hr hq hid).1.trans htaken
    | todo x => exact htaken.tail ⟨hq, hr, hid⟩
    | _ => cases htaken
  | @linkTodo l t hid =>
    cases row with
    | group g => exact .inl ⟨t, hq, hid.symm, htaken⟩
    | todo x => exact ⟨t, hq, hid.symm, htaken⟩
    | _ => cases htaken
  | @linkTag l t hid =>
    cases row with
    | group g => exact .inr ⟨t, hq, hid.symm, htaken⟩
    | tag x => exact htaken ▸ hid
    | _ => cases htaken

theorem reaches_iff {row r : Row} (hrow : row.In w) (hr : r.In w) : w.Reaches r row ↔ w.TakenWith row r := by
  constructor
  · intro hreaches
    induction hreaches using Relation.ReflTransGen.head_induction_on with
    | refl =>
      cases row with
      | todo t => exact .refl
      | _ => rfl
    | head hstep _ ih => exact takenWith_of_names h hstep.1 hstep.2.1 hstep.2.2 (ih hstep.2.1)
  · intro htaken
    cases row with
    | group g =>
      cases r with
      | group g' => exact htaken ▸ .refl
      | tag t => exact reaches_of_names (.tagGroup htaken) hr hrow
      | todo t => exact reaches_of_names (.todoGroup htaken) hr hrow
      | link l =>
        rcases htaken with ⟨t, ht, hid, hgroup⟩ | ⟨t, ht, hid, hgroup⟩
        · exact (reaches_of_names (.linkTodo hid.symm) hr ht).trans (reaches_of_names (.todoGroup hgroup) ht hrow)
        · exact (reaches_of_names (.linkTag hid.symm) hr ht).trans (reaches_of_names (.tagGroup hgroup) ht hrow)
    | tag t =>
      cases r with
      | tag t' => exact htaken ▸ .refl
      | link l => exact reaches_of_names (.linkTag htaken) hr hrow
      | _ => cases htaken
    | todo q =>
      cases r with
      | todo t => exact reaches_of_chain htaken
      | link l =>
        obtain ⟨t, ht, hid, hchain⟩ := htaken
        exact (reaches_of_names (.linkTodo hid.symm) hr ht).trans (reaches_of_chain hchain)
      | _ => cases htaken
    | link l =>
      cases r with
      | link l' => exact htaken ▸ .refl
      | _ => cases htaken

/-! ## Users -/

theorem isOf_link {l : LinkRow} {t : TodoRow} {a : String} (ht : t ∈ w.todos) (hid : l.todo = t.id) :
    (Row.link l).IsOf w a ↔ t.user = a := by
  refine ⟨?_, fun huser => ⟨t, ht, hid.symm, huser⟩⟩
  rintro ⟨t', ht', hid', huser⟩
  obtain rfl : t' = t := h.mem_todos_inj ht' ht (hid'.trans hid)
  exact huser

/-- A row names rows of its own user only. -/
theorem isOf_iff_of_names {r q : Row} (hr : r.In w) (hq : q.In w) (hn : r.Names q) (a : String) :
    r.IsOf w a ↔ q.IsOf w a := by
  cases hn with
  | @tagGroup t g hid =>
    obtain ⟨g', hg', hid', huser⟩ := h.tagGroup t hr
    obtain rfl : g' = g := h.mem_groups_inj hg' hq (hid'.trans hid)
    exact Eq.congr_left huser.symm
  | @todoGroup t g hid =>
    obtain ⟨g', hg', hid', huser⟩ := h.todoGroup t hr
    obtain rfl : g' = g := h.mem_groups_inj hg' hq (hid'.trans hid)
    exact Eq.congr_left huser.symm
  | todoParent hid => exact Eq.congr_left (group_eq_of_parent h hr hq hid).2
  | linkTodo hid => exact isOf_link h hq hid
  | @linkTag l t hid =>
    obtain ⟨todo, htodo, t', ht', hid', htid, huser⟩ := h.linkEnds l hr
    obtain rfl : t' = t := List.inj_on_of_nodup_map h.tagIds ht' hq (htid.trans hid)
    rw [isOf_link h htodo hid'.symm, ← huser]
    exact Iff.rfl

theorem isOf_iff_of_reaches {r q : Row} (hreaches : w.Reaches r q) (a : String) : r.IsOf w a ↔ q.IsOf w a := by
  induction hreaches using Relation.ReflTransGen.head_induction_on with
  | refl => exact Iff.rfl
  | head hstep _ ih => exact (isOf_iff_of_names h hstep.1 hstep.2.1 hstep.2.2 a).trans ih

end

/-- Without some rows that are not a user's, the user's rows are the same. -/
theorem ownedBy_without {w : Workspace} {P : Row → Prop} {a : String} (h : ∀ r : Row, r.IsOf w a → ¬ P r) :
    (w.without P).ownedBy a = w.ownedBy a := by
  classical
  have htodo : ∀ t ∈ w.todos, decide (t.user = a) = true → decide (¬ P (.todo t)) = true := by
    intro t _ huser
    have huser : t.user = a := of_decide_eq_true huser
    exact decide_eq_true (h (.todo t) huser)
  have hany (l : LinkRow) : ((w.todos.filter fun t => ¬ P (.todo t)).any fun t => t.id = l.todo && t.user = a) =
      w.todos.any fun t => t.id = l.todo && t.user = a :=
    any_filter_of_imp fun t ht hlink => htodo t ht (Bool.and_eq_true_iff.mp hlink).2
  unfold ownedBy without keep
  simp only [hany]
  congr 1
  · refine filter_filter_of_imp fun g _ huser => ?_
    have huser : g.user = a := of_decide_eq_true huser
    exact decide_eq_true (h (.group g) huser)
  · refine filter_filter_of_imp fun t _ huser => ?_
    have huser : t.user = a := of_decide_eq_true huser
    exact decide_eq_true (h (.tag t) huser)
  · exact filter_filter_of_imp htodo
  · refine filter_filter_of_imp fun l _ hlink => decide_eq_true (h (.link l) ?_)
    obtain ⟨t, ht, hl⟩ := List.any_eq_true.mp hlink
    simp only [Bool.and_eq_true, decide_eq_true_eq] at hl
    exact ⟨t, ht, hl⟩

/-! ## Histories -/

/-- After any history, a group, a tag or a todo is deleted with exactly the rows that reach it along the rows they name,
and those are the ones that belong to it. All other rows stay as they are and in their places, and name rows that are
still there; and the rows of other users are the same as before. -/
theorem delete_takes {φ α : Type} (events : List (Event φ α)) {row : Row} (hrow : row.In (after events))
    (htable : row.table ≠ .links) :
    let w := after events
    let w' := w.without (w.Reaches · row)
    w.delete row.table row.key = .ok (1, w') ∧ (∀ r : Row, r.In w → (w.Reaches r row ↔ w.TakenWith row r)) ∧
      w'.Consistent ∧ ∀ a, ¬ row.IsOf w a → w'.ownedBy a = w.ownedBy a := by
  intro w w'
  have h : w.Consistent := consistent_of_history events
  have hdelete : w.delete row.table row.key = .ok (1, w') := delete_row h hrow htable
  refine ⟨hdelete, fun r hr => reaches_iff h hrow hr, ?_, fun a hother => ?_⟩
  · rcases delete_eq_remove hdelete with hsame | ⟨d, hremove⟩
    · exact hsame ▸ h
    · exact hremove ▸ h.remove d
  · exact ownedBy_without fun r hr hreaches => hother ((isOf_iff_of_reaches h hreaches a).mp hr)

def twoHomes : List (Event Unit Unit) :=
  let create (user : String) (id : Nat) (call : Call Uuid) : Event Unit Unit :=
    .step ⟨user, .create call, fun _ => ⟨⟨id⟩, 0⟩⟩
  let todo (title : String) (group : Uuid) (tags : List Uuid) (parent : Option Uuid) : Call Uuid :=
    .todo { title, description := none, group, tags := some tags, parent }
  [create "alice" 1 (.group ⟨"home", "red", none, none, true⟩), create "alice" 2 (.group ⟨"work", "red", none, none, true⟩),
    create "bob" 3 (.group ⟨"home", "red", none, none, true⟩), create "alice" 11 (.tag ⟨"urgent", "red", none, ⟨1⟩⟩),
    create "alice" 12 (.tag ⟨"late", "red", none, ⟨2⟩⟩), create "bob" 13 (.tag ⟨"urgent", "red", none, ⟨3⟩⟩),
    create "alice" 21 (todo "dinner" ⟨1⟩ [⟨12⟩] none), create "alice" 22 (todo "shop" ⟨1⟩ [⟨11⟩] (some ⟨21⟩)),
    create "alice" 23 (todo "report" ⟨2⟩ [⟨11⟩, ⟨12⟩] none), create "bob" 24 (todo "sleep" ⟨3⟩ [⟨13⟩] none)]

/-- The first group takes its tag from a todo of the second one, which stays and keeps its other tag. -/
theorem delete_takes_home :
    let w := after twoHomes
    let report : TodoRow := ⟨.id ⟨23⟩, "alice", .id ⟨2⟩, .none, "report", none, .integer 0⟩
    let sleep : TodoRow := ⟨.id ⟨24⟩, "bob", .id ⟨3⟩, .none, "sleep", none, .integer 0⟩
    ∃ w', w.delete .groups (.id ⟨1⟩) = .ok (1, w') ∧ w'.todos = [report, sleep] ∧
      w'.links = [⟨report.id, .id ⟨12⟩⟩, ⟨sleep.id, .id ⟨13⟩⟩] ∧ w'.Consistent ∧ w'.ownedBy "bob" = w.ownedBy "bob" := by
  intro w report sleep
  let home : GroupRow := ⟨.id ⟨1⟩, "alice", "home", "red", none, none, .integer 1, .integer 0⟩
  have hrow : (Row.group home).In w := by
    show home ∈ (after twoHomes).groups
    decide +kernel
  have hleft : ((w.delete .groups (.id ⟨1⟩)).toOption.map fun out => (out.2.todos, out.2.links)) =
      some ([report, sleep], [⟨report.id, .id ⟨12⟩⟩, ⟨sleep.id, .id ⟨13⟩⟩]) := by decide +kernel
  obtain ⟨hdelete, -, hcons, hother⟩ := delete_takes twoHomes hrow (by decide)
  have hdelete : w.delete .groups (.id ⟨1⟩) = .ok (1, w.without (w.Reaches · (.group home))) := hdelete
  rw [hdelete] at hleft
  obtain ⟨htodos, hlinks⟩ := Prod.mk.inj (Option.some.inj hleft)
  refine ⟨_, hdelete, htodos, hlinks, hcons, hother "bob" ?_⟩
  show ¬ home.user = "bob"
  decide

end PresetWorkspace.Workspace
