import PresetWorkspace.Proofs.Acceptance

/-!
# What is refused

A todo is refused for the first check that it fails, and then nothing is
written; otherwise its row and all of its links are (`scope_todo`). All that a
preset asks for is in order but for the titles of its todos, so a preset is
refused for the first title that has no character before its first NUL
(`setUp_titled`).
-/

namespace PresetWorkspace.Workspace.Session

/-! ## Todos -/

/-- After any history, a user gets a todo in an own group, below an own todo of that group if it has a parent, with own
tags, and with a title, and only then. It has one row, and one link for each of its tags. A refusal tells of the first
check that failed, in this order, and leaves all tables as they were. -/
theorem scope_todo {φ α : Type} (events : List (Event φ α)) {source : Nat → Draw} {user : String} {s : Session}
    (r : TodoRequest Uuid) (hs : s.workspace = after events)
    (hfresh : ∀ t ∈ s.workspace.todos, t.id ≠ .id (source s.drawn).id) :
    let w := s.workspace
    let out := scope source user (.todo r) s
    ((∃ id, out.1 = .ok id) ↔
      (∃ g ∈ w.groups, g.id = .id r.group ∧ g.user = user) ∧
        (∀ id ∈ r.parent, ∃ q ∈ w.todos, q.id = .id id ∧ q.user = user ∧ q.group = .id r.group) ∧
        (∀ id ∈ r.tags.getD [], ∃ t ∈ w.tags, t.id = .id id ∧ t.user = user) ∧ 0 < titleLength r.title) ∧
      (∀ id, out.1 = .ok id → ∃ tags : List Uuid, tags.Nodup ∧ (∀ tag, tag ∈ tags ↔ tag ∈ r.tags.getD []) ∧
        out.2.workspace =
          { w with
            todos := w.todos ++ [
              { id := .id id, user := user, group := .id r.group, parent := .ofId? r.parent, title := r.title,
                description := r.description, createdAt := .integer (source s.drawn).time }]
            links := w.links ++ tags.map fun tag => ⟨.id id, .id tag⟩ }) ∧
      ∀ e, out.1 = .error e → r.fault? w user = some e ∧ out.2.workspace = w := by
  have hw : s.workspace.Consistent := by
    rw [hs]
    exact consistent_of_history events
  obtain ⟨hanswer, hworkspace, -⟩ := scope_eq source user (.todo r) s
  have hcreate : create user (source s.drawn) (.todo r) s.workspace = _ := create_todo_eq hw.tables hfresh
  simp only [← ownsGroup_iff, ← ownsTodo_iff, ← ownsTag_iff, ← TodoRequest.forall_checks]
  rw [← TodoRequest.fault?_eq_none, hanswer, hworkspace, hcreate]
  cases r.fault? s.workspace user with
  | some e => simp
  | none =>
    refine ⟨by simp, ?_, by simp⟩
    intro id hid
    cases hid
    refine ⟨(r.tags.getD []).eraseDups, nodup_eraseDups _, fun tag => List.mem_eraseDups, ?_⟩
    -- No link names the new todo yet, so that none of its own is there already.
    rw [linked_new (hw.no_links hfresh)]
    rfl

def twoUsers : List (Event Unit Unit) :=
  let group (user : String) (id : Nat) : Event Unit Unit :=
    .step ⟨user, .create (.group ⟨"g", "", none, none, true⟩), fun _ => ⟨⟨id⟩, 0⟩⟩
  let tag (user : String) (id group : Nat) : Event Unit Unit :=
    .step ⟨user, .create (.tag ⟨"t", "", none, ⟨group⟩⟩), fun _ => ⟨⟨id⟩, 0⟩⟩
  [group "alice" 1, group "alice" 2, group "bob" 3, tag "alice" 11 1, tag "alice" 12 2, tag "bob" 13 3,
    .step ⟨"alice", .create (.todo ⟨"a", none, ⟨1⟩, none, none⟩), fun _ => ⟨⟨21⟩, 0⟩⟩]

/-- Tags of both groups, one of them twice; then another user's tag, behind which nothing else is looked at. -/
theorem scope_todo_twoUsers :
    let s : Session := { workspace := after twoUsers }
    let source : Nat → Draw := fun _ => ⟨⟨22⟩, 5⟩
    let r : TodoRequest Uuid := ⟨"b", none, ⟨1⟩, some [⟨12⟩, ⟨11⟩, ⟨12⟩], some ⟨21⟩⟩
    let r' : TodoRequest Uuid := ⟨"", none, ⟨1⟩, some [⟨12⟩, ⟨13⟩, ⟨14⟩], some ⟨21⟩⟩
    (∀ t ∈ s.workspace.todos, t.id ≠ .id (source s.drawn).id) ∧
      (∃ id, (scope source "alice" (.todo r) s).1 = .ok id) ∧
      (scope source "alice" (.todo r) s).2.workspace.links = [⟨.id ⟨22⟩, .id ⟨12⟩⟩, ⟨.id ⟨22⟩, .id ⟨11⟩⟩] ∧
      (scope source "alice" (.todo r') s).1 = .error (.tagNotFound ⟨13⟩) ∧
      (scope source "alice" (.todo r') s).2.workspace = s.workspace := by
  intro s source r r'
  have hs : s.workspace = after twoUsers := rfl
  have hfresh : ∀ t ∈ s.workspace.todos, t.id ≠ .id (source s.drawn).id := by decide +kernel
  have hgroup : ∃ g ∈ s.workspace.groups, g.id = .id ⟨1⟩ ∧ g.user = "alice" := by decide +kernel
  have hparent : ∃ q ∈ s.workspace.todos, q.id = .id ⟨21⟩ ∧ q.user = "alice" ∧ q.group = .id ⟨1⟩ := by decide +kernel
  have htags : ∀ id ∈ r.tags.getD [], ∃ t ∈ s.workspace.tags, t.id = .id id ∧ t.user = "alice" := by decide +kernel
  have hlinks : (scope source "alice" (.todo r) s).2.workspace.links =
      [⟨.id ⟨22⟩, .id ⟨12⟩⟩, ⟨.id ⟨22⟩, .id ⟨11⟩⟩] := by decide +kernel
  have hanswer : (scope source "alice" (.todo r') s).1 = .error (.tagNotFound ⟨13⟩) := rfl
  have haccepts := (@scope_todo _ _ twoUsers source "alice" s r hs hfresh).1
  have hrejects := (@scope_todo _ _ twoUsers source "alice" s r' hs hfresh).2.2
  refine ⟨hfresh, haccepts.mpr ⟨hgroup, ?_, htags, by decide +kernel⟩, hlinks, hanswer, (hrejects _ hanswer).2⟩
  rintro id ⟨⟩
  exact hparent

/-! ## Presets -/

/-- Where all tables are there and new ids are new, a preset is set up if every title in it has a character before its
first NUL, at whatever depth, and only then. The failure otherwise tells of the first title in document order that has
none, and of the rule of the table that it breaks. -/
theorem setUp_titled {source : Nat → Draw} {user name : String} {p : Preset} {s : Session}
    (htables : s.workspace.dropped = []) (hfresh : Fresh source (s.drawn + p.recordCount) s) :
    ((∃ r, (setUp source user name p s).1 = .ok r) ↔ ∀ title ∈ TodoTemplate.titles p.todos, 0 < titleLength title) ∧
      ∀ f, (setUp source user name p s).1 = .error f →
        ∃ before title after, TodoTemplate.titles p.todos = before ++ title :: after ∧
          (∀ t ∈ before, 0 < titleLength t) ∧ titleLength title = 0 ∧
          f =
            { message := "Failed to initialize preset '" ++ name ++ "'"
              causes := [
                "Failed to create todo '" ++ title ++ "'",
                "CHECK constraint failed: length(title) > 0",
                "Error code 275: A CHECK constraint failed"]
              origin := .storage } := by
  rw [setUp_eq p name htables hfresh (Nat.le_refl _)]
  cases huntitled : TodoTemplate.untitled? p.todos with
  | none =>
    have htitles := TodoTemplate.untitled?_eq_none.mp huntitled
    simp only [isTitle_iff] at htitles
    simpa using htitles
  | some title =>
    -- Titles are looked at in the order in which the todos are created.
    obtain ⟨hnone, before, after, htitles, hbefore⟩ := List.find?_eq_some_iff_append.mp huntitled
    have hempty : titleLength title = 0 := by
      rw [Bool.not_eq_true', ← Bool.not_eq_true, isTitle_iff] at hnone
      omega
    refine ⟨⟨?_, ?_⟩, ?_⟩
    · rintro ⟨r, hr⟩
      cases hr
    · intro hall
      have : 0 < titleLength title := hall title (by rw [htitles]; simp)
      omega
    · intro f hf
      cases hf
      refine ⟨before, title, after, htitles, ?_, hempty, ?_⟩
      · intro t ht
        rw [← isTitle_iff]
        simpa using hbefore t ht
      · rfl

def fourTodos (third fourth : String) : Preset :=
  let todo (title : String) (below : List TodoTemplate) : TodoTemplate := { title, children := some below }
  { name := "p"
    group := { name := "", color := "" }
    tags := [{ name := "t", color := "" }, { name := "t", color := "" }]
    todos := [todo "a" [todo "b" [], todo third []], todo fourth []] }

/-- The third title is behind a NUL and the fourth one is empty. -/
theorem setUp_titled_third :
    let s : Session := { workspace := after twoUsers }
    let source : Nat → Draw := fun n => ⟨⟨BitVec.ofNat 128 (100 + n)⟩, 0⟩
    (∀ third fourth, Fresh source (s.drawn + (fourTodos third fourth).recordCount) s) ∧
      (∃ r, (setUp source "carol" "q" (fourTodos "c" "d") s).1 = .ok r) ∧
      (setUp source "carol" "q" (fourTodos "\x00c" "") s).1 = .error
        { message := "Failed to initialize preset 'q'"
          causes := [
            "Failed to create todo '\x00c'",
            "CHECK constraint failed: length(title) > 0",
            "Error code 275: A CHECK constraint failed"]
          origin := .storage } := by
  intro s source
  have hfresh (third fourth : String) : Fresh source (s.drawn + (fourTodos third fourth).recordCount) s := by
    have hdistinct : ∀ n < 7, ∀ m < n, (source m).id ≠ (source n).id := by decide +kernel
    have hgroups : ∀ n < 7, ∀ g ∈ s.workspace.groups, g.id ≠ .id (source n).id := by decide +kernel
    have htags : ∀ n < 7, ∀ t ∈ s.workspace.tags, t.id ≠ .id (source n).id := by decide +kernel
    have htodos : ∀ n < 7, ∀ t ∈ s.workspace.todos, t.id ≠ .id (source n).id := by decide +kernel
    exact ⟨fun m n _ hmn hn => hdistinct n hn m hmn, fun n _ => hgroups n, fun n _ => htags n, fun n _ => htodos n⟩
  have htables : s.workspace.dropped = [] := by decide +kernel
  obtain ⟨haccepts, -⟩ := @setUp_titled source "carol" "q" _ s htables (hfresh "c" "d")
  obtain ⟨haccepts', hrejects⟩ := @setUp_titled source "carol" "q" _ s htables (hfresh "\x00c" "")
  refine ⟨hfresh, haccepts.mpr (by decide +kernel), ?_⟩
  cases hout : (setUp source "carol" "q" (fourTodos "\x00c" "") s).1 with
  | ok r =>
    have hall := haccepts'.mp ⟨r, hout⟩
    exact absurd hall (by decide +kernel)
  | error f =>
    obtain ⟨before, title, after, htitles, hbefore, hempty, rfl⟩ := hrejects f hout
    have hfour : ["a", "b", "\x00c", ""] = before ++ title :: after := htitles
    rcases before with _ | ⟨x, _ | ⟨y, _ | ⟨z, before⟩⟩⟩
    · cases hfour
      exact absurd hempty (by decide)
    · cases hfour
      exact absurd hempty (by decide)
    · cases hfour
      rfl
    · obtain rfl : "\x00c" = z := (List.cons.inj (List.cons.inj (List.cons.inj hfour).2).2).1
      exact absurd (hbefore "\x00c" (by simp)) (by decide)

end PresetWorkspace.Workspace.Session
