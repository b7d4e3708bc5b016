import PresetWorkspace.Proofs.Growth
import PresetWorkspace.Proofs.Removal

/-!
# The trace of a history

All that a history has created and removed, in order. An operation that ends
well has made the records of the calls that were accepted in it, whatever
became of its other calls; one that fails has made none. `Step.result_eq` says
that the rows of these records are all that the operation adds.
-/

namespace PresetWorkspace.Workspace

/-! ## Records -/

inductive Record where
  | group (g : Group)
  | tag (t : Tag)
  | todo (t : Todo)
  deriving DecidableEq

namespace Record

def id : Record → Uuid
  | .group g => g.id
  | .tag t => t.id
  | .todo t => t.id

def group? : Record → Option Group
  | .group g => some g
  | _ => none

def tag? : Record → Option Tag
  | .tag t => some t
  | _ => none

def todo? : Record → Option Todo
  | .todo t => some t
  | _ => none

theorem group?_eq_some {r : Record} {g : Group} : r.group? = some g ↔ r = .group g := by
  cases r <;> simp [group?]

theorem tag?_eq_some {r : Record} {t : Tag} : r.tag? = some t ↔ r = .tag t := by
  cases r <;> simp [tag?]

theorem todo?_eq_some {r : Record} {t : Todo} : r.todo? = some t ↔ r = .todo t := by
  cases r <;> simp [todo?]

def of (user : String) (draw : Draw) : Call Uuid → Record
  | .group r => .group (r.record user draw)
  | .tag r => .tag (r.record user draw)
  | .todo r => .todo (r.record user draw)

end Record

def groupsIn (records : List Record) : List Group := records.filterMap Record.group?

def tagsIn (records : List Record) : List Tag := records.filterMap Record.tag?

def todosIn (records : List Record) : List Todo := records.filterMap Record.todo?

section
variable {records : List Record}

theorem mem_groupsIn {g : Group} : g ∈ groupsIn records ↔ .group g ∈ records := by
  simp [groupsIn, List.mem_filterMap, Record.group?_eq_some]

theorem mem_tagsIn {t : Tag} : t ∈ tagsIn records ↔ .tag t ∈ records := by
  simp [tagsIn, List.mem_filterMap, Record.tag?_eq_some]

theorem mem_todosIn {t : Todo} : t ∈ todosIn records ↔ .todo t ∈ records := by
  simp [todosIn, List.mem_filterMap, Record.todo?_eq_some]

end

theorem filterMap_filter_of_inj {α β : Type} {f : α → Option β} {g : β → α} (h : ∀ {a b}, f a = some b ↔ a = g b)
    (p : α → Bool) (l : List α) : (l.filter p).filterMap f = (l.filterMap f).filter fun b => p (g b) := by
  rw [List.filterMap_filter, List.filter_filterMap]
  congr 1
  funext a
  cases hf : f a with
  | none => simp
  | some b =>
    rw [h.mp hf]
    simp [Option.filter]

theorem groupsIn_filter (p : Record → Bool) (records : List Record) :
    groupsIn (records.filter p) = (groupsIn records).filter fun g => p (.group g) :=
  filterMap_filter_of_inj Record.group?_eq_some p records

theorem tagsIn_filter (p : Record → Bool) (records : List Record) :
    tagsIn (records.filter p) = (tagsIn records).filter fun t => p (.tag t) :=
  filterMap_filter_of_inj Record.tag?_eq_some p records

theorem todosIn_filter (p : Record → Bool) (records : List Record) :
    todosIn (records.filter p) = (todosIn records).filter fun t => p (.todo t) :=
  filterMap_filter_of_inj Record.todo?_eq_some p records

def addAll (w : Workspace) (records : List Record) : Workspace :=
  w.add (groupsIn records) (tagsIn records) (todosIn records)

theorem addAll_nil (w : Workspace) : w.addAll [] = w := add_nil w

theorem addAll_append (w : Workspace) (records records' : List Record) :
    w.addAll (records ++ records') = (w.addAll records).addAll records' := by
  simp only [addAll, groupsIn, tagsIn, todosIn, List.filterMap_append, add_add]

theorem adding_eq_addAll (w : Workspace) (user : String) (draw : Draw) (call : Call Uuid) :
    w.adding user draw call = w.addAll [.of user draw call] := by
  cases call <;> rfl

/-! ## Operations -/

/-- Answers as the store of a user does, and lists the records of the calls that it accepts. -/
def Session.tracing (source : Nat → Draw) (user : String) : Store Uuid Error (Session × List Record) := fun call =>
  ExceptT.mk fun (s, records) =>
    match scope source user call s with
    | (.ok id, s') => (.ok id, s', records ++ [.of user (source s.drawn) call])
    | (.error e, s') => (.error e, s', records)

def committed {ε α : Type} (body : Creating ε (Session × List Record) α) (w : Workspace) : List Record :=
  match body ({ workspace := w }, []) with
  | (.ok _, _, records) => records
  | (.error _, _) => []

section
variable {φ α : Type}

def Step.made (st : Step φ α) (w : Workspace) : List Record :=
  let store := Session.tracing st.source st.user
  match st.operation with
  | .create call => committed (store call) w
  | .transact body => committed (body.run store) w
  | .setUp name p => committed (p.materialize name store) w

/-- What is listed in a trace: a record that was made, or a deletion of all rows of a kind. -/
inductive Item where
  | made (r : Record)
  | removed (d : Deletion)

def Event.items : Event φ α → Workspace → List Item
  | .step st, w => (st.made w).map .made
  | .remove d, _ => [.removed d]
  | .delete t id, _ => (Deletion.ofId? t id).toList.map .removed

def traceFrom (w : Workspace) : List (Event φ α) → List Item
  | [] => []
  | e :: events => e.items w ++ traceFrom (e.result w) events

def trace (events : List (Event φ α)) : List Item := traceFrom .empty events

end

def madeIn (items : List Item) : List Record :=
  items.filterMap fun
    | .made r => some r
    | .removed _ => none

theorem madeIn_append (items items' : List Item) : madeIn (items ++ items') = madeIn items ++ madeIn items' :=
  List.filterMap_append

theorem madeIn_map_made (records : List Record) : madeIn (records.map .made) = records := by
  simp [madeIn, List.filterMap_map]

/-! ## What an operation adds -/

theorem create_error {w : Workspace} {user : String} {draw : Draw} {call : Call Uuid} {e : Error} (h : w.Consistent)
    (he : (create user draw call w).1 = .error e) : (create user draw call w).2 = w := by
  have ho : Outcome w user draw call _ := create_outcome call
  generalize create user draw call w = out at ho he
  cases ho with
  | rejected e => rfl
  | group fresh => cases he
  | tag owned fresh => cases he
  | todo owned parent tags title fresh => cases he
  | unlinked e gone fresh =>
    rw [h.hasTable] at gone
    cases gone

namespace Session

variable {source : Nat → Draw} {user : String} {s : Session}

/-- The tracing store answers like the one that it traces and leaves the same session, which has the rows of the new
records. -/
def Traced {ε α : Type} (body : Creating ε Session α) (traced : Creating ε (Session × List Record) α) (s : Session)
    (records : List Record) : Prop :=
  ∃ made, traced (s, records) = ((body s).1, (body s).2, records ++ made) ∧
    (body s).2.workspace = s.workspace.addAll made

theorem scope_traced (h : s.workspace.Consistent) (call : Call Uuid) (records : List Record) :
    Traced (scope source user call) (tracing source user call) s records ∧
      (scope source user call s).2.workspace.Consistent := by
  obtain ⟨hanswer, hworkspace, -⟩ := scope_eq source user call s
  refine ⟨?_, hworkspace ▸ h.create user _ call⟩
  unfold Traced tracing ExceptT.mk
  cases hscope : scope source user call s with
  | mk r s' =>
    rw [hscope] at hanswer hworkspace
    cases r with
    | ok id =>
      obtain ⟨-, hadding⟩ := create_ok h hanswer.symm
      refine ⟨[.of user (source s.drawn) call], by simp only [hscope], ?_⟩
      exact hworkspace.trans (hadding.trans (adding_eq_addAll _ _ _ _))
    | error e =>
      refine ⟨[], by simp only [hscope, List.append_nil], ?_⟩
      exact hworkspace.trans ((create_error h hanswer.symm).trans (addAll_nil _).symm)

theorem run_traced {φ α : Type} (b : Script Uuid Error φ α) (h : s.workspace.Consistent) (records : List Record) :
    Traced (b.run (scope source user)) (b.run (tracing source user)) s records := by
  induction b generalizing s records with
  | give v => exact ⟨[], by rw [List.append_nil]; rfl, (addAll_nil _).symm⟩
  | fail e => exact ⟨[], by rw [List.append_nil]; rfl, (addAll_nil _).symm⟩
  | ask call next ih =>
    have hcall : Traced (scope source user call) (tracing source user call) s records ∧ _ := scope_traced h call records
    obtain ⟨⟨made, htracing, hrows⟩, hcons⟩ := hcall
    obtain ⟨made', hrun, hrows'⟩ := ih (scope source user call s).1 hcons (records ++ made)
    refine ⟨made ++ made', ?_, ?_⟩
    · rw [Script.run_ask, Script.run_ask, htracing, ← List.append_assoc]
      exact hrun
    · rw [Script.run_ask, hrows', hrows, addAll_append]

section
variable {ε α : Type} {body : Creating ε Session α} {traced : Creating ε (Session × List Record) α} {w : Workspace}
variable (h : Traced body traced { workspace := w } [])
include h

theorem committed_of_ok {v : α} (hok : (body { workspace := w }).1 = .ok v) :
    (body { workspace := w }).2.workspace = w.addAll (committed traced w) := by
  obtain ⟨made, htraced, hrows⟩ := h
  unfold committed
  rw [htraced, hok]
  exact hrows

theorem committed_of_error {e : ε} (herror : (body { workspace := w }).1 = .error e) : committed traced w = [] := by
  obtain ⟨made, htraced, -⟩ := h
  unfold committed
  rw [htraced, herror]

/-- A transaction leaves what its body has committed. -/
theorem transaction_traced :
    (transaction body { workspace := w }).2.workspace = w.addAll (committed traced w) := by
  cases hbody : (body { workspace := w }).1 with
  | ok v =>
    rw [transaction_ok hbody]
    exact committed_of_ok h hbody
  | error e =>
    rw [transaction_error hbody, committed_of_error h hbody, addAll_nil]
    rfl

end

end Session

/-- An operation adds the rows of the records that it makes, and changes nothing else. -/
theorem Step.result_eq {φ α : Type} (st : Step φ α) {w : Workspace} (h : w.Consistent) :
    st.result w = w.addAll (st.made w) := by
  let s : Session := { workspace := w }
  unfold result session made
  cases st.operation with
  | create call =>
    have htraced : Session.Traced (Session.scope st.source st.user call) _ s [] := (Session.scope_traced h call []).1
    show (Session.scope st.source st.user call s).2.workspace = _
    cases hcall : (Session.scope st.source st.user call s).1 with
    | ok id => exact Session.committed_of_ok htraced hcall
    | error e =>
      have hnone := Session.committed_of_error htraced hcall
      obtain ⟨hanswer, hworkspace, -⟩ := Session.scope_eq st.source st.user call s
      show _ = w.addAll (committed (Session.tracing st.source st.user call) s.workspace)
      rw [hnone, addAll_nil, hworkspace]
      exact create_error h (hanswer.symm.trans hcall)
  | transact body => exact Session.transaction_traced (Session.run_traced body h [])
  | setUp name p =>
    obtain ⟨b, hb⟩ := materialize_isScript (ι := Uuid) (ε := Error) p name
    have hrun : p.materialize name (Session.scope st.source st.user) = b.run _ := hb _ _
    have hrun' : p.materialize name (Session.tracing st.source st.user) = b.run _ := hb _ _
    show (Session.transaction (p.materialize name (Session.scope st.source st.user)) s).2.workspace =
      w.addAll (committed (p.materialize name (Session.tracing st.source st.user)) w)
    rw [hrun, hrun']
    exact Session.transaction_traced (Session.run_traced b h [])

end PresetWorkspace.Workspace
