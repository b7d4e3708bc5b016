import PresetWorkspace.Markdown
import PresetWorkspace.Proofs.Calls
import PresetWorkspace.Proofs.FirstRejection
import PresetWorkspace.Proofs.Nesting

/-!
# The lines of todos

A preset is shown with one line for each todo, in the order in which the todos
are asked for when the preset is set up, and moved in by its depth. The depth is
read off a line up to its hyphen, whatever the title is, and the depths alone
make the shape of the forest (`todo_lines`).
-/

namespace PresetWorkspace

/-! ## Lines of a text -/

namespace Text

def cut : List Char → List (List Char)
  | [] => []
  | c :: cs =>
    if c = '\n' then [] :: cut cs
    else match cut cs with
      | [] => [[c]]
      | l :: ls => (c :: l) :: ls

def lines (s : String) : List String := (cut s.toList).map String.ofList

def EndsLine (s : String) : Prop := ∃ front, s = front ++ "\n"

theorem cut_line {l : List Char} (h : '\n' ∉ l) (rest : List Char) : cut (l ++ '\n' :: rest) = l :: cut rest := by
  induction l with
  | nil => rfl
  | cons c l ih =>
    simp only [List.mem_cons, not_or] at h
    rw [List.cons_append, cut, if_neg (Ne.symm h.1), ih h.2]

theorem cut_append (front rest : List Char) : cut (front ++ '\n' :: rest) = cut (front ++ ['\n']) ++ cut rest := by
  induction front with
  | nil => rfl
  | cons c front ih =>
    rw [List.cons_append, List.cons_append, cut, cut, ih]
    by_cases hc : c = '\n'
    · simp [hc]
    · -- What is left of the line stands in front of the same lines on both sides.
      have hne : cut (front ++ ['\n']) ≠ [] := by
        cases front with
        | nil => simp [cut]
        | cons d front =>
          rw [List.cons_append, cut]
          split
          · simp
          · split <;> simp
      obtain ⟨l, ls, hls⟩ := List.exists_cons_of_ne_nil hne
      simp [hc, hls]

theorem lines_append {s : String} (h : EndsLine s) (t : String) : lines (s ++ t) = lines s ++ lines t := by
  obtain ⟨front, rfl⟩ := h
  unfold lines
  simp [cut_append front.toList t.toList]

theorem lines_line {l : String} (h : '\n' ∉ l.toList) (rest : String) :
    lines (l ++ "\n" ++ rest) = l :: lines rest := by
  unfold lines
  simp [cut_line h]

theorem EndsLine.append {t : String} (h : EndsLine t) (s : String) : EndsLine (s ++ t) := by
  obtain ⟨front, rfl⟩ := h
  exact ⟨s ++ front, by rw [String.append_assoc]⟩

theorem EndsLine.join {α : Type} {f : α → String} (h : ∀ a, EndsLine (f a)) {as : List α} (hne : as ≠ []) :
    EndsLine (String.join (as.map f)) := by
  induction as with
  | nil => exact absurd rfl hne
  | cons a as ih =>
    have hcons : String.join ((a :: as).map f) = f a ++ String.join (as.map f) := by
      apply String.toList_injective
      simp
    rw [hcons]
    cases as with
    | nil =>
      obtain ⟨front, hfront⟩ := h a
      exact ⟨front, by simp [hfront]⟩
    | cons b bs => exact (ih (List.cons_ne_nil b bs)).append _

theorem toList_pushn (s : String) (c : Char) (n : Nat) : (s.pushn c n).toList = s.toList ++ List.replicate n c := by
  unfold String.pushn
  induction n with
  | zero => simp [Nat.repeat]
  | succ n ih =>
    rw [Nat.repeat, String.toList_push, ih, List.replicate_succ']
    simp

theorem notMem_intercalate {x : Char} {sep : String} {ns : List String} (hsep : x ∉ sep.toList)
    (h : ∀ n ∈ ns, x ∉ n.toList) : x ∉ (sep.intercalate ns).toList := by
  rw [String.toList_intercalate]
  induction ns with
  | nil => simp [List.intercalate]
  | cons n ns ih =>
    rw [List.forall_mem_cons] at h
    cases ns with
    | nil => simpa [List.intercalate] using h.1
    | cons m ns =>
      have hrest := ih h.2
      rw [List.map_cons, List.map_cons, List.intercalate_cons_cons]
      rw [List.map_cons] at hrest
      simp [h.1, hsep, hrest]

end Text

/-! ## Places and depths -/

namespace TodoTemplate

/-- The places of the todos above a place, the nearest first. -/
def above (nodes : List (TodoTemplate × Option Nat)) (place : Nat) : List Nat :=
  match nodes[place]? with
  | some (_, some parent) => if parent < place then parent :: above nodes parent else []
  | _ => []
termination_by place

theorem length_above {nodes : List (TodoTemplate × Option Nat)} {place : Nat} {t : TodoTemplate} {parent : Option Nat}
    (h : nodes[place]? = some (t, parent)) (hparent : ∀ q ∈ parent, q < place) :
    (above nodes place).length = parent.elim 0 fun q => (above nodes q).length + 1 := by
  rw [above, h]
  cases parent with
  | none => rfl
  | some q =>
    simp only
    rw [if_pos (hparent q rfl)]
    rfl

/-- In a longer list, the todos of a forest stand as deep below its parent as in the forest. -/
theorem mapIdx_above (ts : List TodoTemplate) {parent : Option Nat} {place depth : Nat}
    {all front back : List (TodoTemplate × Option Nat)} (hplace : front.length = place)
    (hall : all = front ++ (placed parent place ts ++ back)) (hparent : ∀ q ∈ parent, q < place)
    (hdepth : (parent.elim 0 fun q => (above all q).length + 1) = depth) :
    (placed parent place ts).mapIdx (fun k e => (e.1, (above all (place + k)).length)) = levels id depth ts := by
  induction ts using forest_induction generalizing parent place depth front back with
  | nil => rfl
  | cons t ts below rest =>
    rw [placed_cons] at hall
    have hroot : all[place]? = some (t, parent) := by
      rw [hall, ← hplace]
      simp
    have hlength := (length_above hroot hparent).trans hdepth
    have hbelow := @below (some place) (place + 1) (depth + 1) (front ++ [(t, parent)]) _
      (by simp [hplace]) (by simpa using hall) (by simp) (by simp [hlength])
    have hrest := @rest parent (place + (1 + countAll t.subtodos)) depth
      (front ++ (t, parent) :: placed (some place) (place + 1) t.subtodos) _
      (by simp [length_placed, hplace]; omega) (by simpa using hall) (fun q hq => by have := hparent q hq; omega) hdepth
    rw [placed_cons, levels_cons, List.mapIdx_cons, List.mapIdx_append, ← hbelow, ← hrest, length_placed]
    simp only [Nat.add_zero, hlength, id_eq]
    congr 3
    · funext k e
      rw [Nat.add_assoc, Nat.add_comm 1 k]
    · funext k e
      refine congrArg (fun n => (e.1, (above all n).length)) ?_
      omega

end TodoTemplate

/-! ## The lines of a forest -/

namespace Markdown

open Text (lines EndsLine cut)
open TodoTemplate (levels placed above)

/-- The line of a todo: its title behind a hyphen, moved in by its depth, and the names of its tags if it has any. -/
def line (depth : Nat) (t : TodoTemplate) : String :=
  String.ofList (List.replicate (2 * depth) ' ') ++ "- " ++ t.title ++
    (if t.tagNames.getD [] = [] then ""
    else " [" ++ ", ".intercalate ((t.tagNames.getD []).map fun n => "`" ++ n ++ "`") ++ "]")

theorem todoLine_eq (depth : Nat) (t : TodoTemplate) : todoLine depth t.title t.tagNames = line depth t ++ "\n" := by
  have htags : tagList t.tagNames =
      if t.tagNames.getD [] = [] then ""
      else " [" ++ ", ".intercalate ((t.tagNames.getD []).map fun n => "`" ++ n ++ "`") ++ "]" := by
    match t.tagNames with
    | none => rfl
    | some [] => rfl
    | some (n :: ns) => rfl
  have hblanks : "".pushn ' ' (2 * depth) = String.ofList (List.replicate (2 * depth) ' ') := by
    apply String.toList_injective
    rw [Text.toList_pushn, String.toList_ofList]
    simp
  unfold todoLine line
  rw [htags, hblanks]

def OneLine (t : TodoTemplate) : Prop := '\n' ∉ t.title.toList ∧ ∀ n ∈ t.tagNames.getD [], '\n' ∉ n.toList

instance : DecidablePred OneLine := fun _ => inferInstanceAs (Decidable (_ ∧ _))

theorem notMem_line {t : TodoTemplate} (h : OneLine t) (depth : Nat) : '\n' ∉ (line depth t).toList := by
  obtain ⟨htitle, hnames⟩ := h
  have htags : '\n' ∉ (", ".intercalate ((t.tagNames.getD []).map fun n => "`" ++ n ++ "`")).toList := by
    apply Text.notMem_intercalate (by decide)
    intro s hs
    obtain ⟨n, hn, rfl⟩ := List.mem_map.mp hs
    simp [hnames n hn]
  unfold line
  split
  · simp [htitle]
  · simp [htitle, htags, -String.toList_intercalate]

theorem lines_todoForest (ts : List TodoTemplate) {depth : Nat} (h : ∀ e ∈ levels id depth ts, OneLine e.1)
    (rest : String) :
    lines (todoForest depth ts ++ rest) = (levels id depth ts).map (fun e => line e.2 e.1) ++ lines rest := by
  induction ts using TodoTemplate.forest_induction generalizing depth rest with
  | nil =>
    simp only [todoForest, levels]
    simp
  | cons t ts ihBelow ihRest =>
    rw [TodoTemplate.levels_cons] at h ⊢
    rw [List.forall_mem_cons, List.forall_mem_append] at h
    obtain ⟨hroot, hbelow, hrest⟩ := h
    have hline := Text.lines_line (notMem_line (t := t) hroot depth)
      (todoForest (depth + 1) t.subtodos ++ (todoForest depth ts ++ rest))
    rw [todoForest_cons, todoLine_eq, String.append_assoc, String.append_assoc, hline, ihBelow hbelow, ihRest hrest]
    simp

/-! ## Shapes -/

def blanks (l : String) : Nat := (l.toList.takeWhile (· = ' ')).length

theorem blanks_line (depth : Nat) (t : TodoTemplate) : blanks (line depth t) = 2 * depth := by
  have hfront : ∀ c ∈ List.replicate (2 * depth) ' ', decide (c = ' ') = true := by
    intro c hc
    exact decide_eq_true (List.eq_of_mem_replicate hc)
  unfold blanks line
  simp only [String.toList_append, String.toList_ofList, List.append_assoc]
  rw [List.takeWhile_append_of_pos hfront]
  simp

theorem levels_label {α : Type} (label : TodoTemplate → α) (ts : List TodoTemplate) (depth : Nat) :
    levels label depth ts = (levels id depth ts).map fun e => (label e.1, e.2) := by
  induction ts using TodoTemplate.forest_induction generalizing depth with
  | nil => rfl
  | cons t ts below rest =>
    rw [TodoTemplate.levels_cons, TodoTemplate.levels_cons, below, rest]
    simp

def shape (ts : List TodoTemplate) : List (RoseTree Unit) := TodoTemplate.trees (fun _ => ()) ts

theorem shape_eq_of_lines {ts us : List TodoTemplate}
    (h : (levels id 0 ts).map (fun e => line e.2 e.1) = (levels id 0 us).map fun e => line e.2 e.1) :
    shape ts = shape us := by
  have hdepths (ts : List TodoTemplate) :
      levels (fun _ => ()) 0 ts = ((levels id 0 ts).map fun e => line e.2 e.1).map fun l => ((), blanks l / 2) := by
    rw [levels_label, List.map_map]
    refine List.map_congr_left fun e _ => ?_
    simp [blanks_line]
  unfold shape
  rw [← TodoTemplate.grow_levels, ← TodoTemplate.grow_levels, hdepths, hdepths, h]

theorem todoForest_eq_of_section {ts us : List TodoTemplate} (h : todoSection ts = todoSection us) :
    todoForest 0 ts = todoForest 0 us := by
  cases ts with
  | nil =>
    cases us with
    | nil => rfl
    | cons u us => simp [todoSection] at h
  | cons t ts =>
    cases us with
    | nil => simp [todoSection] at h
    | cons u us => simpa [todoSection] using h

theorem preset_eq (p : Preset) : preset p = preset { p with todos := [] } ++ todoSection p.todos := by
  unfold preset
  simp [todoSection]

theorem endsLine_preset (p : Preset) : EndsLine (preset { p with todos := [] }) := by
  have hlabelled (label value : String) : EndsLine (labelled label value) := ⟨_, rfl⟩
  have hgroup : EndsLine (groupSection p.group) := by
    unfold groupSection
    cases p.group.goalRatios with
    | none =>
      rw [Option.elim_none, String.append_empty]
      exact (hlabelled _ _).append _
    | some r => exact (hlabelled _ _).append _
  unfold preset
  simp only [todoSection, String.append_empty]
  cases htags : p.tags with
  | nil =>
    simp only [tagSection, String.append_empty]
    exact hgroup.append _
  | cons t ts =>
    have hlines : EndsLine (String.join ((t :: ts).map tagLine)) :=
      EndsLine.join (fun t => ⟨_, rfl⟩) (List.cons_ne_nil t ts)
    exact (hlines.append _).append _

end Markdown

/-! ## Calls -/

section
variable {ι ε σ α : Type} {store : Store ι ε σ}

/-- The calls that a store makes possible by its answers are the first of those that are made when all are accepted. -/
theorem Script.Stopping.calls_prefix {n : Nat} {b : Script ι ε (Rejected ε) α} (h : b.Stopping n) (spare : Nat → ι)
    (s : σ) : b.calls store s <+: b.calls (store.lenient spare) (s, none) := by
  induction h generalizing s with
  | give v => exact List.prefix_refl _
  | @ask n call next stops goesOn ih =>
    cases hcall : (store call s).1 with
    | ok id =>
      rw [calls_lenient_of_ok hcall, calls, hcall]
      exact (List.prefix_cons_inj call).mpr (ih id _)
    | error e =>
      rw [calls_lenient_of_error hcall, calls, hcall, stops]
      exact (List.prefix_cons_inj call).mpr (List.nil_prefix)

/-- A store that takes all calls lists the calls that a script makes. -/
theorem Script.run_recording (haccepts : ∀ call s, ∃ id, (store call s).1 = .ok id)
    (b : Script ι ε (Rejected ε) α) (s : σ) (log : List (Call ι × ι)) :
    ∃ new : List (Call ι × ι),
      (b.run store.recording (s, log)).2.2 = new.reverse ++ log ∧ new.map (·.1) = b.calls store s := by
  induction b generalizing s log with
  | give v => exact ⟨[], rfl, rfl⟩
  | fail e => exact ⟨[], rfl, rfl⟩
  | ask call next ih =>
    obtain ⟨id, hid⟩ := haccepts call s
    have hrecording := recording_of_ok hid log
    obtain ⟨new, hlog, hcalls⟩ := ih (.ok id) (store call s).2 ((call, id) :: log)
    refine ⟨(call, id) :: new, ?_, ?_⟩
    · rw [run_ask, hrecording, hlog]
      simp
    · rw [calls, hid, List.map_cons, hcalls]

theorem callsTo_eq {p : Preset} {name : String} {b : Script ι ε (Rejected ε) (Initialized ι)}
    (hb : ∀ (σ : Type) (store : Store ι ε σ), p.materialize name store = b.run store) (store : Store ι ε σ) (s : σ) :
    p.callsTo name store s = b.calls store s := by
  rw [Preset.callsTo, hb, Script.run_noting, List.nil_append]

theorem callsTo_of_accepts (haccepts : ∀ call s, ∃ id, (store call s).1 = .ok id) (p : Preset) (name : String) (s : σ) :
    ∃ group tags todos,
      todos.length = TodoTemplate.countAll p.todos ∧ p.callsTo name store s = p.calls group tags todos := by
  obtain ⟨b, hb⟩ : ∃ b : Script ι ε (Rejected ε) (Initialized ι),
      ∀ (σ : Type) (store : Store ι ε σ), p.materialize name store = b.run store := materialize_isScript p name
  obtain ⟨group, tags, todos, s', log, hrun, hcalls, -, -, hlength⟩ := materialize_recording haccepts p name s
  obtain ⟨new, hnew, hmade⟩ := b.run_recording haccepts s []
  refine ⟨group, tags, todos, hlength, ?_⟩
  rw [← hb, hrun, List.append_nil, List.reverse_inj] at hnew
  rw [callsTo_eq hb, ← hmade, ← hnew, hcalls]

/-- The calls for a preset are made as it has its records, as far as the store accepts them. -/
theorem callsTo_prefix (p : Preset) (name : String) (store : Store ι ε σ) (s : σ) (spare : ι) :
    ∃ group tags todos, p.callsTo name store s <+: p.calls group tags todos := by
  obtain ⟨b, hstops, hb⟩ := materialize_isStopping (ι := ι) (ε := ε) p name
  have haccepts : ∀ call t, ∃ id, (store.lenient (fun _ => spare) call t).1 = .ok id := lenient_accepts
  obtain ⟨group, tags, todos, -, hcalls⟩ := callsTo_of_accepts haccepts p name (s, none)
  refine ⟨group, tags, todos, ?_⟩
  rw [← hcalls, callsTo_eq hb, callsTo_eq hb]
  exact hstops.calls_prefix _ s

end

/-! ## Presets -/

namespace Markdown

open Text (lines)
open TodoTemplate (placed above)

/-- A preset without line ends in its titles and names of tags is shown with one line for each todo, in the order of
the calls that ask for them and moved in by the number of todos above. Equal lines come from forests of one shape. -/
theorem todo_lines {p : Preset} (hp : ∀ e ∈ placed none 0 p.todos, OneLine e.1) :
    let nodes := placed none 0 p.todos
    nodes.length = TodoTemplate.countAll p.todos ∧
      lines (preset p) =
        lines (preset { p with todos := [] }) ++ (if p.todos.isEmpty then [] else ["", "### Todos"]) ++
          nodes.mapIdx (fun place e => line (above nodes place).length e.1) ∧
      (∀ (ι ε σ : Type) (store : Store ι ε σ) (name : String) (s : σ),
        (∀ (place : Nat) r, ((p.callsTo name store s).filterMap Call.todo?)[place]? = some r →
          ∃ t parent group tags ids,
            nodes[place]? = some (t, parent) ∧ r = TodoTemplate.asked group (p.tags.zip tags) ids t parent) ∧
        ((∀ call s, ∃ id, (store call s).1 = .ok id) →
          ((p.callsTo name store s).filterMap Call.todo?).length = nodes.length)) ∧
      ∀ q : Preset, (∀ e ∈ placed none 0 q.todos, OneLine e.1) → todoSection q.todos = todoSection p.todos →
        shape q.todos = shape p.todos := by
  intro nodes
  have hlevels (p : Preset) := @TodoTemplate.mapIdx_above p.todos none 0 0 _ [] [] rfl rfl (by simp) rfl
  have hlines (p : Preset) (hp : ∀ e ∈ placed none 0 p.todos, OneLine e.1) :
      lines (todoForest 0 p.todos) = (TodoTemplate.levels id 0 p.todos).map fun e => line e.2 e.1 := by
    have honeLine : ∀ e ∈ TodoTemplate.levels id 0 p.todos, OneLine e.1 := by
      intro e he
      rw [← hlevels p] at he
      obtain ⟨place, hplace, rfl⟩ := List.mem_mapIdx.mp he
      exact hp _ (List.getElem_mem hplace)
    have h := lines_todoForest p.todos honeLine ""
    rw [String.append_empty] at h
    exact h.trans (List.append_nil _)
  refine ⟨length_placed none 0 p.todos, ?_, ?_, ?_⟩
  · have hsection : lines (todoSection p.todos) =
        (if p.todos.isEmpty then [] else ["", "### Todos"]) ++ lines (todoForest 0 p.todos) := by
      cases p.todos with
      | nil => rfl
      | cons t ts =>
        have hheading : lines "\n### Todos\n" = ["", "### Todos"] := by decide
        show lines ("\n### Todos\n" ++ todoForest 0 (t :: ts)) = _
        rw [Text.lines_append ⟨"\n### Todos", by decide⟩, hheading]
        rfl
    have hnodes : (TodoTemplate.levels id 0 p.todos).map (fun e => line e.2 e.1) =
        nodes.mapIdx fun place e => line (above nodes place).length e.1 := by
      rw [← hlevels p]
      apply List.ext_getElem?
      intro place
      simp [nodes, Function.comp_def]
    rw [preset_eq, Text.lines_append (endsLine_preset p), hsection, hlines p hp, hnodes, List.append_assoc]
  · intro ι ε σ store name s
    refine ⟨fun place r hr => ?_, fun haccepts => ?_⟩
    · obtain ⟨group, tags, todos, hcalls⟩ := callsTo_prefix p name store s r.group
      obtain ⟨more, hmore⟩ := hcalls.filterMap Call.todo?
      have hr' : ((p.calls group tags todos).filterMap Call.todo?)[place]? = some r := by
        rw [← hmore, List.getElem?_append_left (List.getElem?_eq_some_iff.mp hr).1, hr]
      rw [filterMap_todo?_calls, List.getElem?_map, Option.map_eq_some_iff] at hr'
      obtain ⟨⟨t, parent⟩, hnode, rfl⟩ := hr'
      exact ⟨t, parent, group, tags, todos, hnode, rfl⟩
    · obtain ⟨group, tags, todos, -, hcalls⟩ := callsTo_of_accepts haccepts p name s
      rw [hcalls, filterMap_todo?_calls, List.length_map]
  · intro q hq h
    apply shape_eq_of_lines
    rw [← hlines q hq, ← hlines p hp, todoForest_eq_of_section h]

/-- Titles that look like lines of their own, or like the names of tags, change nothing in the shape. -/
theorem todo_lines_of_likes :
    let todos (below : TodoTemplate) : List TodoTemplate :=
      [{ title := "a", children := some [below] }, { title := "c" }]
    let p : Preset :=
      { name := "p", group := ⟨"g", "", none, none, true⟩, todos := todos ⟨"  - b", none, some ["x"], none⟩ }
    let q : Preset := { p with todos := todos { title := "  - b [`x`]" } }
    (∀ e ∈ placed none 0 p.todos, OneLine e.1) ∧ (∀ e ∈ placed none 0 q.todos, OneLine e.1) ∧
      todoSection q.todos = todoSection p.todos ∧
      lines (preset p) =
        lines (preset { p with todos := [] }) ++ ["", "### Todos"] ++ ["- a", "  -   - b [`x`]", "- c"] ∧
      shape q.todos = shape p.todos := by
  intro todos p q
  have hp : ∀ e ∈ placed none 0 p.todos, OneLine e.1 := by decide
  have hq : ∀ e ∈ placed none 0 q.todos, OneLine e.1 := by decide
  have hsection : todoSection q.todos = todoSection p.todos := by decide +kernel
  obtain ⟨-, hlines, -, hshape⟩ := todo_lines hp
  have habove : above (placed none 0 p.todos) 0 = [] ∧ above (placed none 0 p.todos) 1 = [0] ∧
      above (placed none 0 p.todos) 2 = [] := by
    refine ⟨?_, ?_, ?_⟩ <;> simp [above, placed, TodoTemplate.placedTree, p, todos]
  refine ⟨hp, hq, hsection, hlines.trans (congrArg _ ?_), hshape q hq hsection⟩
  show [line (above (placed none 0 p.todos) 0).length _, line (above (placed none 0 p.todos) 1).length _,
    line (above (placed none 0 p.todos) 2).length _] = _
  rw [habove.1, habove.2.1, habove.2.2]
  decide +kernel

end Markdown

end PresetWorkspace
