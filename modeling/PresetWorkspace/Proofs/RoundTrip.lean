import PresetWorkspace.Document.Writer
import PresetWorkspace.Proofs.Except
import PresetWorkspace.Proofs.RatioText
import PresetWorkspace.Proofs.Script

/-!
# Presets as documents

The text of a preset reads back as the preset if all its colors are colors,
and is at fault in its data otherwise (`read_toJson`). The tree of a preset
decodes member by member, in the order of the fields of each record; a member
that is left out is one whose value is the one that its absence means.
-/

namespace PresetWorkspace

open Document

/-! ## Depths -/

namespace Json

mutual

def depth : Json → Nat
  | .array items => depthItems items + 1
  | .object members => depthMembers members + 1
  | _ => 0

def depthItems : List Json → Nat
  | [] => 0
  | v :: vs => max v.depth (depthItems vs)

def depthMembers : List (String × Json) → Nat
  | [] => 0
  | (_, v) :: ms => max v.depth (depthMembers ms)

end

theorem depth_le_of_mem_items {v : Json} {vs : List Json} (h : v ∈ vs) : v.depth ≤ depthItems vs := by
  induction vs with
  | nil => cases h
  | cons w vs ih =>
    rw [depthItems]
    rcases List.mem_cons.mp h with rfl | h
    · exact Nat.le_max_left _ _
    · exact (ih h).trans (Nat.le_max_right _ _)

theorem depth_le_of_mem_members {m : String × Json} {ms : List (String × Json)} (h : m ∈ ms) :
    m.2.depth ≤ depthMembers ms := by
  induction ms with
  | nil => cases h
  | cons w ms ih =>
    rw [depthMembers]
    rcases List.mem_cons.mp h with rfl | h
    · exact Nat.le_max_left _ _
    · exact (ih h).trans (Nat.le_max_right _ _)

theorem exists_of_depth_array {vs : List Json} {depth : Nat} (h : (array vs).depth ≤ depth) :
    ∃ inner, depth = inner + 1 ∧ ∀ v ∈ vs, v.depth ≤ inner := by
  rw [Json.depth] at h
  exact ⟨depth - 1, by omega, fun v hv => by have := depth_le_of_mem_items hv; omega⟩

theorem exists_of_depth_object {ms : List (String × Json)} {depth : Nat} (h : (object ms).depth ≤ depth) :
    ∃ inner, depth = inner + 1 ∧ ∀ m ∈ ms, m.2.depth ≤ inner := by
  rw [Json.depth] at h
  exact ⟨depth - 1, by omega, fun m hm => by have := depth_le_of_mem_members hm; omega⟩

end Json

/-! ## Steps of a decoding -/

namespace Document

@[simp] theorem readable_some {α : Type} (v : α) : readable (some v) = .ok v := rfl

section
variable (depth : Nat)

@[simp] theorem decodeWithin_text (s : String) : decodeWithin depth .text (.text (some s)) = .ok s := by
  cases depth <;> rfl

@[simp] theorem decodeWithin_color (s : String) :
    decodeWithin depth .color (.text (some s)) = if isHexColor s then .ok s else .error .data := by
  cases depth <;> rfl

@[simp] theorem decodeWithin_flag (b : Bool) : decodeWithin depth .flag (.boolean b) = .ok b := by
  cases depth <;> rfl

theorem decodeWithin_optional (s : Shape) {v : Tree} (hv : v ≠ .null) :
    decodeWithin depth (.optional s) v = (decodeWithin depth s v).map some := by
  cases depth <;> exact decodeShape_optional _ s hv

@[simp] theorem decodeWithin_optional_text (s : String) :
    decodeWithin depth (.optional .text) (.text (some s)) = .ok (some s) := by
  rw [decodeWithin_optional depth .text (fun h => by cases h), decodeWithin_text, map_ok]

theorem decodeWithin_list (s : Shape) (vs : List Json) :
    decodeWithin (depth + 1) (.list s) (Json.array vs) = vs.mapM fun v : Json => decodeWithin depth s v := by
  rw [Json.tree_array]
  exact List.mapM_map

theorem decodeWithin_record (k : Kind) (ms : List (String × Json)) :
    decodeWithin (depth + 1) (.record k) (Json.object ms) =
      decodeObject (decodeWithin depth) k (ms.map fun m => (some m.1, m.2.tree)) := by
  rw [Json.tree_object]
  rfl

theorem decodeWithin_ratios (m : Ratios) : decodeWithin (depth + 1) .ratios (Json.ofRatios m) = .ok m := by
  rw [Json.ofRatios, Json.tree_object, List.map_map]
  simp only [Function.comp_def, Json.tree_number]
  rw [decodeWithin_entries, m.ofList_entries]

theorem decodeWithin_texts (ss : List String) :
    decodeWithin (depth + 1) (.list .text) (Json.ofTexts ss) = .ok ss := by
  rw [Json.ofTexts, decodeWithin_list, List.mapM_map]
  show List.mapM (fun s => decodeWithin depth .text (.text (some s))) ss = _
  simp only [decodeWithin_text]
  show List.mapM (fun s => pure s) ss = _
  rw [List.mapM_pure, List.map_id']
  rfl

end

end Document

/-! ## Records -/

theorem TagTemplate.decode_toJson (t : TagTemplate) {depth : Nat} (h : t.toJson.depth ≤ depth) :
    decodeWithin depth (.record .tagTemplate) t.toJson = if isHexColor t.color then .ok t else .error .data := by
  obtain ⟨depth, rfl, -⟩ := Json.exists_of_depth_object h
  obtain ⟨name, color, description⟩ := t
  rw [TagTemplate.toJson, decodeWithin_record, decodeObject]
  cases description <;> by_cases hcolor : isHexColor color = true <;>
    simp [decodeMember, Kind.fields, Field.required, Field.optional, Slots.empty, Json.memberIfAny, hcolor] <;> rfl

theorem GroupTemplate.decode_toJson (g : GroupTemplate) {depth : Nat} (h : g.toJson.depth ≤ depth) :
    decodeWithin depth (.record .groupTemplate) g.toJson = if isHexColor g.color then .ok g else .error .data := by
  obtain ⟨depth, rfl, hmembers⟩ := Json.exists_of_depth_object h
  obtain ⟨name, color, description, goalRatios, isTodoGroup⟩ := g
  have hratios : ∀ m ∈ goalRatios, decodeWithin depth (.optional .ratios) (Json.ofRatios m) = .ok (some m) := by
    intro m hm
    have hdepth := hmembers ("goal_ratios", Json.ofRatios m) (by cases hm; simp [Json.memberIfAny])
    obtain ⟨depth, rfl, -⟩ := Json.exists_of_depth_object hdepth
    rw [decodeWithin_optional _ _ (fun h => by cases h), decodeWithin_ratios, map_ok]
  rw [GroupTemplate.toJson, decodeWithin_record, decodeObject]
  cases description <;> cases goalRatios <;> by_cases hcolor : isHexColor color = true <;>
    simp [decodeMember, Kind.fields, Field.required, Field.optional, Field.filled, Slots.empty, Json.memberIfAny,
      hcolor, hratios] <;> rfl

theorem decode_tags (ts : List TagTemplate) {depth : Nat} (h : ∀ t ∈ ts, t.toJson.depth ≤ depth) :
    ((ts.map TagTemplate.toJson).mapM fun v : Json => decodeWithin depth (.record .tagTemplate) v) =
      if ts.all (isHexColor ·.color) then .ok ts else .error .data := by
  induction ts with
  | nil => rfl
  | cons t ts ih =>
    obtain ⟨ht, hts⟩ := List.forall_mem_cons.mp h
    rw [List.map_cons, List.mapM_cons, t.decode_toJson ht, ih hts, List.all_cons]
    by_cases hcolor : isHexColor t.color = true
    · by_cases hall : ts.all (isHexColor ·.color) = true
      · simp [hcolor, hall, pure, Except.pure]
      · simp [hcolor, hall]
    · simp [hcolor]

theorem decode_todos (ts : List TodoTemplate) {depth : Nat}
    (h : ∀ v ∈ TodoTemplate.toJsonAll ts, v.depth ≤ depth) :
    ((TodoTemplate.toJsonAll ts).mapM fun v : Json => decodeWithin depth (.record .todoTemplate) v) = .ok ts := by
  induction ts using TodoTemplate.forest_induction generalizing depth with
  | nil => rfl
  | cons t ts below rest =>
    rw [TodoTemplate.toJsonAll] at h ⊢
    obtain ⟨ht, hts⟩ := List.forall_mem_cons.mp h
    have hroot : decodeWithin depth (.record .todoTemplate) t.toJson = .ok t := by
      obtain ⟨title, description, tagNames, children⟩ := t
      unfold TodoTemplate.toJson at ht ⊢
      obtain ⟨depth, rfl, hmembers⟩ := Json.exists_of_depth_object ht
      have hnames : ∀ names ∈ tagNames,
          decodeWithin depth (.optional (.list .text)) (Json.ofTexts names) = .ok (some names) := by
        intro names hnames
        have hdepth := hmembers ("tag_names", Json.ofTexts names) (by cases hnames; simp [Json.memberIfAny])
        obtain ⟨depth, rfl, -⟩ := Json.exists_of_depth_array hdepth
        rw [decodeWithin_optional _ _ (fun h => by cases h), decodeWithin_texts, map_ok]
      have hchildren : ∀ ts ∈ children, decodeWithin depth (.optional (.list (.record .todoTemplate)))
          (Json.array (TodoTemplate.toJsonAll ts)) = .ok (some ts) := by
        intro ts hchildren
        cases hchildren
        have hdepth := hmembers ("children", .array (TodoTemplate.toJsonAll ts)) (by simp)
        obtain ⟨depth, rfl, hbelow⟩ := Json.exists_of_depth_array hdepth
        rw [decodeWithin_optional _ _ (fun h => by cases h), decodeWithin_list]
        exact congrArg (Except.map some) (below hbelow)
      rw [decodeWithin_record, decodeObject]
      cases description <;> cases tagNames <;> cases children <;>
        simp [decodeMember, Kind.fields, Field.required, Field.optional, Slots.empty, Json.memberIfAny, hnames,
          hchildren] <;> rfl
    rw [List.mapM_cons, hroot, rest hts]
    rfl

def Preset.isColored (p : Preset) : Bool := isHexColor p.group.color && p.tags.all (isHexColor ·.color)

theorem Preset.decode_toJson (p : Preset) {depth : Nat} (h : p.toJson.depth ≤ depth) :
    decodeWithin depth (.record .preset) p.toJson = if p.isColored then .ok p else .error .data := by
  obtain ⟨depth, rfl, hmembers⟩ := Json.exists_of_depth_object h
  have hgroup := p.group.decode_toJson (hmembers ("tag_group", p.group.toJson) (by simp))
  have htags : decodeWithin depth (.list (.record .tagTemplate)) (Json.array (p.tags.map TagTemplate.toJson)) =
      if p.tags.all (isHexColor ·.color) then .ok p.tags else .error .data := by
    have hdepth := hmembers ("tags", .array (p.tags.map TagTemplate.toJson)) (by simp)
    obtain ⟨depth, rfl, hbelow⟩ := Json.exists_of_depth_array hdepth
    rw [decodeWithin_list]
    exact decode_tags p.tags fun t ht => hbelow _ (List.mem_map_of_mem ht)
  have htodos : decodeWithin depth (.list (.record .todoTemplate)) (Json.array (TodoTemplate.toJsonAll p.todos)) =
      .ok p.todos := by
    have hdepth := hmembers ("todos", .array (TodoTemplate.toJsonAll p.todos)) (by simp)
    obtain ⟨depth, rfl, hbelow⟩ := Json.exists_of_depth_array hdepth
    rw [decodeWithin_list]
    exact decode_todos p.todos hbelow
  rw [Preset.toJson, decodeWithin_record, decodeObject, Preset.isColored]
  obtain ⟨name, description, group, tags, todos⟩ := p
  cases description <;> by_cases hcolor : isHexColor group.color = true <;>
    by_cases hcolors : tags.all (isHexColor ·.color) = true <;>
    simp [decodeMember, Kind.fields, Field.required, Field.optional, Field.filled, Slots.empty, Json.memberIfAny,
      hgroup, htags, htodos, hcolor, hcolors] <;> rfl

/-! ## Texts -/

theorem Json.rereads_memberIfAny {α : Type} {name : String} {encode : α → Json} {o : Option α}
    (h : ∀ v ∈ o, (encode v).Rereads) : ∀ m ∈ Json.memberIfAny name encode o, m.2.Rereads := by
  cases o with
  | none => exact fun _ hm => by cases hm
  | some v =>
    rintro m hm
    cases List.mem_singleton.mp hm
    exact h v rfl

theorem rereads_todos (ts : List TodoTemplate) : ∀ v ∈ TodoTemplate.toJsonAll ts, v.Rereads := by
  induction ts using TodoTemplate.forest_induction with
  | nil => exact fun _ hv => by cases hv
  | cons t ts below rest =>
    rw [TodoTemplate.toJsonAll]
    refine List.forall_mem_cons.mpr ⟨?_, rest⟩
    obtain ⟨title, description, tagNames, children⟩ := t
    unfold TodoTemplate.toJson
    refine .object (List.forall_mem_append.mpr ⟨List.forall_mem_append.mpr ⟨List.forall_mem_cons.mpr ⟨.text title, ?_⟩,
      ?_⟩, ?_⟩)
    · exact Json.rereads_memberIfAny fun s _ => .text s
    · refine Json.rereads_memberIfAny fun ss _ => .array ?_
      exact List.forall_mem_map.mpr fun s _ => .text s
    · cases children with
      | none => exact fun _ hm => by cases hm
      | some ts => exact List.forall_mem_singleton.mpr (.array below)

section
variable {p : Preset}
variable (hratios : ∀ m ∈ p.group.goalRatios, ∀ e ∈ m.entries, e.2.isFinite = true ∧ e.2.reread = .ok e.2)
include hratios

theorem GroupTemplate.rereads_toJson : p.group.toJson.Rereads := by
  refine .object (List.forall_mem_append.mpr ⟨List.forall_mem_append.mpr ⟨List.forall_mem_append.mpr ⟨?_, ?_⟩, ?_⟩, ?_⟩)
  · exact List.forall_mem_cons.mpr ⟨.text _, List.forall_mem_singleton.mpr (.text _)⟩
  · exact Json.rereads_memberIfAny fun s _ => .text s
  · refine Json.rereads_memberIfAny fun m hm => .object (List.forall_mem_map.mpr fun e he => ?_)
    exact .ratio (hratios m hm e he).2
  · exact List.forall_mem_singleton.mpr (.boolean _)

theorem Preset.rereads_toJson : p.toJson.Rereads := by
  have htag (t : TagTemplate) : t.toJson.Rereads := by
    refine .object (List.forall_mem_append.mpr ⟨?_, Json.rereads_memberIfAny fun s _ => .text s⟩)
    exact List.forall_mem_cons.mpr ⟨.text _, List.forall_mem_singleton.mpr (.text _)⟩
  refine .object (List.forall_mem_append.mpr ⟨List.forall_mem_append.mpr ⟨?_, ?_⟩, ?_⟩)
  · exact List.forall_mem_singleton.mpr (.text _)
  · exact Json.rereads_memberIfAny fun s _ => .text s
  · refine List.forall_mem_cons.mpr ⟨GroupTemplate.rereads_toJson hratios, List.forall_mem_cons.mpr ⟨?_, ?_⟩⟩
    · exact .array (List.forall_mem_map.mpr fun t _ => htag t)
    · exact List.forall_mem_singleton.mpr (.array (rereads_todos p.todos))

/-- The compact and the pretty text of a preset read back as the preset if its group and its tags have colors.
Else they are at fault in their data. -/
theorem Preset.read_toJson (hdepth : p.toJson.depth ≤ 127) :
    ∀ text ∈ [p.toJson.compact, p.toJson.pretty],
      (isHexColor p.group.color = true ∧ (∀ t ∈ p.tags, isHexColor t.color = true) →
        Document.read (.record .preset) text = .ok p) ∧
      (¬(isHexColor p.group.color = true ∧ ∀ t ∈ p.tags, isHexColor t.color = true) →
        ∃ problem, Document.read (.record .preset) text = .error problem ∧ problem.cause.class = .data) := by
  have hcolored : p.isColored = true ↔ isHexColor p.group.color = true ∧ ∀ t ∈ p.tags, isHexColor t.color = true := by
    simp [Preset.isColored]
  have hspelled {chars : List Char} (h : Spells chars p.toJson) :
      (p.isColored = true → Document.read (.record .preset) (String.ofList chars) = .ok p) ∧
      (¬p.isColored = true →
        ∃ problem, Document.read (.record .preset) (String.ofList chars) = .error problem ∧
          problem.cause.class = .data) := by
    have hread := read_of_spells h (.record .preset)
    rw [p.decode_toJson (show _ ≤ depthLimit from hdepth)] at hread
    refine ⟨fun hp => ?_, fun hp => ?_⟩
    · rw [if_pos hp] at hread
      cases hr : Document.read (.record .preset) (String.ofList chars) with
      | error problem => rw [hr] at hread; cases hread
      | ok q => rw [hr] at hread; cases hread; rfl
    · rw [if_neg hp] at hread
      cases hr : Document.read (.record .preset) (String.ofList chars) with
      | error problem =>
        rw [hr] at hread
        exact ⟨problem, rfl, Except.error.inj hread⟩
      | ok q => rw [hr] at hread; cases hread
  have hrereads := Preset.rereads_toJson hratios
  intro text htext
  rw [← hcolored]
  rcases List.mem_cons.mp htext with rfl | htext
  · exact hspelled hrereads.spells_compact
  · cases List.mem_singleton.mp htext
    exact hspelled (hrereads.spells_pretty 0)

end

def sampler (color : String) : Preset where
  name := "sampler"
  description := some ""
  group :=
    { name := "\"\u0001\""
      color := "#12aB9f"
      goalRatios := some ⟨[("", .ofRatio 1 2)], List.pairwise_singleton _ _⟩
      isTodoGroup := false }
  tags := [{ name := "tag", color := color }]
  todos :=
    [{ title := "root"
       tagNames := some []
       children := some [{ title := "leaf", description := some "\n", children := some [] }] },
      { title := "", tagNames := some ["tag", ""] }]

theorem Preset.read_toJson_sampler :
    (∀ text ∈ [(sampler "#000000").toJson.compact, (sampler "#000000").toJson.pretty],
      Document.read (.record .preset) text = .ok (sampler "#000000")) ∧
    ∀ text ∈ [(sampler "#00000").toJson.compact, (sampler "#00000").toJson.pretty],
      ∃ problem, Document.read (.record .preset) text = .error problem ∧ problem.cause.class = .data := by
  have hhalf : (Binary64.ofRatio 1 2).reread = .ok (.ofRatio 1 2) := by
    have hsome : (Binary64.ofRatio 1 2).reread.toOption = some (.ofRatio 1 2) := by decide +kernel
    cases hr : (Binary64.ofRatio 1 2).reread with
    | error problem => rw [hr] at hsome; cases hsome
    | ok x => rw [hr] at hsome; exact congrArg Except.ok (Option.some.inj hsome)
  have hratios (color : String) : ∀ m ∈ (sampler color).group.goalRatios, ∀ e ∈ m.entries,
      e.2.isFinite = true ∧ e.2.reread = .ok e.2 := by
    rintro m hm e he
    cases hm
    cases List.mem_singleton.mp he
    exact ⟨by decide +kernel, hhalf⟩
  refine ⟨fun text htext => ?_, fun text htext => ?_⟩
  · exact (Preset.read_toJson (hratios _) (by decide) text htext).1 (by decide)
  · exact (Preset.read_toJson (hratios _) (by decide) text htext).2 (by decide)

end PresetWorkspace
