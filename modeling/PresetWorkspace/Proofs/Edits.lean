import Mathlib.Data.List.Nodup
import Mathlib.Logic.Relation
import PresetWorkspace.Proofs.Except
import PresetWorkspace.Proofs.RoundTrip

/-!
# Edits

What a document is read as does not depend on how it is written down. The
members of a record may stand in any order, since each fills a slot of its
own, and so may the entries of a map if their names are distinct. A member
that no record of the kind has fills no slot, and `null` fills one with what
its absence means. None of this changes what a tree decodes to, nor whether
it decodes at all (`Edit.decode_eq`), though it may change what is found to be
at fault first.
-/

namespace PresetWorkspace.Document

/-! ## Values of answers -/

section
variable {α σ : Type}

theorem toOption_readable (v : Option α) : (readable v).toOption = v := by
  cases v <;> rfl

/-- Steps that commute in pairs may be taken in any order. -/
theorem foldlM_perm {step : σ → α → Option σ} {xs ys : List α} (h : xs.Perm ys)
    (hcomm : xs.Pairwise fun x y => ∀ s, (step s x).bind (step · y) = (step s y).bind (step · x)) (s : σ) :
    xs.foldlM step s = ys.foldlM step s := by
  induction h generalizing s with
  | nil => rfl
  | cons x _ ih =>
    rw [List.foldlM_cons, List.foldlM_cons]
    simp only [ih (List.pairwise_cons.mp hcomm).2]
  | swap x y xs =>
    have hxy := (List.pairwise_cons.mp hcomm).1 x List.mem_cons_self s
    simp only [List.foldlM_cons]
    show (step s y).bind (fun s => (step s x).bind _) = (step s x).bind (fun s => (step s y).bind _)
    rw [← Option.bind_assoc, hxy, Option.bind_assoc]
  | trans h _ ih ih' =>
    have hsymm := (h.pairwise_iff fun hxy s => (hxy s).symm).mp hcomm
    exact (ih hcomm s).trans (ih' hsymm s)

end

/-! ## Goal ratios -/

section
variable {a b : String} (x y : Binary64) {e : String × Binary64} (es : List (String × Binary64))

theorem insertEntry_before (h : a < e.1) : Ratios.insertEntry a x (e :: es) = (a, x) :: e :: es := by
  rw [Ratios.insertEntry, if_pos h]

theorem insertEntry_same (h : a = e.1) : Ratios.insertEntry a x (e :: es) = (a, x) :: es := by
  have hlt : ¬a < e.1 := h ▸ String.lt_irrefl a
  rw [Ratios.insertEntry, if_neg hlt, if_pos h]

theorem insertEntry_after (h : e.1 < a) : Ratios.insertEntry a x (e :: es) = e :: Ratios.insertEntry a x es := by
  rw [Ratios.insertEntry, if_neg (String.lt_asymm h), if_neg (String.ne_of_lt h).symm]

theorem insertEntry_comm_of_lt (h : a < b) :
    Ratios.insertEntry b y (Ratios.insertEntry a x es) = Ratios.insertEntry a x (Ratios.insertEntry b y es) := by
  have hfirst (es : List (String × Binary64)) :
      Ratios.insertEntry b y ((a, x) :: es) = (a, x) :: Ratios.insertEntry b y es := insertEntry_after y es h
  have hsecond (es : List (String × Binary64)) :
      Ratios.insertEntry a x ((b, y) :: es) = (a, x) :: (b, y) :: es := insertEntry_before x es h
  induction es with
  | nil => exact (hfirst []).trans (hsecond []).symm
  | cons e es ih =>
    rcases Std.lt_trichotomy a e.1 with ha | ha | ha
    · rw [insertEntry_before x es ha, hfirst]
      rcases Std.lt_trichotomy b e.1 with hb | hb | hb
      · rw [insertEntry_before y es hb, hsecond]
      · rw [insertEntry_same y es hb, hsecond]
      · rw [insertEntry_after y es hb, insertEntry_before x _ ha]
    · have hb : e.1 < b := ha ▸ h
      rw [insertEntry_same x es ha, hfirst, insertEntry_after y es hb, insertEntry_same x _ ha]
    · have hb : e.1 < b := String.lt_trans ha h
      rw [insertEntry_after x es ha, insertEntry_after y _ hb, insertEntry_after y es hb, insertEntry_after x _ ha, ih]

end

theorem insert_comm {a b : String} (h : a ≠ b) (x y : Binary64) (m : Ratios) :
    (m.insert a x).insert b y = (m.insert b y).insert a x := by
  unfold Ratios.insert
  congr 1
  rcases Std.lt_trichotomy a b with hab | hab | hab
  · exact insertEntry_comm_of_lt x y m.entries hab
  · exact absurd hab h
  · exact (insertEntry_comm_of_lt y x m.entries hab).symm

def entryStep (decode : Decoder) (m : Ratios) (e : Option String × Tree) : Option Ratios :=
  e.1.bind fun name => (decode .ratio e.2).toOption.map (m.insert name)

theorem entryStep_comm (decode : Decoder) {e e' : Option String × Tree} (h : ∀ name ∈ e.1, name ∉ e'.1) (m : Ratios) :
    (entryStep decode m e).bind (entryStep decode · e') = (entryStep decode m e').bind (entryStep decode · e) := by
  obtain ⟨key, v⟩ := e
  obtain ⟨key', v'⟩ := e'
  unfold entryStep
  cases key with
  | none => simp
  | some a =>
    cases key' with
    | none => simp
    | some b =>
      have hne : a ≠ b := fun hab => h a rfl (by rw [hab]; rfl)
      cases (decode .ratio v).toOption <;> cases (decode .ratio v').toOption <;> simp [insert_comm hne]

theorem toOption_decodeRatios (decode : Decoder) (ms : List (Option String × Tree)) :
    (decodeShape (some decode) .ratios (.object ms)).toOption = ms.foldlM (entryStep decode) Ratios.empty := by
  refine (toOption_foldlM _ _ _).trans ?_
  congr
  funext m e
  simp only [toOption_bind, toOption_readable]
  unfold entryStep
  congr
  funext name
  exact toOption_map _ _

theorem decodeRatios_perm (decode : Decoder) {ms ms' : List (Option String × Tree)} (h : ms.Perm ms')
    (hdistinct : (ms.filterMap Prod.fst).Nodup) :
    (decodeShape (some decode) .ratios (.object ms)).toOption =
      (decodeShape (some decode) .ratios (.object ms')).toOption := by
  have hcomm : ms.Pairwise fun e e' => ∀ m, (entryStep decode m e).bind (entryStep decode · e') =
      (entryStep decode m e').bind (entryStep decode · e) := by
    refine (List.pairwise_filterMap.mp hdistinct).imp fun hne m => entryStep_comm decode ?_ m
    exact fun name hname hname' => hne name hname name hname' rfl
  rw [toOption_decodeRatios, toOption_decodeRatios]
  exact foldlM_perm h hcomm Ratios.empty

/-! ## Records -/

section
variable {decode : Decoder}

def memberStep (decode : Decoder) (fs : List Field) (slots : Slots fs) (m : Option String × Tree) :
    Option (Slots fs) :=
  m.1.bind fun name => (decodeMember decode name m.2 fs slots).toOption

theorem toOption_decodeObject (k : Kind) (ms : List (Option String × Tree)) :
    (decodeObject decode k ms).toOption =
      (ms.foldlM (memberStep decode k.fields) (Slots.empty k.fields)).bind fun slots =>
        ((Slots.fill k.fields slots).map k.build).toOption := by
  unfold decodeObject
  simp only [toOption_bind, toOption_foldlM, toOption_readable, toOption_mapError]
  rfl

theorem toOption_decodeMember_same {name : String} {f : Field} (h : name = f.name) (v : Tree) (fs : List Field)
    (slots : Slots (f :: fs)) :
    (decodeMember decode name v (f :: fs) slots).toOption =
      if slots.1.isSome then none else (decode f.shape v).toOption.map fun x => (some x, slots.2) := by
  rw [decodeMember, if_pos h]
  by_cases hslot : slots.1.isSome = true
  · rw [if_pos hslot, if_pos hslot]
    rfl
  · rw [if_neg hslot, if_neg hslot, toOption_map]

theorem toOption_decodeMember_other {name : String} {f : Field} (h : name ≠ f.name) (v : Tree) (fs : List Field)
    (slots : Slots (f :: fs)) :
    (decodeMember decode name v (f :: fs) slots).toOption =
      (decodeMember decode name v fs slots.2).toOption.map fun rest => (slots.1, rest) := by
  rw [decodeMember, if_neg h, toOption_map]

theorem decodeMember_comm (a b : String) (v w : Tree) (fs : List Field) (slots : Slots fs) :
    ((decodeMember decode a v fs slots).toOption.bind fun slots => (decodeMember decode b w fs slots).toOption) =
      (decodeMember decode b w fs slots).toOption.bind fun slots => (decodeMember decode a v fs slots).toOption := by
  induction fs with
  | nil => rfl
  | cons f fs ih =>
    obtain ⟨slot, slots⟩ := slots
    by_cases ha : a = f.name <;> by_cases hb : b = f.name
    · -- Two members of one name never fit together.
      simp only [toOption_decodeMember_same ha, toOption_decodeMember_same hb]
      cases slot <;> cases (decode f.shape v).toOption <;> cases (decode f.shape w).toOption <;> rfl
    · simp only [toOption_decodeMember_same ha, toOption_decodeMember_other hb]
      cases slot <;> cases (decode f.shape v).toOption <;>
        cases hw : (decodeMember decode b w fs slots).toOption <;> simp [hw]
    · simp only [toOption_decodeMember_other ha, toOption_decodeMember_same hb]
      cases slot <;> cases hv : (decodeMember decode a v fs slots).toOption <;>
        cases (decode f.shape w).toOption <;> simp [hv]
    · simp only [toOption_decodeMember_other ha, toOption_decodeMember_other hb]
      simpa [Option.map_bind, Option.bind_map, Function.comp_def] using
        congrArg (Option.map fun rest => (slot, rest)) (ih slots)

theorem decodeObject_perm (k : Kind) {ms ms' : List (Option String × Tree)} (h : ms.Perm ms') :
    (decodeObject decode k ms).toOption = (decodeObject decode k ms').toOption := by
  have hcomm (m m' : Option String × Tree) (slots : Slots k.fields) :
      (memberStep decode k.fields slots m).bind (memberStep decode k.fields · m') =
        (memberStep decode k.fields slots m').bind (memberStep decode k.fields · m) := by
    obtain ⟨key, v⟩ := m
    obtain ⟨key', v'⟩ := m'
    unfold memberStep
    cases key with
    | none => simp
    | some a =>
      cases key' with
      | none => simp
      | some b => exact decodeMember_comm a b v v' k.fields slots
  rw [toOption_decodeObject, toOption_decodeObject, foldlM_perm h (List.pairwise_of_forall hcomm)]

/-! ### Unknown members -/

theorem decodeMember_unknown {name : String} {fs : List Field} (h : ∀ f ∈ fs, f.name ≠ name) (v : Tree)
    (slots : Slots fs) : decodeMember decode name v fs slots = .ok slots := by
  induction fs with
  | nil => rfl
  | cons f fs ih =>
    obtain ⟨hf, hfs⟩ := List.forall_mem_cons.mp h
    rw [decodeMember, if_neg (Ne.symm hf), ih hfs]
    rfl

theorem decodeObject_unknown (k : Kind) {name : String} (h : ∀ f ∈ k.fields, f.name ≠ name) (v : Tree)
    (ms : List (Option String × Tree)) :
    (decodeObject decode k ((some name, v) :: ms)).toOption = (decodeObject decode k ms).toOption := by
  have hstep (slots : Slots k.fields) : memberStep decode k.fields slots (some name, v) = some slots :=
    congrArg Except.toOption (decodeMember_unknown h v slots)
  rw [toOption_decodeObject, toOption_decodeObject, List.foldlM_cons, hstep]
  rfl

/-! ### Members without a value -/

def Vacant (name : String) : (fs : List Field) → Slots fs → Prop
  | [], () => True
  | f :: fs, (slot, slots) => (f.name = name → slot = none) ∧ Vacant name fs slots

theorem vacant_empty (name : String) (fs : List Field) : Vacant name fs (Slots.empty fs) := by
  induction fs with
  | nil => trivial
  | cons f fs ih => exact ⟨fun _ => rfl, ih⟩

theorem vacant_of_decodeMember {name other : String} (hne : other ≠ name) {v : Tree} {fs : List Field}
    {slots slots' : Slots fs} (h : Vacant name fs slots)
    (hstep : (decodeMember decode other v fs slots).toOption = some slots') : Vacant name fs slots' := by
  induction fs with
  | nil => trivial
  | cons f fs ih =>
    by_cases hother : other = f.name
    · rw [toOption_decodeMember_same hother] at hstep
      split at hstep
      · cases hstep
      · obtain ⟨x, -, rfl⟩ := Option.map_eq_some_iff.mp hstep
        exact ⟨fun hf => absurd (hother.trans hf) hne, h.2⟩
    · rw [toOption_decodeMember_other hother] at hstep
      obtain ⟨rest, hrest, rfl⟩ := Option.map_eq_some_iff.mp hstep
      exact ⟨h.1, ih h.2 hrest⟩

theorem vacant_of_members {name : String} {fs : List Field} {ms : List (Option String × Tree)}
    (hms : ∀ m ∈ ms, m.1 ≠ some name) {slots slots' : Slots fs} (h : Vacant name fs slots)
    (hfold : ms.foldlM (memberStep decode fs) slots = some slots') : Vacant name fs slots' := by
  induction ms generalizing slots with
  | nil =>
    cases hfold
    exact h
  | cons m ms ih =>
    obtain ⟨hm, hms⟩ := List.forall_mem_cons.mp hms
    rw [List.foldlM_cons] at hfold
    obtain ⟨between, hstep, hfold⟩ := Option.bind_eq_some_iff.mp hfold
    obtain ⟨other, hother, hstep⟩ := Option.bind_eq_some_iff.mp hstep
    exact ih hms (vacant_of_decodeMember (fun hne => hm (by rw [hother, hne])) h hstep) hfold

/-- A field that `null` leaves without a value, as it would be if it were absent. -/
def Field.Nullable (f : Field) : Prop := ∃ name s, f = .optional name s ∨ f = .nullable name s

theorem names_nodup (k : Kind) : (k.fields.map Field.name).Nodup := by
  cases k <;> decide

theorem fill_congr {f : Field} {fs : List Field} (slot : Option f.shape.Carrier) {slots slots' : Slots fs}
    (h : (Slots.fill fs slots).toOption = (Slots.fill fs slots').toOption) :
    (Slots.fill (f :: fs) (slot, slots)).toOption = (Slots.fill (f :: fs) (slot, slots')).toOption := by
  unfold Slots.fill
  cases slot with
  | some x => simp only [toOption_map, h]
  | none => cases f.absence <;> simp only [toOption_map, h]

/-- In the slot of a member that is absent, `null` is what its absence means. -/
theorem fill_decodeMember_null (hnull : ∀ s, decode (.optional s) .null = .ok none) {f : Field} (hf : f.Nullable)
    {fs : List Field} (hmem : f ∈ fs) (hdistinct : (fs.map Field.name).Nodup) {slots : Slots fs}
    (h : Vacant f.name fs slots) :
    ∃ slots', (decodeMember decode f.name .null fs slots).toOption = some slots' ∧
      (Slots.fill fs slots').toOption = (Slots.fill fs slots).toOption := by
  induction fs with
  | nil => cases hmem
  | cons g fs ih =>
    obtain ⟨slot, slots⟩ := slots
    obtain ⟨hg, hdistinct⟩ := List.nodup_cons.mp hdistinct
    rcases List.mem_cons.mp hmem with rfl | hmem
    · cases h.1 rfl
      rw [toOption_decodeMember_same rfl]
      obtain ⟨name, s, rfl | rfl⟩ := hf
      all_goals
        refine ⟨(some none, slots), ?_, rfl⟩
        show (decode (.optional s) .null).toOption.map _ = _
        rw [hnull s]
        rfl
    · have hne : f.name ≠ g.name := fun heq => hg (heq ▸ List.mem_map_of_mem hmem)
      obtain ⟨rest, hrest, hfill⟩ := ih hmem hdistinct h.2
      rw [toOption_decodeMember_other hne, hrest]
      exact ⟨(slot, rest), rfl, fill_congr slot hfill⟩

theorem decodeObject_null (hnull : ∀ s, decode (.optional s) .null = .ok none) {k : Kind} {f : Field}
    (hf : f.Nullable) (hmem : f ∈ k.fields) {ms : List (Option String × Tree)} (hms : ∀ m ∈ ms, m.1 ≠ some f.name) :
    (decodeObject decode k ((some f.name, .null) :: ms)).toOption = (decodeObject decode k ms).toOption := by
  have hlast : ((some f.name, .null) :: ms).Perm (ms ++ [(some f.name, .null)]) :=
    (List.perm_append_singleton _ _).symm
  rw [decodeObject_perm k hlast, toOption_decodeObject, toOption_decodeObject, List.foldlM_append]
  show (Option.bind _ _).bind _ = _
  rw [Option.bind_assoc]
  refine Option.bind_congr fun slots hslots => ?_
  have hvacant := vacant_of_members hms (vacant_empty f.name k.fields) hslots
  obtain ⟨slots', hstep, hfill⟩ := fill_decodeMember_null hnull hf hmem (names_nodup k) hvacant
  have hstep : memberStep decode k.fields slots (some f.name, .null) = some slots' := hstep
  rw [List.foldlM_cons, hstep]
  show ((Slots.fill k.fields slots').map k.build).toOption = _
  rw [toOption_map, toOption_map, hfill]

/-! ### Values of members -/

theorem decodeMember_congr {name : String} {v v' : Tree} {fs : List Field}
    (h : ∀ f ∈ fs, name = f.name → (decode f.shape v).toOption = (decode f.shape v').toOption) (slots : Slots fs) :
    (decodeMember decode name v fs slots).toOption = (decodeMember decode name v' fs slots).toOption := by
  induction fs with
  | nil => rfl
  | cons f fs ih =>
    obtain ⟨hf, hfs⟩ := List.forall_mem_cons.mp h
    by_cases hname : name = f.name
    · rw [toOption_decodeMember_same hname, toOption_decodeMember_same hname, hf hname]
    · rw [toOption_decodeMember_other hname, toOption_decodeMember_other hname, ih hfs]

theorem decodeObject_member {k : Kind} {f : Field} (hmem : f ∈ k.fields) {v v' : Tree}
    (h : (decode f.shape v).toOption = (decode f.shape v').toOption) (before after : List (Option String × Tree)) :
    (decodeObject decode k (before ++ (some f.name, v) :: after)).toOption =
      (decodeObject decode k (before ++ (some f.name, v') :: after)).toOption := by
  have hfield : ∀ g ∈ k.fields, f.name = g.name → (decode g.shape v).toOption = (decode g.shape v').toOption := by
    intro g hg hname
    cases List.inj_on_of_nodup_map (names_nodup k) hmem hg hname
    exact h
  have hstep (slots : Slots k.fields) :
      memberStep decode k.fields slots (some f.name, v) = memberStep decode k.fields slots (some f.name, v') :=
    decodeMember_congr hfield slots
  simp only [toOption_decodeObject, List.foldlM_append, List.foldlM_cons, hstep]

end

/-! ## Lists -/

theorem mapM_item {α : Type} {f : Tree → Answer α} {v v' : Tree} (h : (f v).toOption = (f v').toOption)
    (before after : List Tree) :
    ((before ++ v :: after).mapM f).toOption = ((before ++ v' :: after).mapM f).toOption := by
  rw [toOption_mapM, toOption_mapM]
  simp only [List.mapM_append, List.mapM_cons, h]

/-! ## Trees -/

/-- A tree of a shape is written down otherwise, in one place. A key that cannot be read is no name, so it is not one
that the record does not have. -/
inductive Edit : Shape → Tree → Tree → Prop
  /-- The members of a record are reordered. -/
  | reorder {k : Kind} {ms ms' : List (Option String × Tree)} (h : ms.Perm ms') :
    Edit (.record k) (.object ms) (.object ms')
  /-- The entries of a map without repeated names are reordered. -/
  | reorderRatios {ms ms' : List (Option String × Tree)} (hdistinct : (ms.filterMap Prod.fst).Nodup) (h : ms.Perm ms') :
    Edit .ratios (.object ms) (.object ms')
  /-- A member that the record does not have is added, with any value. -/
  | unknown {k : Kind} {name : String} (h : ∀ f ∈ k.fields, f.name ≠ name) (v : Tree)
    (ms : List (Option String × Tree)) : Edit (.record k) (.object ms) (.object ((some name, v) :: ms))
  /-- An absent member that needs no value is written as `null`. -/
  | null {k : Kind} {f : Field} (hf : f.Nullable) (hmem : f ∈ k.fields) {ms : List (Option String × Tree)}
    (hms : ∀ m ∈ ms, m.1 ≠ some f.name) : Edit (.record k) (.object ms) (.object ((some f.name, .null) :: ms))
  | member {k : Kind} {f : Field} (hmem : f ∈ k.fields) {v v' : Tree} (h : Edit f.shape v v')
    (before after : List (Option String × Tree)) :
    Edit (.record k) (.object (before ++ (some f.name, v) :: after)) (.object (before ++ (some f.name, v') :: after))
  | item {s : Shape} {v v' : Tree} (h : Edit s v v') (before after : List Tree) :
    Edit (.list s) (.array (before ++ v :: after)) (.array (before ++ v' :: after))
  | given {s : Shape} {v v' : Tree} (h : Edit s v v') : Edit (.optional s) v v'

theorem Edit.ne_null {s : Shape} {v v' : Tree} (h : Edit s v v') : v ≠ .null ∧ v' ≠ .null := by
  induction h with
  | given _ ih => exact ih
  | _ => exact ⟨Tree.noConfusion, Tree.noConfusion⟩

/-- An edited tree decodes to the same value as before, or as before to none. -/
theorem Edit.decode_eq {s : Shape} {v v' : Tree} (h : Edit s v v') (depth : Nat) :
    (decodeWithin depth s v).toOption = (decodeWithin depth s v').toOption := by
  induction h generalizing depth with
  | given h ih =>
    rw [decodeWithin_optional depth _ h.ne_null.1, decodeWithin_optional depth _ h.ne_null.2, toOption_map,
      toOption_map, ih]
  | @reorder k ms ms' h =>
    cases depth with
    | zero => rfl
    | succ depth => exact decodeObject_perm k h
  | reorderRatios hdistinct h =>
    cases depth with
    | zero => rfl
    | succ depth => exact decodeRatios_perm _ h hdistinct
  | @unknown k name h v ms =>
    cases depth with
    | zero => rfl
    | succ depth => exact (decodeObject_unknown k h v ms).symm
  | null hf hmem hms =>
    cases depth with
    | zero => rfl
    | succ depth =>
      have hnull (s : Shape) : decodeWithin depth (.optional s) .null = .ok none := by cases depth <;> rfl
      exact (decodeObject_null hnull hf hmem hms).symm
  | member hmem _ before after ih =>
    cases depth with
    | zero => rfl
    | succ depth => exact decodeObject_member hmem (ih depth) before after
  | item _ before after ih =>
    cases depth with
    | zero => rfl
    | succ depth => exact mapM_item (ih depth) before after

theorem decode_of_edits {s : Shape} {v v' : Tree} (h : Relation.EqvGen (Edit s) v v') (depth : Nat) :
    (decodeWithin depth s v).toOption = (decodeWithin depth s v').toOption := by
  induction h with
  | rel v v' h => exact h.decode_eq depth
  | refl v => rfl
  | symm v v' _ ih => exact ih.symm
  | trans v v' v'' _ _ ih ih' => exact ih.trans ih'

/-! ## Texts -/

theorem toOption_read {text : String} {v : Tree} (h : Holds text.toList v) (s : Shape) :
    (Document.read s text).toOption = (decodeWithin depthLimit s v).toOption := by
  rw [← read_of_holds h s, toOption_mapError]

end PresetWorkspace.Document

namespace PresetWorkspace

open Document

/-- Every JSON text has a tree. Two texts whose trees are the same but for edits are read as the same preset, or neither
is a preset; where blanks stand in them does not matter. -/
theorem Preset.read_edited :
    (∀ text : String, JsonText.IsDocument text.toList → ∃ v, Holds text.toList v) ∧
      ∀ (text text' : String) (v v' : Tree), Holds text.toList v → Holds text'.toList v' →
        Relation.EqvGen (Edit (.record .preset)) v v' →
          (Document.read (.record .preset) text).toOption = (Document.read (.record .preset) text').toOption := by
  refine ⟨fun text h => exists_holds h, fun text text' v v' h h' hedits => ?_⟩
  rw [toOption_read h, toOption_read h', decode_of_edits hedits]

namespace Json

def presetMembers (group : List (String × Json)) : List (String × Json) := [("name", .text "p"), ("tag_group", .object group)]

def presetWith (group : List (String × Json)) : Json := .object (presetMembers group)

def plainGroup : List (String × Json) := [("name", .text "g"), ("color", .text "#000000")]

def editedGroup : List (String × Json) := [("description", .null), ("color", .text "#000000"), ("name", .text "g")]

def editedPreset : Json := .object [("note", .array [.null]), ("tag_group", .object editedGroup), ("name", .text "p")]

theorem edits_plain : Relation.EqvGen (Edit (.record .preset)) (presetWith plainGroup) editedPreset := by
  have hswap : Edit (.record .groupTemplate) (object plainGroup) (object plainGroup.reverse) := .reorder (.swap _ _ [])
  have hnull : Edit (.record .groupTemplate) (object plainGroup.reverse) (object editedGroup) :=
    .null (f := .optional "description" .text) ⟨_, _, .inl rfl⟩ (by simp)
      (by simp [treeMembers, plainGroup, Field.optional])
  have hgroup {members members' : List (String × Json)}
      (h : Edit (.record .groupTemplate) (object members) (object members')) :
      Edit (.record .preset) (presetWith members) (presetWith members') :=
    .member (f := .required "tag_group" (.record .groupTemplate)) (by simp) h [(some "name", .text (some "p"))] []
  have horder : Edit (.record .preset) (presetWith editedGroup)
      (object [("tag_group", .object editedGroup), ("name", .text "p")]) := .reorder (.swap _ _ [])
  have hnote : Edit (.record .preset) (object [("tag_group", .object editedGroup), ("name", .text "p")])
      editedPreset := .unknown (by simp [Field.required, Field.optional, Field.filled]) _ _
  exact .trans _ _ _ (.rel _ _ (hgroup hswap)) (.trans _ _ _ (.rel _ _ (hgroup hnull))
    (.trans _ _ _ (.rel _ _ horder) (.rel _ _ hnote)))

theorem rereads_plain : ∀ m ∈ presetMembers plainGroup, m.2.Rereads := by
  refine List.forall_mem_cons.mpr ⟨.text _, List.forall_mem_singleton.mpr (.object ?_)⟩
  exact List.forall_mem_cons.mpr ⟨.text _, List.forall_mem_singleton.mpr (.text _)⟩

end Json

theorem Preset.read_edited_plain :
    (Document.read (.record .preset) (Json.presetWith Json.plainGroup).compact).toOption.isSome = true ∧
      (Document.read (.record .preset) (Json.presetWith Json.plainGroup).compact).toOption =
        (Document.read (.record .preset) Json.editedPreset.pretty).toOption := by
  have hedited : Json.editedPreset.Rereads := by
    refine .object (List.forall_mem_cons.mpr ⟨.array (List.forall_mem_singleton.mpr .null), ?_⟩)
    refine List.forall_mem_cons.mpr ⟨.object ?_, List.forall_mem_singleton.mpr (.text _)⟩
    exact List.forall_mem_cons.mpr ⟨.null, List.forall_mem_cons.mpr ⟨.text _, List.forall_mem_singleton.mpr (.text _)⟩⟩
  exact ⟨by decide +kernel,
    Preset.read_edited.2 _ _ _ _ (Json.Rereads.object Json.rereads_plain).spells_compact.holds (hedited.spells_pretty 0).holds Json.edits_plain⟩

/-- The pretty text of a small preset, with room for a member before the others. -/
def presetText (member : String) : String :=
  "\x7b" ++ member ++ "\n  \"name\": \"p\",\n  \"tag_group\": \x7b\n    \"name\": \"g\",\n    \"color\": \"#000000\"\n  \x7d\n\x7d"

/-- A member whose key is half a pair of surrogates makes a preset unreadable, though no record has such a member. -/
theorem Preset.read_lone_surrogate :
    let text := presetText "\"\\ud800\":null,"
    JsonText.IsDocument text.toList ∧
      (∃ ms, Holds (presetText "").toList (.object ms) ∧ Holds text.toList (.object ((none, .null) :: ms))) ∧
      (Document.read (.record .preset) (presetText "")).toOption.isSome = true ∧
      (Document.read (.record .preset) text).toOption.isNone = true := by
  intro text
  let members := Json.presetMembers Json.plainGroup
  let key := ['\\', 'u', 'd', '8', '0', '0', '"']
  let rest := Json.joinMembers (Json.newline 1) [' '] (Json.prettyChars 1) members ++ (Json.newline 0 ++ ['}'])
  have hplain : presetText "" = String.ofList ('{' :: rest) := by decide +kernel
  have htext : text = String.ofList ('{' :: '"' :: (key ++ ':' :: (['n', 'u', 'l', 'l'] ++ ',' :: rest))) := by
    decide +kernel
  have hkey : JsonText.IsTail key := .hex (by simp [JsonText.isHexDigit]) .close
  have hspells (first : Bool) : SpellsMembers Spells first (separator first ++ rest)
      (members.map fun m => (some m.1, m.2.tree)) :=
    Json.spells_joinMembers (Json.skipBlanks_newline 1) (Json.skipBlanks_newline 0) rfl
      (Json.spells_members fun m hm => (Json.rereads_plain m hm).spells_pretty 1) first (fun h => by cases h)
  refine ⟨?_, ⟨members.map fun m => (some m.1, m.2.tree), ?_, ?_⟩, by decide +kernel, by decide +kernel⟩
  · have hnull : JsonText.IsDocument ['n', 'u', 'l', 'l'] := .around JsonText.isBlanks_nil .null JsonText.isBlanks_nil
    have hrest := JsonText.isMembers_pretty 1 (JsonText.isBlanks_newline 0) members (List.cons_ne_nil _ _)
    have hmembers := JsonText.IsMembers.member JsonText.isBlanks_nil hkey JsonText.isBlanks_nil hnull hrest
    rw [htext, String.toList_ofList]
    simpa [rest, Json.prettyMembers_eq] using
      JsonText.IsDocument.around JsonText.isBlanks_nil (.object hmembers) JsonText.isBlanks_nil
  · rw [hplain]
    exact (Spells.object (hspells true)).holds
  · rw [htext]
    have hmember := SpellsMembers.member true skipBlanks_nil skipBlanks_nil ⟨hkey, fun more => ⟨rfl, rfl⟩⟩ skipBlanks_nil
      skipBlanks_nil .null (hspells false)
    exact (Spells.object hmember).holds

end PresetWorkspace
