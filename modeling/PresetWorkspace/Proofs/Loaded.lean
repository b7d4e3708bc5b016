import PresetWorkspace.Proofs.Except
import PresetWorkspace.Proofs.Finiteness
import PresetWorkspace.Proofs.RoundTrip

/-!
# Presets that have been read

What is read fits into the levels that are left for it (`Fits`): colors are
colors, ratios are finite, and a todo takes two levels for each level of todos
below it, since these stand in a list. The readers of containers only pass on
what was read inside, whether a record stands as an object or as a list, and
the values of absent members fit everywhere (`default_fits`). So a preset that
has been read has at most 63 levels of todos, and some text has as many.
-/

namespace PresetWorkspace

def IsColor (s : String) : Prop :=
  ∃ digits : List Char, s.toList = '#' :: digits ∧ digits.length = 6 ∧
    ∀ c ∈ digits, c ∈ "0123456789abcdefABCDEF".toList

theorem mem_digits_of_isHexDigit {c : Char} (h : isHexDigit c = true) : c ∈ "0123456789abcdefABCDEF".toList := by
  have hall : ∀ n < 128, isHexDigit (Char.ofNat n) = true → Char.ofNat n ∈ "0123456789abcdefABCDEF".toList := by
    decide +kernel
  have hascii : c.toNat < 128 := by
    have hle : c ≤ '9' ∨ c ≤ 'f' ∨ c ≤ 'F' := by
      simp only [isHexDigit, Bool.or_eq_true, Bool.and_eq_true, decide_eq_true_eq] at h
      tauto
    rcases hle with hle | hle | hle <;> exact Nat.lt_of_le_of_lt (show c.toNat ≤ _ from hle) (by decide)
  have hc := hall c.toNat hascii
  rw [Char.ofNat_toNat] at hc
  exact hc h

theorem isColor_of_isHexColor {s : String} (h : isHexColor s = true) : IsColor s := by
  unfold isHexColor at h
  split at h
  · next digits hs =>
    rw [Bool.and_eq_true, decide_eq_true_eq, List.all_eq_true] at h
    exact ⟨digits, hs, h.1, fun c hc => mem_digits_of_isHexDigit (h.2 c hc)⟩
  · cases h

namespace TodoTemplate

mutual

def height : TodoTemplate → Nat
  | ⟨_, _, _, none⟩ => 1
  | ⟨_, _, _, some ts⟩ => 1 + heights ts

def heights : List TodoTemplate → Nat
  | [] => 0
  | t :: ts => max t.height (heights ts)

end

theorem height_eq (t : TodoTemplate) : t.height = 1 + heights t.subtodos := by
  obtain ⟨_, _, _, _ | ts⟩ := t <;> simp [height, subtodos, heights]

theorem heights_le_iff {ts : List TodoTemplate} {n : Nat} : heights ts ≤ n ↔ ∀ t ∈ ts, t.height ≤ n := by
  induction ts with
  | nil => simp [heights]
  | cons t ts ih => rw [heights, Nat.max_le, ih, List.forall_mem_cons]

end TodoTemplate

open TodoTemplate

namespace Document

/-! ## What fits -/

/-- Whether a record is as readers leave it, in so many levels. -/
def Kind.Fits (depth : Nat) : (k : Kind) → k.Carrier → Prop
  | .preset, p =>
    (IsColor p.group.color ∧ ∀ m ∈ p.group.goalRatios, ∀ e ∈ m.entries, e.2.isFinite = true) ∧
      (∀ t ∈ p.tags, IsColor t.color) ∧ 2 * heights p.todos + 1 ≤ depth
  | .groupTemplate, g => IsColor g.color ∧ ∀ m ∈ g.goalRatios, ∀ e ∈ m.entries, e.2.isFinite = true
  | .tagTemplate, t => IsColor t.color
  | .todoTemplate, t => 2 * t.height ≤ depth + 1
  | _, _ => True

def Shape.Fits (depth : Nat) : (s : Shape) → s.Carrier → Prop
  | .color, c => IsColor c
  | .ratio, x => x.isFinite = true
  | .ratios, m => ∀ e ∈ m.entries, e.2.isFinite = true
  | .optional s, o => ∀ v ∈ o, s.Fits depth v
  | .list s, vs => ∀ v ∈ vs, ∃ inner, depth = inner + 1 ∧ s.Fits inner v
  | .record k, v => k.Fits depth v
  | .text, _ | .path, _ | .flag, _ | .count, _ | .time, _ | .id, _ => True

/-! ## Readers that succeed -/

def Gives {α : Type} (read : List Char → Reading α) (P : α → Prop) : Prop :=
  ∀ text v rest, read text = .ok (v, rest) → P v

theorem atValue_eq_ok {α : Type} {text rest : List Char} {read : List Char → Reading α} {v : α}
    (h : atValue text read = .ok (v, rest)) : ∃ text', read text' = .ok (v, rest) := by
  unfold atValue at h
  split at h
  · cases h
  · exact ⟨_, h⟩

theorem gives_readElements {α : Type} {P : α → Prop} {read : List Char → Reading α} (h : Gives read P) (fuel : Nat)
    (first : Bool) : Gives (readElements read fuel first) fun vs => ∀ v ∈ vs, P v := by
  induction fuel generalizing first with
  | zero => exact fun _ _ _ hread => by cases hread
  | succ fuel ih =>
    intro text vs rest hread
    unfold readElements at hread
    obtain ⟨⟨more, at'⟩, -, hread⟩ := bind_eq_ok.mp hread
    cases more with
    | false =>
      cases hread
      exact fun _ hv => absurd hv List.not_mem_nil
    | true =>
      obtain ⟨⟨v, at'⟩, hv, hread⟩ := bind_eq_ok.mp hread
      obtain ⟨⟨vs, at'⟩, hvs, hread⟩ := map_eq_ok.mp hread
      cases hread
      exact List.forall_mem_cons.mpr ⟨h _ _ _ hv, ih false _ _ _ hvs⟩

theorem forall_mem_insertEntry {P : Binary64 → Prop} {name : String} {x : Binary64} {es : List (String × Binary64)}
    (hx : P x) (hes : ∀ e ∈ es, P e.2) : ∀ e ∈ Ratios.insertEntry name x es, P e.2 := by
  induction es with
  | nil => exact List.forall_mem_singleton.mpr hx
  | cons e es ih =>
    obtain ⟨he, hrest⟩ := List.forall_mem_cons.mp hes
    unfold Ratios.insertEntry
    split
    · exact List.forall_mem_cons.mpr ⟨hx, hes⟩
    · split
      · exact List.forall_mem_cons.mpr ⟨hx, hrest⟩
      · exact List.forall_mem_cons.mpr ⟨he, ih hrest⟩

theorem gives_readRatios {P : Binary64 → Prop} {read : List Char → Reading Binary64} (h : Gives read P) (fuel : Nat)
    (first : Bool) {m : Ratios} (hm : ∀ e ∈ m.entries, P e.2) :
    Gives (readRatios read fuel first m) fun m => ∀ e ∈ m.entries, P e.2 := by
  induction fuel generalizing first m with
  | zero => exact fun _ _ _ hread => by cases hread
  | succ fuel ih =>
    intro text m' rest hread
    unfold readRatios at hread
    obtain ⟨⟨key, at'⟩, -, hread⟩ := bind_eq_ok.mp hread
    cases key with
    | none =>
      cases hread
      exact hm
    | some key =>
      obtain ⟨at', -, hread⟩ := bind_eq_ok.mp hread
      obtain ⟨⟨x, at'⟩, hx, hread⟩ := bind_eq_ok.mp hread
      exact ih false (forall_mem_insertEntry (h _ _ _ hx) hm) _ _ _ hread

/-! ## Records -/

section
variable (P : (s : Shape) → s.Carrier → Prop)

def Slots.All : (fs : List Field) → Slots fs → Prop
  | [], () => True
  | f :: fs, (slot, slots) => (∀ v ∈ slot, P f.shape v) ∧ Slots.All fs slots

def Parts.All : (fs : List Field) → Parts fs → Prop
  | [], () => True
  | f :: fs, (v, parts) => P f.shape v ∧ Parts.All fs parts

def Field.Defaults (f : Field) : Prop :=
  match f.absence with
  | .fault => True
  | .value v | .inObject v => P f.shape v

variable {P}

theorem Slots.all_empty : ∀ fs, Slots.All P fs (Slots.empty fs)
  | [] => trivial
  | _ :: fs => ⟨fun _ hv => absurd hv (Option.not_mem_none _), Slots.all_empty fs⟩

theorem Slots.all_fill : ∀ (fs : List Field) {slots : Slots fs} {parts : Parts fs}, (∀ f ∈ fs, f.Defaults P) →
    Slots.All P fs slots → Slots.fill fs slots = .ok parts → Parts.All P fs parts
  | [], (), (), _, _, _ => trivial
  | ⟨name, shape, absence⟩ :: fs, (slot, slots), parts, hdefaults, ⟨hslot, hslots⟩, hfill => by
    obtain ⟨hf, hfs⟩ := List.forall_mem_cons.mp hdefaults
    have hrest {parts' : Parts fs} : Slots.fill fs slots = .ok parts' → Parts.All P fs parts' :=
      all_fill fs hfs hslots
    cases slot with
    | some v =>
      obtain ⟨parts', hparts, rfl⟩ := map_eq_ok.mp hfill
      exact ⟨hslot v rfl, hrest hparts⟩
    | none =>
      cases absence with
      | fault => cases hfill
      | value v =>
        obtain ⟨parts', hparts, rfl⟩ := map_eq_ok.mp hfill
        exact ⟨hf, hrest hparts⟩
      | inObject v =>
        obtain ⟨parts', hparts, rfl⟩ := map_eq_ok.mp hfill
        exact ⟨hf, hrest hparts⟩

variable {read : ShapeReader} (h : ∀ s, Gives (read s) (P s))
include h

theorem gives_readMember (key : String) : ∀ (fs : List Field) {slots : Slots fs}, Slots.All P fs slots →
    Gives (readMember read key fs slots) (Slots.All P fs)
  | [], (), _, _, _, _, _ => trivial
  | f :: fs, (slot, slots), ⟨hslot, hslots⟩, text, slots', rest, hread => by
    unfold readMember at hread
    split at hread
    · split at hread
      · cases hread
      · obtain ⟨at', -, hread⟩ := bind_eq_ok.mp hread
        obtain ⟨⟨x, at'⟩, hx, hread⟩ := map_eq_ok.mp hread
        cases hread
        exact ⟨fun y hy => Option.some.inj hy ▸ h _ _ _ _ hx, hslots⟩
    · obtain ⟨⟨slots', at'⟩, hmember, hread⟩ := map_eq_ok.mp hread
      cases hread
      exact ⟨hslot, gives_readMember key fs hslots _ _ _ hmember⟩

theorem gives_readMembers (fs : List Field) (fuel : Nat) (first : Bool) {slots : Slots fs}
    (hslots : Slots.All P fs slots) : Gives (readMembers read fs fuel first slots) (Slots.All P fs) := by
  induction fuel generalizing first slots with
  | zero => exact fun _ _ _ hread => by cases hread
  | succ fuel ih =>
    intro text slots' rest hread
    unfold readMembers at hread
    obtain ⟨⟨key, at'⟩, -, hread⟩ := bind_eq_ok.mp hread
    cases key with
    | none =>
      cases hread
      exact hslots
    | some key =>
      obtain ⟨⟨slots'', at'⟩, hmember, hread⟩ := bind_eq_ok.mp hread
      exact ih false (gives_readMember h key fs hslots _ _ _ hmember) _ _ _ hread

theorem gives_readListed (k : Kind) : ∀ (fs : List Field) (index : Nat), (∀ f ∈ fs, f.Defaults P) →
    Gives (readListed read k fs index) (Parts.All P fs)
  | [], _, _, _, _, _, _ => trivial
  | ⟨name, shape, absence⟩ :: fs, index, hdefaults, text, parts, rest, hread => by
    obtain ⟨hf, hfs⟩ := List.forall_mem_cons.mp hdefaults
    obtain ⟨⟨more, at'⟩, -, hread⟩ := bind_eq_ok.mp hread
    cases more with
    | true =>
      obtain ⟨⟨v, at'⟩, hv, hread⟩ := bind_eq_ok.mp hread
      obtain ⟨⟨parts', at'⟩, hparts, hread⟩ := map_eq_ok.mp hread
      cases hread
      exact ⟨h _ _ _ _ hv, gives_readListed k fs (index + 1) hfs _ _ _ hparts⟩
    | false =>
      cases absence with
      | value v =>
        obtain ⟨⟨parts', at'⟩, hparts, hread⟩ := map_eq_ok.mp hread
        cases hread
        exact ⟨hf, gives_readListed k fs (index + 1) hfs _ _ _ hparts⟩
      | fault => cases hread
      | inObject v => cases hread

variable {k : Kind} {Q : k.Carrier → Prop} (hdefaults : ∀ f ∈ k.fields, f.Defaults P)
variable (hbuild : ∀ parts, Parts.All P k.fields parts → Q (k.build parts))
include hdefaults hbuild

theorem gives_readObject : Gives (readObject read k) Q := by
  intro text v rest hread
  unfold readObject at hread
  simp only at hread
  split at hread
  · next hbody =>
    cases hread
    obtain ⟨⟨slots, at'⟩, hslots, hbody⟩ := bind_eq_ok.mp hbody
    split at hbody
    · next parts hfill =>
      cases hbody
      have hall := gives_readMembers h k.fields _ true (Slots.all_empty _) _ _ _ hslots
      exact hbuild parts (Slots.all_fill k.fields hdefaults hall hfill)
    · cases hbody
  · cases hread

theorem gives_readArray : Gives (readArray read k) Q := by
  intro text v rest hread
  unfold readArray at hread
  split at hread
  · next parts at' hparts =>
    obtain ⟨rest', -, hread⟩ := map_eq_ok.mp hread
    cases hread
    exact hbuild parts (gives_readListed h k k.fields 0 hdefaults _ _ _ hparts)
  · cases hread

end

/-! ## Values that fit -/

/-- What absent members mean fits into any number of levels. -/
theorem default_fits (depth : Nat) (k : Kind) : ∀ f ∈ k.fields, f.Defaults fun s v => s.Fits depth v := by
  cases k <;> simp [Field.Defaults, Field.required, Field.optional, Field.filled, Field.nullable, Shape.Fits, Kind.Fits]

/-- A forest fits into a list below so many levels. -/
theorem heights_le_of_fits {depth : Nat} {ts : List TodoTemplate}
    (h : (Shape.list (.record .todoTemplate)).Fits depth ts) : 2 * heights ts ≤ depth := by
  have hle : heights ts ≤ depth / 2 := by
    rw [heights_le_iff]
    intro t ht
    obtain ⟨inner, rfl, hfits⟩ := h t ht
    have hfits : 2 * t.height ≤ inner + 1 := hfits
    omega
  omega

/-- A record fits one level above its members. -/
theorem build_fits {depth : Nat} : ∀ (k : Kind) (parts : Parts k.fields),
    Parts.All (fun s v => s.Fits depth v) k.fields parts → k.Fits (depth + 1) (k.build parts)
  | .preset, (name, description, group, tags, todos, ()), ⟨_, _, hgroup, htags, htodos, _⟩ => by
    have hle := heights_le_of_fits htodos
    refine ⟨hgroup, fun t ht => ?_, ?_⟩
    · obtain ⟨inner, -, hcolor⟩ := htags t ht
      exact hcolor
    · show 2 * heights todos + 1 ≤ depth + 1
      omega
  | .groupTemplate, (_, _, _, _, _, ()), ⟨_, hcolor, _, hratios, _⟩ => ⟨hcolor, hratios⟩
  | .tagTemplate, (_, _, _, ()), ⟨_, hcolor, _⟩ => hcolor
  | .todoTemplate, (title, description, tagNames, children, ()), ⟨_, _, _, hchildren, _⟩ => by
    have hle : 2 * heights (children.getD []) ≤ depth := by
      cases children with
      | none => exact Nat.zero_le _
      | some ts => exact heights_le_of_fits (hchildren ts rfl)
    show 2 * height ⟨title, description, tagNames, children⟩ ≤ depth + 1 + 1
    rw [height_eq]
    show 2 * (1 + heights (children.getD [])) ≤ depth + 1 + 1
    omega
  | .summary, _, _ | .initialized, _, _ | .groupRecord, _, _ | .tagRecord, _, _ | .todoRecord, _, _ => trivial
  | .groupRequest, _, _ | .tagRequest, _, _ | .todoRequest, _, _ => trivial
  | .settings, _, _ | .databaseSection, _, _ | .presetsSection, _, _ | .userSection, _, _ => trivial

/-! ## Readers of shapes -/

section
variable {inner : Option ShapeReader} {depth : Nat}

/-- What is read further down fits into the levels that are left there. -/
def Inside (inner : Option ShapeReader) (depth : Nat) : Prop :=
  ∀ read ∈ inner, ∃ left, depth = left + 1 ∧ ∀ s, Gives (read s) (s.Fits left)

theorem Inside.of_descend (hinner : Inside inner depth) {α : Type} {read : ShapeReader → List Char → Reading α}
    {text rest : List Char} {v : α} (h : descend inner text read = .ok (v, rest)) :
    ∃ r left, depth = left + 1 ∧ (∀ s, Gives (r s) (s.Fits left)) ∧ read r (text.drop 1) = .ok (v, rest) := by
  cases inner with
  | none => cases h
  | some r =>
    obtain ⟨left, hdepth, hgives⟩ := hinner r rfl
    exact ⟨r, left, hdepth, hgives, h⟩

theorem readShape_fits (hinner : Inside inner depth) : ∀ s, Gives (readShape inner s) (s.Fits depth)
  | .text, _, _, _, _ | .path, _, _, _, _ | .flag, _, _, _, _ => trivial
  | .count, _, _, _, _ | .time, _, _, _, _ | .id, _, _, _, _ => trivial
  | .color, text, v, rest, hread => by
    obtain ⟨⟨s, at'⟩, -, hread⟩ := bind_eq_ok.mp hread
    simp only at hread
    split at hread
    · next hcolor =>
      cases hread
      exact isColor_of_isHexColor hcolor
    · cases hread
  | .ratio, text, v, rest, hread => by
    obtain ⟨text', hread⟩ := atValue_eq_ok hread
    simp only at hread
    split at hread
    · obtain ⟨⟨n, at'⟩, hn, hread⟩ := bind_eq_ok.mp hread
      simp only at hread
      split at hread
      · next hv =>
        cases hread
        exact acceptRatio_finite (readNumber_finite hn) hv
      · cases hread
    · cases hread
  | .optional s, text, v, rest, hread => by
    unfold readShape at hread
    split at hread
    · obtain ⟨at', -, hread⟩ := map_eq_ok.mp hread
      cases hread
      exact fun _ hv => absurd hv (Option.not_mem_none _)
    · obtain ⟨⟨x, at'⟩, hx, hread⟩ := map_eq_ok.mp hread
      cases hread
      exact fun y hy => Option.some.inj hy ▸ readShape_fits hinner s _ _ _ hx
  | .ratios, text, v, rest, hread => by
    obtain ⟨text', hread⟩ := atValue_eq_ok hread
    simp only at hread
    split at hread
    · obtain ⟨read, left, rfl, hgives, hread⟩ := hinner.of_descend hread
      obtain ⟨⟨m, at'⟩, hm, hread⟩ := map_eq_ok.mp hread
      cases hread
      exact gives_readRatios (hgives .ratio) _ _ (fun _ he => absurd he List.not_mem_nil) _ _ _ hm
    · cases hread
  | .list s, text, v, rest, hread => by
    obtain ⟨text', hread⟩ := atValue_eq_ok hread
    simp only at hread
    split at hread
    · obtain ⟨read, left, rfl, hgives, hread⟩ := hinner.of_descend hread
      obtain ⟨⟨vs, at'⟩, hvs, hread⟩ := map_eq_ok.mp hread
      cases hread
      exact fun x hx => ⟨left, rfl, gives_readElements (hgives s) _ _ _ _ _ hvs x hx⟩
    · cases hread
  | .record k, text, v, rest, hread => by
    obtain ⟨text', hread⟩ := atValue_eq_ok hread
    split at hread
    · obtain ⟨read, left, rfl, hgives, hread⟩ := hinner.of_descend hread
      exact gives_readObject hgives (default_fits left k) (build_fits k) _ _ _ hread
    · obtain ⟨read, left, rfl, hgives, hread⟩ := hinner.of_descend hread
      exact gives_readArray hgives (default_fits left k) (build_fits k) _ _ _ hread
    · cases hread

/-- A value that is read fits into the levels that it may have. -/
theorem readWithin_fits (depth : Nat) : ∀ s, Gives (readWithin depth s) (s.Fits depth) := by
  induction depth with
  | zero => exact readShape_fits fun _ hread => absurd hread (Option.not_mem_none _)
  | succ depth ih => exact readShape_fits fun _ hread => Option.some.inj hread ▸ ⟨depth, rfl, ih⟩

theorem read_fits {s : Shape} {text : String} {v : s.Carrier} (h : read s text = .ok v) : s.Fits depthLimit v := by
  unfold read at h
  cases hread : readAll s text.toList with
  | error fault =>
    rw [hread] at h
    cases h
  | ok v' =>
    rw [hread] at h
    cases h
    obtain ⟨⟨v, rest⟩, hv, hread⟩ := bind_eq_ok.mp hread
    simp only at hread
    split at hread
    · cases hread
      exact readWithin_fits depthLimit s _ _ _ hv
    · cases hread

end

end Document

end PresetWorkspace
