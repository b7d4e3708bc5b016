import Mathlib.Data.List.Forall2
import Mathlib.Data.List.TakeWhile
import PresetWorkspace.Proofs.Leaves
import PresetWorkspace.Proofs.Trees

/-!
# Spellings

A text spells a tree if it is the tree's JSON text but for blanks, which may
stand around every part, and for the form of strings and numbers, which only
need to read as what they spell. Compact and pretty texts are spellings of
every value whose numbers read back, and every JSON text spells a tree
(`exists_spells`).
-/

namespace PresetWorkspace

namespace Document

open JsonText

/-! ## Blanks -/

theorem skipBlanks_blanks {blanks : List Char} (h : skipBlanks blanks = []) (more : List Char) :
    skipBlanks (blanks ++ more) = skipBlanks more := by
  unfold skipBlanks at h ⊢
  rw [List.dropWhile_append, h, List.isEmpty_nil, if_pos rfl]

theorem skipBlanks_cons {c : Char} (hc : isBlank c = false) (cs : List Char) : skipBlanks (c :: cs) = c :: cs :=
  List.dropWhile_cons_of_neg (by simp [hc])

theorem skipBlanks_append {blanks : List Char} (h : skipBlanks blanks = []) {c : Char} (hc : isBlank c = false)
    (cs : List Char) : skipBlanks (blanks ++ c :: cs) = c :: cs := by
  rw [skipBlanks_blanks h, skipBlanks_cons hc]

theorem skipBlanks_nil : skipBlanks [] = [] := rfl

/-! ## Trees -/

def separator (first : Bool) : List Char := if first then [] else [',']

inductive SpellsItems (spells : List Char → Tree → Prop) : Bool → List Char → List Tree → Prop
  | close (first : Bool) {blanks : List Char} (hblanks : skipBlanks blanks = []) :
    SpellsItems spells first (blanks ++ [']']) []
  | item (first : Bool) {blanks gap chars rest : List Char} {v : Tree} {vs : List Tree}
    (hblanks : skipBlanks blanks = []) (hgap : skipBlanks gap = []) (hv : spells chars v)
    (hrest : SpellsItems spells false rest vs) :
    SpellsItems spells first (blanks ++ (separator first ++ (gap ++ (chars ++ rest)))) (v :: vs)

inductive SpellsMembers (spells : List Char → Tree → Prop) : Bool → List Char → List (Option String × Tree) → Prop
  | close (first : Bool) {blanks : List Char} (hblanks : skipBlanks blanks = []) :
    SpellsMembers spells first (blanks ++ ['}']) []
  | member (first : Bool) {blanks gap key before after chars rest : List Char} {name : Option String} {v : Tree}
    {ms : List (Option String × Tree)}
    (hblanks : skipBlanks blanks = []) (hgap : skipBlanks gap = [])
    (hkey : SpellsText key name)
    (hbefore : skipBlanks before = []) (hafter : skipBlanks after = []) (hv : spells chars v)
    (hrest : SpellsMembers spells false rest ms) :
    SpellsMembers spells first
      (blanks ++ (separator first ++ (gap ++ '"' :: (key ++ (before ++ ':' :: (after ++ (chars ++ rest)))))))
      ((name, v) :: ms)

/-- A text without blanks around it that is a tree. -/
inductive Spells : List Char → Tree → Prop
  | null : Spells ['n', 'u', 'l', 'l'] .null
  | boolean (b : Bool) : Spells (Json.boolean.print b) (.boolean b)
  | number {chars : List Char} {n : Option Json.Number} (h : SpellsNumber chars n) : Spells chars (.number n)
  | text {chars : List Char} {s : Option String} (h : SpellsText chars s) : Spells ('"' :: chars) (.text s)
  | array {chars : List Char} {items : List Tree} (h : SpellsItems Spells true chars items) :
    Spells ('[' :: chars) (.array items)
  | object {chars : List Char} {members : List (Option String × Tree)} (h : SpellsMembers Spells true chars members) :
    Spells ('{' :: chars) (.object members)

/-- A spelling starts with no blank, and with nothing that could stand before or after a value. -/
theorem Spells.start {chars : List Char} {v : Tree} (h : Spells chars v) :
    ∃ c cs, chars = c :: cs ∧ isBlank c = false ∧ c ≠ ']' ∧ c ≠ '}' := by
  cases h with
  | number h =>
    obtain ⟨c, cs, rfl, hhead⟩ := head_of_isNumber h.number
    refine ⟨c, cs, rfl, isBlank_of_sign_or_digit hhead, ?_, ?_⟩ <;> rintro rfl <;> cases hhead
  | boolean b => cases b <;> exact ⟨_, _, rfl, by decide⟩
  | _ => exact ⟨_, _, rfl, by decide⟩

theorem Spells.skipBlanks_append {chars : List Char} {v : Tree} (h : Spells chars v) (more : List Char) :
    skipBlanks (chars ++ more) = chars ++ more := by
  obtain ⟨c, cs, rfl, hc, -⟩ := h.start
  exact skipBlanks_cons hc _

theorem Spells.skipBlanks_behind {chars blanks : List Char} {v : Tree} (h : Spells chars v)
    (hblanks : skipBlanks blanks = []) (more : List Char) : skipBlanks (blanks ++ (chars ++ more)) = chars ++ more := by
  rw [skipBlanks_blanks hblanks, h.skipBlanks_append]

theorem endsNumber_blanks {blanks : List Char} (h : skipBlanks blanks = []) : EndsNumber blanks := by
  intro c hc
  have hblank : isBlank c = true := List.dropWhile_eq_nil_iff.mp h c (List.mem_of_mem_head? hc)
  simp only [isBlank, Bool.or_eq_true, decide_eq_true_eq] at hblank
  rcases hblank with ((rfl | rfl) | rfl) | rfl <;> decide

/-- What may follow a value: blanks, and then a separator or the end of its container. -/
theorem endsNumber_of_blanks {blanks : List Char} (h : skipBlanks blanks = []) {c : Char}
    (hc : c = ',' ∨ c = ']' ∨ c = '}') (more : List Char) : EndsNumber (blanks ++ c :: more) := by
  intro x hx
  cases blanks with
  | nil =>
    cases hx
    rcases hc with rfl | rfl | rfl <;> decide
  | cons b blanks => exact endsNumber_blanks h x hx

theorem SpellsItems.endsNumber {spells : List Char → Tree → Prop} {chars : List Char} {vs : List Tree}
    (h : SpellsItems spells false chars vs) (more : List Char) : EndsNumber (chars ++ more) := by
  cases h with
  | close _ hblanks =>
    rw [List.append_assoc]
    exact endsNumber_of_blanks hblanks (by decide) more
  | item _ hblanks hgap hv hrest =>
    rw [List.append_assoc]
    exact endsNumber_of_blanks hblanks (by decide) _

theorem SpellsMembers.endsNumber {spells : List Char → Tree → Prop} {chars : List Char}
    {ms : List (Option String × Tree)} (h : SpellsMembers spells false chars ms) (more : List Char) :
    EndsNumber (chars ++ more) := by
  cases h with
  | close _ hblanks =>
    rw [List.append_assoc]
    exact endsNumber_of_blanks hblanks (by decide) more
  | member _ hblanks =>
    rw [List.append_assoc]
    exact endsNumber_of_blanks hblanks (by decide) _

/-- Every element takes a character, so the length of a text is fuel enough to read it. -/
theorem SpellsItems.length_lt {first : Bool} {chars : List Char} {vs : List Tree}
    (h : SpellsItems Spells first chars vs) (more : List Char) : vs.length < (chars ++ more).length + 1 := by
  induction h with
  | close => exact Nat.succ_pos _
  | item _ _ _ hv _ ih =>
    obtain ⟨c, cs, rfl, -⟩ := hv.start
    simp only [List.length_append, List.length_cons] at ih ⊢
    omega

theorem SpellsMembers.length_lt {spells : List Char → Tree → Prop} {first : Bool} {chars : List Char}
    {ms : List (Option String × Tree)} (h : SpellsMembers spells first chars ms) (more : List Char) :
    ms.length < (chars ++ more).length + 1 := by
  induction h with
  | close => exact Nat.succ_pos _
  | member _ _ _ _ _ _ _ _ ih =>
    simp only [List.length_append, List.length_cons] at ih ⊢
    omega

/-! ## Texts of the grammar -/

inductive Holds : List Char → Tree → Prop
  | around {before chars after : List Char} {v : Tree} (hbefore : skipBlanks before = []) (h : Spells chars v)
    (hafter : skipBlanks after = []) : Holds (before ++ (chars ++ after)) v

theorem Spells.holds {chars : List Char} {v : Tree} (h : Spells chars v) : Holds (String.ofList chars).toList v := by
  have hholds := Holds.around skipBlanks_nil h skipBlanks_nil
  rwa [List.nil_append, List.append_nil, ← String.toList_ofList (l := chars)] at hholds

theorem skipBlanks_of_isBlanks {blanks : List Char} (h : IsBlanks blanks) : skipBlanks blanks = [] :=
  List.dropWhile_eq_nil_iff.mpr h

mutual

theorem exists_spells {chars : List Char} : IsValue chars → ∃ v, Spells chars v
  | .null => ⟨.null, .null⟩
  | .boolean b => ⟨.boolean b, .boolean b⟩
  | .number h =>
    have ⟨n, hn⟩ := exists_spellsNumber h
    ⟨.number n, .number hn⟩
  | .text h =>
    have ⟨s, hs⟩ := exists_spellsText h
    ⟨.text s, .text hs⟩
  | .emptyArray h => ⟨.array [], .array (.close true (skipBlanks_of_isBlanks h))⟩
  | .array h =>
    have ⟨vs, hvs⟩ := exists_spellsItems h true skipBlanks_nil
    ⟨.array vs, .array hvs⟩
  | .emptyObject h => ⟨.object [], .object (.close true (skipBlanks_of_isBlanks h))⟩
  | .object h =>
    have ⟨ms, hms⟩ := exists_spellsMembers h true skipBlanks_nil
    ⟨.object ms, .object hms⟩

theorem exists_holds {text : List Char} : IsDocument text → ∃ v, Holds text v
  | .around hbefore h hafter =>
    have ⟨v, hv⟩ := exists_spells h
    ⟨v, .around (skipBlanks_of_isBlanks hbefore) hv (skipBlanks_of_isBlanks hafter)⟩

theorem exists_spellsItems {chars : List Char} : IsItems chars → ∀ (first : Bool) {blanks : List Char},
    skipBlanks blanks = [] → ∃ vs, SpellsItems Spells first (blanks ++ (separator first ++ (chars ++ [']']))) vs
  | .last h, first, blanks, hblanks => by
    obtain ⟨v, hv⟩ := exists_holds h
    cases hv with
    | around hbefore hv hafter =>
      have hitem := SpellsItems.item first hblanks hbefore hv (.close false hafter)
      exact ⟨[v], by simpa using hitem⟩
  | .item h hrest, first, blanks, hblanks => by
    obtain ⟨v, hv⟩ := exists_holds h
    cases hv with
    | around hbefore hv hafter =>
      obtain ⟨vs, hvs⟩ := exists_spellsItems hrest false hafter
      have hitem := SpellsItems.item first hblanks hbefore hv hvs
      exact ⟨v :: vs, by simpa [separator] using hitem⟩

theorem exists_spellsMembers {chars : List Char} : IsMembers chars → ∀ (first : Bool) {blanks : List Char},
    skipBlanks blanks = [] → ∃ ms, SpellsMembers Spells first (blanks ++ (separator first ++ (chars ++ ['}']))) ms
  | .last hbefore hname hbetween h, first, blanks, hblanks => by
    obtain ⟨name, hname⟩ := exists_spellsText hname
    obtain ⟨v, hv⟩ := exists_holds h
    cases hv with
    | around hgap hv hafter =>
      have hmember := SpellsMembers.member first hblanks (skipBlanks_of_isBlanks hbefore) hname
        (skipBlanks_of_isBlanks hbetween) hgap hv (.close false hafter)
      exact ⟨[(name, v)], by simpa using hmember⟩
  | .member hbefore hname hbetween h hrest, first, blanks, hblanks => by
    obtain ⟨name, hname⟩ := exists_spellsText hname
    obtain ⟨v, hv⟩ := exists_holds h
    cases hv with
    | around hgap hv hafter =>
      obtain ⟨ms, hms⟩ := exists_spellsMembers hrest false hafter
      have hmember := SpellsMembers.member first hblanks (skipBlanks_of_isBlanks hbefore) hname
        (skipBlanks_of_isBlanks hbetween) hgap hv hms
      exact ⟨(name, v) :: ms, by simpa [separator] using hmember⟩

end

end Document

open Document

/-! ## Printed values -/

namespace Json

/-- All numbers of a value read as themselves. -/
inductive Rereads : Json → Prop
  | null : Rereads .null
  | boolean (b : Bool) : Rereads (.boolean b)
  | number {n : Number} (h : readNumber n.print = .ok (n, [])) : Rereads (.number n)
  | text (s : String) : Rereads (.text s)
  | array {items : List Json} (h : ∀ v ∈ items, Rereads v) : Rereads (.array items)
  | object {members : List (String × Json)} (h : ∀ m ∈ members, Rereads m.2) : Rereads (.object members)

def joinItems (lead : List Char) (print : Json → List Char) : List Json → List Char
  | [] => []
  | [v] => lead ++ print v
  | v :: vs => lead ++ print v ++ ',' :: joinItems lead print vs

def joinMembers (lead gap : List Char) (print : Json → List Char) : List (String × Json) → List Char
  | [] => []
  | [(key, v)] => lead ++ text.print key ++ ':' :: gap ++ print v
  | (key, v) :: ms => lead ++ text.print key ++ ':' :: gap ++ print v ++ ',' :: joinMembers lead gap print ms

theorem compactItems_eq (vs : List Json) : compactItems vs = joinItems [] compactChars vs := by
  induction vs with
  | nil => rfl
  | cons v vs ih => cases vs <;> simp [compactItems, joinItems, ih]

theorem compactMembers_eq (ms : List (String × Json)) : compactMembers ms = joinMembers [] [] compactChars ms := by
  induction ms with
  | nil => rfl
  | cons m ms ih => cases ms <;> simp [compactMembers, joinMembers, ih]

theorem prettyItems_eq (depth : Nat) (vs : List Json) :
    prettyItems depth vs = joinItems (newline depth) (prettyChars depth) vs := by
  induction vs with
  | nil => rfl
  | cons v vs ih => cases vs <;> simp [prettyItems, joinItems, ih]

theorem prettyMembers_eq (depth : Nat) (ms : List (String × Json)) :
    prettyMembers depth ms = joinMembers (newline depth) [' '] (prettyChars depth) ms := by
  induction ms with
  | nil => rfl
  | cons m ms ih => cases ms <;> simp [prettyMembers, joinMembers, ih]

theorem skipBlanks_newline (depth : Nat) : skipBlanks (newline depth) = [] := by
  unfold skipBlanks
  rw [List.dropWhile_eq_nil_iff]
  intro c hc
  rcases List.mem_cons.mp hc with rfl | hc
  · rfl
  · rw [(List.mem_replicate.mp hc).2]
    rfl

theorem spellsText_printed (s : String) : SpellsText (s.toList.flatMap escaped ++ ['"']) (some s) := by
  refine ⟨JsonText.isTail_flatMap s.toList, fun more => ?_⟩
  rw [List.append_assoc, List.singleton_append, readString_print]
  exact ⟨rfl, rfl⟩

theorem spellsNumber_printed {n : Number} (h : readNumber n.print = .ok (n, [])) : SpellsNumber n.print (some n) := by
  refine .of_read ?_ h
  cases n with
  | whole n => exact JsonText.isNumber_signed (JsonText.isMagnitude_toDigits n.natAbs)
  | ratio x =>
    by_cases hfinite : x.isFinite = true
    · rw [Number.print, if_pos hfinite]
      exact JsonText.isNumber_numeral hfinite
    · rw [Number.print, if_neg hfinite] at h
      cases h

section
variable {lead gap last : List Char} {print : Json → List Char}
variable (hlead : skipBlanks lead = []) (hlast : skipBlanks last = [])
include hlead hlast

theorem spells_joinItems (vs : List Json) (h : ∀ v ∈ vs, Spells (print v) v.tree) (first : Bool)
    (hfirst : vs = [] → first = true) :
    SpellsItems Spells first (separator first ++ (joinItems lead print vs ++ (last ++ [']'])))
      (vs.map tree) := by
  induction vs generalizing first with
  | nil =>
    rw [hfirst rfl]
    exact .close true hlast
  | cons v vs ih =>
    obtain ⟨hv, hvs⟩ := List.forall_mem_cons.mp h
    cases vs with
    | nil =>
      have hitem := SpellsItems.item first skipBlanks_nil hlead hv (.close false hlast)
      simpa [joinItems] using hitem
    | cons w vs =>
      have hrest := ih hvs false fun h => by cases h
      have hitem := SpellsItems.item first skipBlanks_nil hlead hv hrest
      simpa [joinItems, separator] using hitem

theorem spells_joinMembers (hgap : skipBlanks gap = []) {ms : List (String × Json)} {ts : List (Option String × Tree)}
    (h : List.Forall₂ (fun m t => t.1 = some m.1 ∧ Spells (print m.2) t.2) ms ts) (first : Bool)
    (hfirst : ms = [] → first = true) :
    SpellsMembers Spells first (separator first ++ (joinMembers lead gap print ms ++ (last ++ ['}']))) ts := by
  induction h generalizing first with
  | nil =>
    rw [hfirst rfl]
    exact .close true hlast
  | @cons m t ms ts hm hms ih =>
    obtain ⟨key, v⟩ := m
    obtain ⟨name, tree⟩ := t
    obtain ⟨rfl, hm⟩ := hm
    have hkey := spellsText_printed key
    cases hms with
    | nil =>
      have hmember := SpellsMembers.member first skipBlanks_nil hlead hkey skipBlanks_nil hgap hm (.close false hlast)
      simpa [joinMembers, text.print] using hmember
    | cons =>
      have hrest := ih false fun h => by cases h
      have hmember := SpellsMembers.member first skipBlanks_nil hlead hkey skipBlanks_nil hgap hm hrest
      simpa [joinMembers, text.print, separator] using hmember

end

theorem spells_members {print : Json → List Char} {ms : List (String × Json)}
    (h : ∀ m ∈ ms, Spells (print m.2) m.2.tree) :
    List.Forall₂ (fun m t => t.1 = some m.1 ∧ Spells (print m.2) t.2) ms (ms.map fun m => (some m.1, m.2.tree)) :=
  List.forall₂_map_right_iff.mpr (List.forall₂_same.mpr fun m hm => ⟨rfl, h m hm⟩)

theorem Rereads.spells_compact {v : Json} (h : v.Rereads) : Spells v.compactChars v.tree := by
  induction h with
  | null => rw [compactChars]; exact .null
  | boolean b => rw [compactChars]; exact .boolean b
  | number h => rw [compactChars]; exact .number (spellsNumber_printed h)
  | text s => rw [compactChars]; exact .text (spellsText_printed s)
  | array h ih =>
    rw [compactChars, compactItems_eq, tree_array]
    exact .array (spells_joinItems skipBlanks_nil skipBlanks_nil _ ih true fun _ => rfl)
  | object h ih =>
    rw [compactChars, compactMembers_eq, tree_object]
    have hmembers := spells_members ih
    exact .object (spells_joinMembers skipBlanks_nil skipBlanks_nil skipBlanks_nil hmembers true fun _ => rfl)

theorem Rereads.spells_pretty {v : Json} (h : v.Rereads) (depth : Nat) : Spells (v.prettyChars depth) v.tree := by
  induction h generalizing depth with
  | null => rw [prettyChars]; exact .null
  | boolean b => rw [prettyChars]; exact .boolean b
  | number h => rw [prettyChars]; exact .number (spellsNumber_printed h)
  | text s => rw [prettyChars]; exact .text (spellsText_printed s)
  | @array items h ih =>
    cases items with
    | nil =>
      rw [prettyChars]
      exact .array (.close true skipBlanks_nil)
    | cons v vs =>
      rw [prettyChars, prettyItems_eq]
      have hitems := spells_joinItems (skipBlanks_newline (depth + 1)) (skipBlanks_newline depth) _
        (fun v hv => ih v hv (depth + 1)) true fun _ => rfl
      simpa [separator, tree_array] using Spells.array hitems
      simp
  | @object members h ih =>
    cases members with
    | nil =>
      rw [prettyChars]
      exact .object (.close true skipBlanks_nil)
    | cons m ms =>
      rw [prettyChars, prettyMembers_eq]
      have hblank : skipBlanks [' '] = [] := rfl
      have hmembers := spells_joinMembers (skipBlanks_newline (depth + 1)) (skipBlanks_newline depth) hblank
        (spells_members fun m hm => ih m hm (depth + 1)) true fun _ => rfl
      simpa [separator, tree_object] using Spells.object hmembers
      simp

end Json

end PresetWorkspace
