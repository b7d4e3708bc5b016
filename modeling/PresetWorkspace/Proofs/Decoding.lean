import PresetWorkspace.Proofs.Skipping

/-!
# Decoding

`decodeWithin` gives the value of a shape that a tree holds, without its text.
Whatever text spells the tree, it reads as that value, and if there is none,
the fault is of the class that `decodeWithin` tells (`readWithin_of_spells`).
-/

namespace PresetWorkspace.Document

/-! ## Trees -/

abbrev Answer (α : Type) := Except Cause.Class α

abbrev Decoder := (s : Shape) → Tree → Answer s.Carrier

def readable {α : Type} : Option α → Answer α
  | some v => .ok v
  | none => .error .syntactic

def decodeText : Tree → Answer String
  | .text s => readable s
  | v => .error v.misfit

def decodeFlag : Tree → Answer Bool
  | .boolean b => .ok b
  | v => .error v.misfit

def decodeNumber {α : Type} (accept : Json.Number → Except Cause α) : Tree → Answer α
  | .number n => (readable n).bind fun n => (accept n).mapError Cause.class
  | v => .error v.misfit

def decodeMember (decode : Decoder) (key : String) (v : Tree) : (fs : List Field) → Slots fs → Answer (Slots fs)
  | [], () => .ok ()
  | f :: fs, (slot, slots) =>
    if key = f.name then
      if slot.isSome then .error .data else (decode f.shape v).map fun x => (some x, slots)
    else (decodeMember decode key v fs slots).map fun slots => (slot, slots)

def decodeObject (decode : Decoder) (k : Kind) (members : List (Option String × Tree)) : Answer k.Carrier :=
  (members.foldlM (fun slots m => (readable m.1).bind fun name => decodeMember decode name m.2 k.fields slots)
    (Slots.empty k.fields)).bind fun slots =>
      ((Slots.fill k.fields slots).map k.build).mapError Cause.class

def decodeListed (decode : Decoder) : (fs : List Field) → List Tree → Answer (Parts fs × List Tree)
  | [], vs => .ok ((), vs)
  | f :: fs, v :: vs =>
    (decode f.shape v).bind fun x => (decodeListed decode fs vs).map fun (xs, rest) => ((x, xs), rest)
  | f :: fs, [] =>
    match f.absence with
    | .value x => (decodeListed decode fs []).map fun (xs, rest) => ((x, xs), rest)
    | _ => .error .data

def decodeArray (decode : Decoder) (k : Kind) (items : List Tree) : Answer k.Carrier :=
  (decodeListed decode k.fields items).bind fun
    | (parts, []) => .ok (k.build parts)
    | (_, _ :: _) => .error .syntactic

def decodeInner {α : Type} (inner : Option Decoder) (decode : Decoder → Answer α) : Answer α :=
  match inner with
  | none => .error .syntactic
  | some inner => decode inner

def decodeShape (inner : Option Decoder) : Decoder
  | .text, v | .path, v => decodeText v
  | .color, v => (decodeText v).bind fun s => if isHexColor s then .ok s else .error .data
  | .id, v =>
    (decodeText v).bind fun s =>
      match Uuid.ofText? s with
      | some u => .ok u
      | none => .error .data
  | .flag, v => decodeFlag v
  | .ratio, v => decodeNumber acceptRatio v
  | .count, v => decodeNumber (acceptCount Shape.count.wanted) v
  | .time, v => decodeNumber (acceptTime Shape.time.wanted) v
  | .optional _, .null => .ok none
  | .optional s, v => (decodeShape inner s v).map some
  | .ratios, .object members =>
    decodeInner inner fun decode =>
      members.foldlM (fun m e => (readable e.1).bind fun name => m.insert name <$> decode .ratio e.2) Ratios.empty
  | .list s, .array items => decodeInner inner fun decode => items.mapM (decode s)
  | .record k, .object members => decodeInner inner fun decode => decodeObject decode k members
  | .record k, .array items => decodeInner inner fun decode => decodeArray decode k items
  | _, v => .error v.misfit

/-- The value of a shape in a tree whose containers nest at most `depth` levels. -/
def decodeWithin : (depth : Nat) → Decoder
  | 0 => decodeShape none
  | depth + 1 => decodeShape (some (decodeWithin depth))

/-! ## Readings of a text -/

theorem Fault.cause_settle (close : List Char → List Char) (fault : Fault) :
    (fault.settle close).cause = fault.cause := by
  cases fault <;> rfl

/-- A reading gives an answer and leaves a rest, which counts but for its blanks. -/
def Agrees {α : Type} (answer : Answer α) (more : List Char) : Reading α → Prop
  | .ok (v, rest) => answer = .ok v ∧ skipBlanks rest = skipBlanks more
  | .error fault => answer = .error fault.cause.class

section
variable {α β : Type} {answer : Answer α} {reading : Reading α} {more more' : List Char}

theorem Agrees.bind (h : Agrees answer more reading) {next : α → Answer β} {read : α × List Char → Reading β}
    (hnext : ∀ v rest, skipBlanks rest = skipBlanks more → Agrees (next v) more' (read (v, rest))) :
    Agrees (answer.bind next) more' (reading.bind read) := by
  cases reading with
  | error fault =>
    rw [show answer = _ from h]
    rfl
  | ok r =>
    obtain ⟨hanswer, hrest⟩ := h
    rw [hanswer]
    exact hnext _ _ hrest

theorem Agrees.map (h : Agrees answer more reading) (f : α → β) :
    Agrees (answer.map f) more (reading.map fun (v, rest) => (f v, rest)) := by
  cases reading with
  | error fault =>
    rw [show answer = _ from h]
    rfl
  | ok r =>
    obtain ⟨hanswer, hrest⟩ := h
    rw [hanswer]
    exact ⟨rfl, hrest⟩

end

theorem Outcome.agrees {α : Type} {v : Option α} {more : List Char} {reading : Reading α} (h : Outcome v more reading) :
    Agrees (readable v) more reading := by
  cases v with
  | none =>
    obtain ⟨fault, rfl, hclass⟩ := h.eq_error
    exact congrArg Except.error hclass.symm
  | some v =>
    rw [h.eq_ok]
    exact ⟨rfl, rfl⟩

/-- A reader reads what a decoder decodes, whatever text spells it. -/
def Follows (read : ShapeReader) (decode : Decoder) : Prop :=
  ∀ (s : Shape) {chars : List Char} {v : Tree} {text more : List Char}, Spells chars v → EndsNumber more →
    skipBlanks text = chars ++ more → Agrees (decode s v) more (read s text)

/-! ## Scalars -/

section
variable {chars text more : List Char} {v : Tree}

theorem misfit_of_spells (h : Spells chars v) (hmore : EndsNumber more) (wanted : String) :
    (misfit wanted (chars ++ more)).cause.class = v.misfit := by
  cases h with
  | null => rfl
  | boolean b => cases b <;> rfl
  | @number chars n h =>
    have hread := h.reads more hmore
    obtain ⟨c, cs, rfl, hhead⟩ := head_of_isNumber h.number
    rw [List.cons_append] at hread ⊢
    cases n with
    | none =>
      obtain ⟨fault, hfault, hclass⟩ := hread.eq_error
      unfold misfit
      split <;> simp_all [Except.map, Tree.misfit]
    | some n =>
      have hread := hread.eq_ok
      unfold misfit
      split <;> simp_all [Except.map, Fault.cause, Cause.class, Fault.here, Tree.misfit]
  | @text chars s h =>
    show (misfit wanted ('"' :: (_ ++ more))).cause.class = _
    have hread := h.reads more
    cases s with
    | none =>
      obtain ⟨fault, hfault, hclass⟩ := hread.eq_error
      simp only [misfit, hfault]
      exact hclass
    | some s =>
      simp only [misfit, hread.eq_ok]
      rfl
  | array h => rfl
  | object h => rfl

theorem misfit_agrees (h : Spells chars v) (hmore : EndsNumber more) (wanted : String) (α : Type) :
    Agrees (.error v.misfit : Answer α) more (.error (misfit wanted (chars ++ more))) :=
  congrArg Except.error (misfit_of_spells h hmore wanted).symm

theorem atValue_of_spells {α : Type} (h : Spells chars v) (htext : skipBlanks text = chars ++ more)
    (read : List Char → Reading α) : atValue text read = read (chars ++ more) := by
  obtain ⟨c, cs, rfl, -⟩ := h.start
  unfold atValue
  rw [htext, List.cons_append]

theorem readText_of_spells (h : Spells chars v) (hmore : EndsNumber more) (htext : skipBlanks text = chars ++ more)
    (wanted : String) : Agrees (decodeText v) more (readText wanted text) := by
  have hmisfit := misfit_agrees h hmore wanted String
  unfold readText
  rw [atValue_of_spells h htext]
  cases h with
  | text h => exact (h.reads more).agrees
  | number h =>
    obtain ⟨c, cs, rfl, hhead⟩ := head_of_isNumber h.number
    rw [List.cons_append] at hmisfit ⊢
    split
    · next heq =>
      cases heq
      cases hhead
    · exact hmisfit
  | boolean b => cases b <;> exact hmisfit
  | _ => exact hmisfit

theorem readFlag_of_spells (h : Spells chars v) (hmore : EndsNumber more) (htext : skipBlanks text = chars ++ more)
    (wanted : String) : Agrees (decodeFlag v) more (readFlag wanted text) := by
  have hmisfit := misfit_agrees h hmore wanted Bool
  unfold readFlag
  rw [atValue_of_spells h htext]
  cases h with
  | boolean b => cases b <;> exact ⟨rfl, rfl⟩
  | number h =>
    obtain ⟨c, cs, rfl, hhead⟩ := head_of_isNumber h.number
    rw [List.cons_append] at hmisfit ⊢
    split
    · next heq =>
      cases heq
      cases hhead
    · next heq =>
      cases heq
      cases hhead
    · exact hmisfit
  | _ => exact hmisfit

theorem readNumberAs_of_spells (h : Spells chars v) (hmore : EndsNumber more) (htext : skipBlanks text = chars ++ more)
    {α : Type} (wanted : String) (accept : Json.Number → Except Cause α) :
    Agrees (decodeNumber accept v) more (readNumberAs wanted accept text) := by
  have hmisfit := misfit_agrees h hmore wanted α
  unfold readNumberAs
  rw [atValue_of_spells h htext]
  cases h with
  | @number _ n h =>
    have hread := (h.reads more hmore).agrees
    obtain ⟨c, cs, rfl, hhead⟩ := head_of_isNumber h.number
    rw [if_pos (by exact hhead)]
    refine hread.bind fun n rest hrest => ?_
    cases haccept : accept n with
    | error cause =>
      simp only [haccept]
      rfl
    | ok x =>
      simp only [haccept]
      exact ⟨rfl, hrest⟩
  | boolean b => cases b <;> exact hmisfit
  | _ => exact hmisfit

end

/-! ## Lists -/

theorem nextElement_congr {text text' : List Char} (h : skipBlanks text = skipBlanks text') (first : Bool) :
    nextElement first text = nextElement first text' := by
  unfold nextElement
  rw [h]

theorem nextElement_close (first : Bool) {blanks : List Char} (hblanks : skipBlanks blanks = []) (more : List Char) :
    nextElement first (blanks ++ [']'] ++ more) = .ok (false, ']' :: more) := by
  unfold nextElement
  rw [List.append_assoc, skipBlanks_blanks hblanks]
  rfl

theorem nextElement_item (first : Bool) {blanks gap chars : List Char} {v : Tree} (hblanks : skipBlanks blanks = [])
    (hgap : skipBlanks gap = []) (h : Spells chars v) (more : List Char) :
    nextElement first (blanks ++ (separator first ++ (gap ++ (chars ++ more)))) = .ok (true, chars ++ more) := by
  have hskip := h.skipBlanks_behind hgap more
  obtain ⟨c, cs, rfl, hblank, hclose, -⟩ := h.start
  rw [List.cons_append] at hskip
  unfold nextElement
  rw [skipBlanks_blanks hblanks]
  cases first with
  | true => simp [separator, hskip]
  | false => simp [separator, hskip, skipBlanks_cons (c := ',') rfl, hclose]

section
variable {read : ShapeReader} {decode : Decoder} (hread : Follows read decode)
include hread

theorem readElements_of_spells (s : Shape) {first : Bool} {chars text : List Char} {vs : List Tree}
    (h : SpellsItems Spells first chars vs) {fuel : Nat} (hfuel : vs.length < fuel) (more : List Char)
    (htext : skipBlanks text = skipBlanks (chars ++ more)) :
    Agrees (vs.mapM (decode s)) (']' :: more) (readElements (read s) fuel first text) := by
  induction h generalizing fuel text with
  | @close first blanks hblanks =>
    obtain ⟨fuel, rfl⟩ := Nat.exists_eq_add_one.mpr hfuel
    rw [readElements, nextElement_congr htext, nextElement_close first hblanks]
    exact ⟨rfl, rfl⟩
  | @item first blanks gap chars rest v vs hblanks hgap hv hrest ih =>
    obtain ⟨fuel, rfl⟩ := Nat.exists_eq_add_one.mpr (Nat.zero_lt_of_lt hfuel)
    simp only [List.append_assoc] at htext
    rw [readElements, nextElement_congr htext, nextElement_item first hblanks hgap hv, List.mapM_cons]
    refine (hread s hv (hrest.endsNumber more) (hv.skipBlanks_append _)).bind fun x text htext => ?_
    rw [bind_pure_comp]
    exact (ih (by rw [List.length_cons] at hfuel; omega) htext).map (x :: ·)

end

/-! ## Members -/

theorem nextKey_congr {text text' : List Char} (h : skipBlanks text = skipBlanks text') (first : Bool) :
    nextKey first text = nextKey first text' := by
  unfold nextKey
  rw [h]

theorem nextKey_close (first : Bool) {blanks : List Char} (hblanks : skipBlanks blanks = []) (more : List Char) :
    nextKey first (blanks ++ ['}'] ++ more) = .ok (none, '}' :: more) := by
  unfold nextKey
  rw [List.append_assoc, skipBlanks_blanks hblanks]
  rfl

theorem nextKey_member (first : Bool) {blanks gap key : List Char} {name : Option String}
    (hblanks : skipBlanks blanks = []) (hgap : skipBlanks gap = []) (hkey : SpellsText key name) (more : List Char) :
    Outcome (name.map some) more
      (nextKey first (blanks ++ (separator first ++ (gap ++ '"' :: (key ++ more))))) := by
  have hskip : skipBlanks (gap ++ '"' :: (key ++ more)) = '"' :: (key ++ more) := skipBlanks_append hgap rfl _
  have hread : Outcome (name.map some) more (nextKey.key (key ++ more)) := (hkey.reads more).map some
  unfold nextKey
  rw [skipBlanks_blanks hblanks]
  cases first with
  | true => simpa [separator, hskip] using hread
  | false => simpa [separator, hskip, skipBlanks_cons (c := ',') rfl] using hread

theorem readColon_blanks {blanks : List Char} (hblanks : skipBlanks blanks = []) (more : List Char) :
    readColon (blanks ++ ':' :: more) = .ok more := by
  unfold readColon
  rw [skipBlanks_append hblanks (by decide)]
  rfl

section
variable {read : ShapeReader} {decode : Decoder} (hread : Follows read decode)
include hread

theorem readMember_of_spells (key : String) {before after chars more : List Char} {v : Tree} (hv : Spells chars v)
    (hmore : EndsNumber more) (hbefore : skipBlanks before = []) (hafter : skipBlanks after = []) (fs : List Field)
    (slots : Slots fs) :
    Agrees (decodeMember decode key v fs slots) more
      (readMember read key fs slots (before ++ ':' :: (after ++ (chars ++ more)))) := by
  have htext := hv.skipBlanks_behind hafter more
  induction fs with
  | nil =>
    rw [readMember, readColon_blanks hbefore]
    show Agrees (.ok ()) more ((skipValue _).map _)
    rw [skipValue_of_spells hv hmore htext]
    exact ⟨rfl, rfl⟩
  | cons f fs ih =>
    obtain ⟨slot, slots⟩ := slots
    rw [readMember, decodeMember]
    by_cases hname : key = f.name
    · rw [if_pos hname, if_pos hname]
      by_cases hslot : slot.isSome = true
      · rw [if_pos hslot, if_pos hslot]
        rfl
      · rw [if_neg hslot, if_neg hslot, readColon_blanks hbefore]
        exact (hread f.shape hv hmore htext).map fun x => (some x, slots)
    · rw [if_neg hname, if_neg hname]
      exact (ih slots).map fun slots => (slot, slots)

theorem readMembers_of_spells (fs : List Field) {first : Bool} {chars text : List Char}
    {ms : List (Option String × Tree)} (h : SpellsMembers Spells first chars ms) {fuel : Nat}
    (hfuel : ms.length < fuel) (more : List Char) (htext : skipBlanks text = skipBlanks (chars ++ more))
    (slots : Slots fs) :
    Agrees (ms.foldlM (fun slots m => (readable m.1).bind fun name => decodeMember decode name m.2 fs slots) slots)
      ('}' :: more) (readMembers read fs fuel first slots text) := by
  induction h generalizing fuel text slots with
  | @close first blanks hblanks =>
    obtain ⟨fuel, rfl⟩ := Nat.exists_eq_add_one.mpr hfuel
    rw [readMembers, nextKey_congr htext, nextKey_close first hblanks]
    exact ⟨rfl, rfl⟩
  | @member first blanks gap key before after chars rest name v ms hblanks hgap hkey hbefore hafter hv hrest ih =>
    obtain ⟨fuel, rfl⟩ := Nat.exists_eq_add_one.mpr (Nat.zero_lt_of_lt hfuel)
    simp only [List.append_assoc, List.cons_append] at htext
    have hnext := nextKey_member first hblanks hgap hkey (before ++ ':' :: (after ++ (chars ++ (rest ++ more))))
    rw [readMembers, nextKey_congr htext, List.foldlM_cons]
    cases name with
    | none =>
      obtain ⟨fault, hfault, hclass⟩ := hnext.eq_error
      rw [hfault]
      exact congrArg Except.error hclass.symm
    | some name =>
      rw [hnext.eq_ok]
      refine (readMember_of_spells hread name hv (hrest.endsNumber more) hbefore hafter fs slots).bind
        fun slots text htext => ?_
      exact ih (by rw [List.length_cons] at hfuel; omega) htext slots

theorem readRatios_of_spells {first : Bool} {chars text : List Char} {ms : List (Option String × Tree)}
    (h : SpellsMembers Spells first chars ms) {fuel : Nat} (hfuel : ms.length < fuel) (more : List Char)
    (htext : skipBlanks text = skipBlanks (chars ++ more)) (m : Ratios) :
    Agrees (ms.foldlM (fun m e => (readable e.1).bind fun name => m.insert name <$> decode .ratio e.2) m) ('}' :: more)
      (readRatios (read .ratio) fuel first m text) := by
  induction h generalizing fuel text m with
  | @close first blanks hblanks =>
    obtain ⟨fuel, rfl⟩ := Nat.exists_eq_add_one.mpr hfuel
    rw [readRatios, nextKey_congr htext, nextKey_close first hblanks]
    exact ⟨rfl, rfl⟩
  | @member first blanks gap key before after chars rest name v ms hblanks hgap hkey hbefore hafter hv hrest ih =>
    obtain ⟨fuel, rfl⟩ := Nat.exists_eq_add_one.mpr (Nat.zero_lt_of_lt hfuel)
    simp only [List.append_assoc, List.cons_append] at htext
    have hnext := nextKey_member first hblanks hgap hkey (before ++ ':' :: (after ++ (chars ++ (rest ++ more))))
    rw [readRatios, nextKey_congr htext, List.foldlM_cons]
    cases name with
    | none =>
      obtain ⟨fault, hfault, hclass⟩ := hnext.eq_error
      rw [hfault]
      exact congrArg Except.error hclass.symm
    | some name =>
      rw [hnext.eq_ok]
      show Agrees (m.insert name <$> decode .ratio v >>= _) _ ((readColon _).bind _)
      rw [readColon_blanks hbefore, bind_map_left]
      refine (hread .ratio hv (hrest.endsNumber more) (hv.skipBlanks_behind hafter _)).bind fun x text htext => ?_
      exact ih (by rw [List.length_cons] at hfuel; omega) htext (m.insert name x)

end

/-! ## Containers -/

theorem passBrace_of_close {text more : List Char} (h : skipBlanks text = skipBlanks ('}' :: more)) :
    passBrace text = more := by
  unfold passBrace
  rw [h, skipBlanks_cons rfl]
  rfl

theorem passBracket_of_close {text more : List Char} (h : skipBlanks text = skipBlanks (']' :: more)) :
    passBracket text = more := by
  unfold passBracket
  rw [h, skipBlanks_cons rfl]
  rfl

theorem Agrees.pass {α : Type} {answer : Answer α} {reading : Reading α} {inside more : List Char}
    {close : List Char → List Char} (hclose : ∀ {rest}, skipBlanks rest = skipBlanks inside → close rest = more)
    (h : Agrees answer inside reading) : Agrees answer more (reading.map fun (v, rest) => (v, close rest)) := by
  cases reading with
  | error fault => exact h
  | ok r => exact ⟨h.1, congrArg skipBlanks (hclose h.2)⟩

def AgreesItems {α : Type} (answer : Answer (α × List Tree)) (more : List Char) : Reading α → Prop
  | .ok (v, rest) =>
    ∃ first chars vs, answer = .ok (v, vs) ∧ SpellsItems Spells first chars vs ∧
      skipBlanks rest = skipBlanks (chars ++ more)
  | .error fault => answer = .error fault.cause.class

theorem AgreesItems.map {α β : Type} {answer : Answer (α × List Tree)} {reading : Reading α} {more : List Char}
    (h : AgreesItems answer more reading) (f : α → β) :
    AgreesItems (answer.map fun (v, vs) => (f v, vs)) more (reading.map fun (v, rest) => (f v, rest)) := by
  cases reading with
  | error fault =>
    rw [show answer = _ from h]
    rfl
  | ok r =>
    obtain ⟨first, chars, vs, hanswer, hitems, hrest⟩ := h
    rw [hanswer]
    exact ⟨first, chars, vs, rfl, hitems, hrest⟩

theorem closeList_of_spells {first : Bool} {chars text : List Char} {vs : List Tree}
    (h : SpellsItems Spells first chars vs) (more : List Char) (htext : skipBlanks text = skipBlanks (chars ++ more)) :
    match vs with
    | [] => closeList text = .ok more
    | _ :: _ => ∃ fault, closeList text = .error fault ∧ fault.cause.class = .syntactic := by
  have hclose : closeList text = closeList (chars ++ more) := by
    unfold closeList
    rw [htext]
  rw [hclose]
  cases h with
  | close _ hblanks =>
    unfold closeList
    rw [List.append_assoc, skipBlanks_blanks hblanks]
    rfl
  | @item _ blanks gap chars rest v vs hblanks hgap hv hrest =>
    have hskip := hv.skipBlanks_behind hgap (rest ++ more)
    obtain ⟨c, cs, rfl, hblank, hne, -⟩ := hv.start
    simp only [List.append_assoc]
    unfold closeList
    rw [skipBlanks_blanks hblanks]
    cases first with
    | true =>
      simp only [separator, if_true, List.nil_append, hskip]
      split
      · next heq => cases heq
      · next heq => exact absurd (List.cons.inj heq).1 hne
      · split <;> exact ⟨_, rfl, rfl⟩
      · exact ⟨_, rfl, rfl⟩
    | false =>
      simp only [separator, Bool.false_eq_true, if_false, List.singleton_append, skipBlanks_cons (c := ',') rfl]
      split <;> exact ⟨_, rfl, rfl⟩

section
variable {read : ShapeReader} {decode : Decoder} (hread : Follows read decode)
include hread

theorem readObject_of_spells (k : Kind) {chars : List Char} {ms : List (Option String × Tree)}
    (h : SpellsMembers Spells true chars ms) (more : List Char) :
    Agrees (decodeObject decode k ms) more (readObject read k (chars ++ more)) := by
  have hmembers := readMembers_of_spells hread k.fields h (h.length_lt more) more rfl (Slots.empty k.fields)
  unfold readObject decodeObject
  cases hr : readMembers read k.fields ((chars ++ more).length + 1) true (Slots.empty k.fields) (chars ++ more) with
  | error fault =>
    rw [hr] at hmembers
    rw [show List.foldlM _ _ ms = _ from hmembers]
    show Except.error _ = Except.error (fault.settle passBrace).cause.class
    rw [Fault.cause_settle]
  | ok r =>
    rw [hr] at hmembers
    rw [hmembers.1]
    simp only [Except.bind]
    cases hfill : Slots.fill k.fields r.1 with
    | error cause => rfl
    | ok parts => exact ⟨rfl, congrArg skipBlanks (passBrace_of_close hmembers.2)⟩

theorem readListed_of_spells (k : Kind) (fs : List Field) {index : Nat} {chars text : List Char} {vs : List Tree}
    (h : SpellsItems Spells (decide (index = 0)) chars vs) (more : List Char)
    (htext : skipBlanks text = skipBlanks (chars ++ more)) :
    AgreesItems (decodeListed decode fs vs) more (readListed read k fs index text) := by
  induction fs generalizing index chars text vs with
  | nil => exact ⟨_, chars, vs, rfl, h, htext⟩
  | cons f fs ih =>
    rw [readListed, nextElement_congr htext]
    cases h with
    | close _ hblanks =>
      rw [nextElement_close _ hblanks, decodeListed]
      have hbracket : skipBlanks (']' :: more) = skipBlanks ([] ++ [']'] ++ more) := rfl
      have hrest := ih (.close (decide (index + 1 = 0)) skipBlanks_nil) hbracket
      simp only [Except.bind]
      cases f.absence with
      | value x => exact hrest.map (x, ·)
      | fault => rfl
      | inObject x => rfl
    | @item _ blanks gap chars rest v vs hblanks hgap hv hrest =>
      simp only [List.append_assoc]
      rw [nextElement_item _ hblanks hgap hv, decodeListed]
      have hvalue := hread f.shape hv (hrest.endsNumber more) (hv.skipBlanks_append _)
      show AgreesItems _ _ ((read f.shape (chars ++ (rest ++ more))).bind _)
      cases hr : read f.shape (chars ++ (rest ++ more)) with
      | error fault =>
        rw [hr] at hvalue
        rw [show decode f.shape v = _ from hvalue]
        rfl
      | ok r =>
        rw [hr] at hvalue
        rw [hvalue.1]
        have hrest : SpellsItems Spells (decide (index + 1 = 0)) rest vs := hrest
        exact (ih hrest hvalue.2).map (r.1, ·)

theorem readArray_of_spells (k : Kind) {chars : List Char} {vs : List Tree} (h : SpellsItems Spells true chars vs)
    (more : List Char) : Agrees (decodeArray decode k vs) more (readArray read k (chars ++ more)) := by
  have h : SpellsItems Spells (decide (0 = 0)) chars vs := h
  have hlisted := readListed_of_spells hread k k.fields h more rfl
  unfold readArray decodeArray
  cases hr : readListed read k k.fields 0 (chars ++ more) with
  | error fault =>
    rw [hr] at hlisted
    rw [show decodeListed decode k.fields vs = _ from hlisted]
    show Except.error _ = Except.error (fault.settle passBracket).cause.class
    rw [Fault.cause_settle]
  | ok r =>
    rw [hr] at hlisted
    obtain ⟨first, chars, left, hanswer, hitems, hrest⟩ := hlisted
    have hclose := closeList_of_spells hitems more hrest
    rw [hanswer]
    cases left with
    | nil =>
      simp only at hclose
      simp only [hclose]
      exact ⟨rfl, rfl⟩
    | cons v left =>
      obtain ⟨fault, hfault, hclass⟩ := hclose
      simp only [hfault]
      exact congrArg Except.error hclass.symm

end

/-! ## Shapes -/

theorem decodeShape_optional (decode : Option Decoder) (s : Shape) {v : Tree} (hv : v ≠ .null) :
    decodeShape decode (.optional s) v = (decodeShape decode s v).map some := by
  cases v with
  | null => exact absurd rfl hv
  | _ => rfl

section
variable {inner : Option ShapeReader} {decode : Option Decoder} (hinner : Option.Rel Follows inner decode)
include hinner

theorem descend_of_spells {α : Type} {read : ShapeReader → List Char → Reading α} {decoded : Decoder → Answer α}
    {c : Char} {text more : List Char}
    (h : ∀ {inner decode}, Follows inner decode → Agrees (decoded decode) more (read inner text)) :
    Agrees (decodeInner decode decoded) more (descend inner (c :: text) read) := by
  cases hinner with
  | none => rfl
  | some hinner => exact h hinner

section
variable {chars text more : List Char} {v : Tree} (h : Spells chars v) (hmore : EndsNumber more)
variable (htext : skipBlanks text = chars ++ more)
include h hmore htext

theorem readRatiosShape_of_spells : Agrees (decodeShape decode .ratios v) more (readShape inner .ratios text) := by
  have hmisfit := misfit_agrees h hmore Shape.ratios.wanted Ratios
  rw [readShape, atValue_of_spells h htext]
  cases h with
  | object h =>
    refine descend_of_spells hinner fun hread => ?_
    exact Agrees.pass passBrace_of_close (readRatios_of_spells hread h (h.length_lt more) more rfl .empty)
  | number h =>
    obtain ⟨c, cs, rfl, hhead⟩ := head_of_isNumber h.number
    rw [List.cons_append] at hmisfit ⊢
    split
    · next heq =>
      cases heq
      cases hhead
    · exact hmisfit
  | boolean b => cases b <;> exact hmisfit
  | _ => exact hmisfit

theorem readListShape_of_spells (s : Shape) :
    Agrees (decodeShape decode (.list s) v) more (readShape inner (.list s) text) := by
  have hmisfit := misfit_agrees h hmore (Shape.list s).wanted (List s.Carrier)
  rw [readShape, atValue_of_spells h htext]
  cases h with
  | array h =>
    refine descend_of_spells hinner fun hread => ?_
    exact Agrees.pass passBracket_of_close (readElements_of_spells hread s h (h.length_lt more) more rfl)
  | number h =>
    obtain ⟨c, cs, rfl, hhead⟩ := head_of_isNumber h.number
    rw [List.cons_append] at hmisfit ⊢
    split
    · next heq =>
      cases heq
      cases hhead
    · exact hmisfit
  | boolean b => cases b <;> exact hmisfit
  | _ => exact hmisfit

theorem readRecordShape_of_spells (k : Kind) :
    Agrees (decodeShape decode (.record k) v) more (readShape inner (.record k) text) := by
  have hmisfit := misfit_agrees h hmore (Shape.record k).wanted k.Carrier
  rw [readShape, atValue_of_spells h htext]
  cases h with
  | object h => exact descend_of_spells hinner fun hread => readObject_of_spells hread k h more
  | array h => exact descend_of_spells hinner fun hread => readArray_of_spells hread k h more
  | number h =>
    obtain ⟨c, cs, rfl, hhead⟩ := head_of_isNumber h.number
    rw [List.cons_append] at hmisfit ⊢
    split
    · next heq =>
      cases heq
      cases hhead
    · next heq =>
      cases heq
      cases hhead
    · exact hmisfit
  | boolean b => cases b <;> exact hmisfit
  | _ => exact hmisfit

end

theorem readShape_of_spells : Follows (readShape inner) (decodeShape decode) := by
  intro s
  induction s with
  | text => exact fun h hmore htext => readText_of_spells h hmore htext _
  | path => exact fun h hmore htext => readText_of_spells h hmore htext _
  | flag => exact fun h hmore htext => readFlag_of_spells h hmore htext _
  | ratio => exact fun h hmore htext => readNumberAs_of_spells h hmore htext _ _
  | count => exact fun h hmore htext => readNumberAs_of_spells h hmore htext _ _
  | time => exact fun h hmore htext => readNumberAs_of_spells h hmore htext _ _
  | color =>
    intro chars v text more h hmore htext
    refine (readText_of_spells h hmore htext _).bind fun s rest hrest => ?_
    by_cases hcolor : isHexColor s = true
    · simp only [if_pos hcolor]
      exact ⟨rfl, hrest⟩
    · simp only [if_neg hcolor]
      rfl
  | id =>
    intro chars v text more h hmore htext
    refine (readText_of_spells h hmore htext _).bind fun s rest hrest => ?_
    cases hid : Uuid.ofText? s with
    | none => simp only [hid]; rfl
    | some u => simp only [hid]; exact ⟨rfl, hrest⟩
  | optional s ih =>
    intro chars v text more h hmore htext
    have hgiven := (ih h hmore (h.skipBlanks_append more)).map some
    rw [readShape, htext]
    cases h with
    | null => exact ⟨rfl, rfl⟩
    | number h =>
      obtain ⟨c, cs, rfl, hhead⟩ := head_of_isNumber h.number
      rw [decodeShape_optional decode s (by exact fun h => by cases h)]
      split
      · next heq =>
        cases heq
        cases hhead
      · exact hgiven
    | boolean b => cases b <;> exact hgiven
    | _ => exact hgiven
  | ratios => exact fun h hmore htext => readRatiosShape_of_spells hinner h hmore htext
  | list s => exact fun h hmore htext => readListShape_of_spells hinner h hmore htext s
  | record k => exact fun h hmore htext => readRecordShape_of_spells hinner h hmore htext k

end

/-- A spelling of a value reads as what the value decodes to, and nothing behind it is read. -/
theorem readWithin_of_spells (depth : Nat) : Follows (readWithin depth) (decodeWithin depth) := by
  induction depth with
  | zero => exact readShape_of_spells .none
  | succ depth ih => exact readShape_of_spells (.some ih)

theorem cause_locate (text : List Char) (fault : Fault) : (fault.locate text).cause = fault.cause := by
  cases fault <;> rfl

/-- A document is the value that its tree decodes to. -/
theorem read_of_holds {text : String} {v : Tree} (h : Holds text.toList v) (s : Shape) :
    (Document.read s text).mapError (·.cause.class) = decodeWithin depthLimit s v := by
  unfold Document.read readAll
  generalize text.toList = text at h ⊢
  cases h with
  | @around before chars after v hbefore h hafter =>
    have hagrees := readWithin_of_spells depthLimit s h (endsNumber_blanks hafter) (h.skipBlanks_behind hbefore after)
    cases hr : readWithin depthLimit s (before ++ (chars ++ after)) with
    | error fault =>
      rw [hr] at hagrees
      rw [show decodeWithin depthLimit s v = _ from hagrees, ← cause_locate (before ++ (chars ++ after)) fault]
      rfl
    | ok r =>
      rw [hr] at hagrees
      obtain ⟨hanswer, hrest⟩ := hagrees
      rw [hafter] at hrest
      rw [hanswer]
      simp only [Except.bind, hrest]
      rfl

theorem read_of_spells {text : List Char} {v : Tree} (h : Spells text v) (s : Shape) :
    (Document.read s (String.ofList text)).mapError (·.cause.class) = decodeWithin depthLimit s v :=
  read_of_holds h.holds s

section
variable {chars : List Char} {v : Tree} {s : Shape} (h : Spells chars v)
include h

theorem Spells.read_ok {x : s.Carrier} (hv : decodeWithin depthLimit s v = .ok x) :
    Document.read s (String.ofList chars) = .ok x := by
  have hread := read_of_spells h s
  rw [hv] at hread
  cases hr : Document.read s (String.ofList chars) with
  | error problem => rw [hr] at hread; cases hread
  | ok y => rw [hr] at hread; cases hread; rfl

theorem Spells.read_error {c : Cause.Class} (hv : decodeWithin depthLimit s v = .error c) :
    ∃ problem, Document.read s (String.ofList chars) = .error problem := by
  have hread := read_of_spells h s
  rw [hv] at hread
  cases hr : Document.read s (String.ofList chars) with
  | error problem => exact ⟨problem, rfl⟩
  | ok y => rw [hr] at hread; cases hread

end

end PresetWorkspace.Document
