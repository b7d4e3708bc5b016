import PresetWorkspace.Document.Skip
import PresetWorkspace.Proofs.Spelling

/-!
# Skipped values

What a spelling stands for is of no account when it is skipped, not even
whether it can be read: a string and a number are skipped to the end that the
grammar gives them (`skipString_tail`, `skipMagnitude_of_grammar`), and a container up to
its own end, whatever else is open around it.
-/

namespace PresetWorkspace.Document

open JsonText

/-! ## Strings -/

theorem skipStringChars_skip (skipped rest : List Char) :
    skipStringChars skipped.length (skipped ++ rest) = skipStringChars 0 rest := by
  induction skipped with
  | nil => rfl
  | cons c skipped ih => exact ih

theorem skipStringChars_short {e c : Char} (h : shortEscape? e = some c) (rest : List Char) :
    skipStringChars 0 ('\\' :: e :: rest) = skipStringChars 0 rest := by
  have he : e ≠ 'u' := by
    rintro rfl
    cases h
  rw [skipStringChars, if_neg (by decide), if_pos rfl]
  · simp only [h, Option.isSome_some, if_true]
    exact skipStringChars_skip [e] rest
  · exact he

theorem skipStringChars_hex {a b c d : Char} (h : ∀ x ∈ [a, b, c, d], JsonText.isHexDigit x = true) (rest : List Char) :
    skipStringChars 0 ('\\' :: 'u' :: a :: b :: c :: d :: rest) = skipStringChars 0 rest := by
  rw [skipStringChars, if_neg (by decide), if_pos rfl]
  simp only [readHex_digits h]
  exact skipStringChars_skip ['u', a, b, c, d] rest

theorem skipString_tail {chars : List Char} (h : IsTail chars) (more : List Char) :
    skipStringChars 0 (chars ++ more) = .ok more := by
  induction h with
  | close => rfl
  | plain hc hquote hslash _ ih =>
    rw [List.cons_append]
    unfold skipStringChars
    rw [if_neg hquote, if_neg hslash, if_neg (Nat.not_lt.mpr hc)]
    exact ih
  | @short c cs hc _ ih =>
    obtain ⟨e, he, -⟩ := shortEscape_of_mem hc
    exact (skipStringChars_short he (cs ++ more)).trans ih
  | @hex a b c d cs hdigits _ ih => exact (skipStringChars_hex hdigits (cs ++ more)).trans ih

/-! ## Numbers -/

theorem skipExponent_digits {sign digits more : List Char} (hsign : sign = [] ∨ sign = ['+'] ∨ sign = ['-'])
    (h : IsDigits digits) (hne : digits ≠ []) (hmore : EndsNumber more) :
    skipExponent (sign ++ (digits ++ more)) = .ok more := by
  have hspan : spanDigits (digits ++ more) = (digits, more) := spanDigits_digits h fun c hc => (hmore c hc).1
  obtain ⟨d, ds, rfl⟩ := List.exists_cons_of_ne_nil hne
  have hd := h d List.mem_cons_self
  rcases hsign with rfl | rfl | rfl
  · unfold skipExponent
    rw [List.nil_append]
    split
    · next heq =>
      rw [(List.cons.inj heq).1] at hd
      cases hd
    · next heq =>
      rw [(List.cons.inj heq).1] at hd
      cases hd
    · simp only [hspan]
  · simp only [skipExponent, List.singleton_append, hspan]
  · simp only [skipExponent, List.singleton_append, hspan]

def skipAfterInteger : List Char → Except Fault (List Char)
  | '.' :: rest => skipFraction rest
  | 'e' :: rest | 'E' :: rest => skipExponent rest
  | rest => .ok rest

theorem skipMagnitude_eq {text digits rest : List Char} (hspan : spanDigits text = (digits, rest)) (hne : digits ≠ [])
    (hzero : ∀ d ds, digits ≠ '0' :: d :: ds) : skipMagnitude text = skipAfterInteger rest := by
  unfold skipMagnitude skipAfterInteger
  rw [hspan]
  split
  · next heq => exact absurd (Prod.mk.inj heq).1 hne
  · next heq => exact absurd (Prod.mk.inj heq).1 (hzero _ _)
  · next heq =>
    cases heq
    rfl
  · next heq =>
    cases heq
    rfl
  · next heq =>
    cases heq
    rfl
  · next hpoint he hE heq =>
    cases heq
    split
    · exact absurd rfl (hpoint _)
    · exact absurd rfl (he _)
    · exact absurd rfl (hE _)
    · rfl

section
variable {exponent more : List Char} (hexponent : IsExponent exponent) (hmore : EndsNumber more)
include hexponent hmore

theorem skipFraction_digits {digits : List Char} (h : IsDigits digits) (hne : digits ≠ []) :
    skipFraction (digits ++ (exponent ++ more)) = .ok more := by
  have hspan := spanDigits_digits h fun c hc => (head_of_exponent hexponent hmore c hc).1
  obtain ⟨d, ds, rfl⟩ := List.exists_cons_of_ne_nil hne
  unfold skipFraction
  rw [hspan]
  cases hexponent with
  | digits he hsign hdigits hne' =>
    rw [List.cons_append, List.append_assoc]
    rcases he with rfl | rfl <;> exact skipExponent_digits hsign hdigits hne' hmore
  | none =>
    rw [List.nil_append]
    split
    · next heq => cases heq
    · next heq => exact absurd rfl (hmore 'e' (by rw [(Prod.mk.inj heq).2]; rfl)).2.2.1
    · next heq => exact absurd rfl (hmore 'E' (by rw [(Prod.mk.inj heq).2]; rfl)).2.2.2
    · next heq =>
      cases heq
      rfl

theorem skipMagnitude_parts {whole fraction : List Char} (hwhole : IsInteger whole) (hfraction : IsFraction fraction) :
    skipMagnitude (whole ++ (fraction ++ (exponent ++ more))) = .ok more := by
  have hhead := head_of_fraction hfraction fun c hc => (head_of_exponent hexponent hmore c hc).1
  obtain ⟨hdigits, hne, hzero⟩ := digits_of_integer hwhole
  rw [skipMagnitude_eq (spanDigits_digits hdigits hhead) hne hzero]
  cases hfraction with
  | digits h hne => exact skipFraction_digits hexponent hmore h hne
  | none =>
    cases hexponent with
    | digits he hsign h hne =>
      rw [List.nil_append, List.cons_append, List.append_assoc]
      rcases he with rfl | rfl <;> exact skipExponent_digits hsign h hne hmore
    | none =>
      rw [List.nil_append, List.nil_append]
      unfold skipAfterInteger
      split
      · exact absurd rfl (hmore '.' rfl).2.1
      · exact absurd rfl (hmore 'e' rfl).2.2.1
      · exact absurd rfl (hmore 'E' rfl).2.2.2
      · rfl

end

theorem skipMagnitude_of_grammar {chars more : List Char} (h : IsMagnitude chars) (hmore : EndsNumber more) :
    skipMagnitude (chars ++ more) = .ok more := by
  cases h with
  | parts hwhole hfraction hexponent =>
    rw [List.append_assoc, List.append_assoc]
    exact skipMagnitude_parts hexponent hmore hwhole hfraction

theorem skipStart_number {chars text more : List Char} (h : IsNumber chars)
    (hmore : EndsNumber more) (htext : skipBlanks text = chars ++ more) : skipStart text = .ok (none, more) := by
  unfold skipStart
  rw [htext]
  cases h with
  | negative h =>
    rw [List.cons_append]
    simp only [skipMagnitude_of_grammar h hmore]
    rfl
  | plain h =>
    have hskip := skipMagnitude_of_grammar h hmore
    obtain ⟨c, cs, rfl, hdigit⟩ := head_of_isMagnitude h
    rw [List.cons_append] at hskip ⊢
    -- No word, sign, quote or bracket is a digit, so only the last case is left.
    split
    all_goals next heq =>
      first
        | cases heq; done
        | cases heq; cases hdigit
        | cases heq; rw [if_pos hdigit, hskip]; rfl

/-! ## Containers -/

def skipOpen (fuel : Nat) : List Open × List Char → Except Fault (List Char)
  | ([], rest) => .ok rest
  | (.list :: os, rest) => skipValues fuel (.list :: os) rest
  | (.object :: os, rest) => (skipKey rest).bind (skipValues fuel (.object :: os))

theorem skipValues_succ (fuel : Nat) (os : List Open) (text : List Char) :
    skipValues (fuel + 1) os text =
      (skipStart text).bind fun (opened, rest) =>
        (match opened with
          | some o => skipClosers false (o :: os) rest
          | none => skipClosers true os rest).bind (skipOpen fuel) := by
  rw [skipValues]
  rfl

theorem skipClosers_close {after : Bool} {o : Open} {text more : List Char} (h : skipBlanks text = o.closer :: more)
    (os : List Open) : skipClosers after (o :: os) text = skipClosers true os more := by
  have hcomma : ¬(after = true ∧ o.closer = ',') := fun hand => by cases o <;> cases hand.2
  rw [skipClosers, h]
  simp only [if_neg hcomma, if_true]

theorem skipClosers_comma {o : Open} {text more : List Char} (h : skipBlanks text = ',' :: more) (os : List Open) :
    skipClosers true (o :: os) text = .ok (o :: os, more) := by
  rw [skipClosers, h]
  simp only [and_self, if_true]

theorem skipClosers_start (o : Open) {text more : List Char} {c : Char} (h : skipBlanks text = c :: more)
    (hc : c ≠ o.closer) (os : List Open) : skipClosers false (o :: os) text = .ok (o :: os, c :: more) := by
  rw [skipClosers, h]
  simp [hc]

theorem skipKey_of_spells {key before text more : List Char} {name : Option String}
    (hkey : SpellsText key name) (hbefore : skipBlanks before = [])
    (htext : skipBlanks text = '"' :: (key ++ (before ++ ':' :: more))) : skipKey text = .ok more := by
  have hcolon : skipBlanks (before ++ ':' :: more) = ':' :: more := skipBlanks_append hbefore rfl more
  unfold skipKey
  rw [htext]
  simp only [skipString_tail hkey.tail (before ++ ':' :: more), Except.bind, hcolon]

/-- A text is skipped as a value in some rounds, of which each takes a character, whatever is open around it. -/
def Skips (chars : List Char) : Prop :=
  ∃ rounds, rounds ≤ chars.length ∧
    ∀ {fuel : Nat} {os : List Open} {text more : List Char}, EndsNumber more → skipBlanks text = chars ++ more →
      skipValues (rounds + fuel) os text = (skipClosers true os more).bind (skipOpen fuel)

theorem skips_scalar {chars : List Char} (hne : chars ≠ [])
    (h : ∀ {text more}, EndsNumber more → skipBlanks text = chars ++ more → skipStart text = .ok (none, more)) :
    Skips chars := by
  refine ⟨1, List.length_pos_iff.mpr hne, fun hmore htext => ?_⟩
  rw [Nat.add_comm, skipValues_succ, h hmore htext]
  rfl

def SkipsRest (o : Open) (first : Bool) (chars : List Char) : Prop :=
  ∃ rounds, rounds ≤ chars.length ∧
    ∀ {fuel : Nat} {os : List Open} {text more : List Char}, skipBlanks text = skipBlanks (chars ++ more) →
      (skipClosers (!first) (o :: os) text).bind (skipOpen (rounds + fuel)) =
        (skipClosers true os more).bind (skipOpen fuel)

theorem skipsRest_close (o : Open) (first : Bool) {blanks : List Char} (hblanks : skipBlanks blanks = []) :
    SkipsRest o first (blanks ++ [o.closer]) := by
  refine ⟨0, Nat.zero_le _, fun {fuel os text more} htext => ?_⟩
  have hcloser : skipBlanks text = o.closer :: more := by
    rw [htext, List.append_assoc]
    exact skipBlanks_append hblanks (by cases o <;> rfl) more
  rw [skipClosers_close hcloser, Nat.zero_add]

/-- Behind blanks and the separator, the next element of a container begins. -/
theorem skipClosers_separator {o : Open} {first : Bool} {blanks gap text more : List Char} {c : Char}
    (hblanks : skipBlanks blanks = []) (hgap : skipBlanks gap = []) (hc : isBlank c = false) (hcloser : c ≠ o.closer)
    (htext : skipBlanks text = skipBlanks (blanks ++ (separator first ++ (gap ++ c :: more)))) (os : List Open) :
    ∃ rest, skipClosers (!first) (o :: os) text = .ok (o :: os, rest) ∧ skipBlanks rest = c :: more := by
  rw [skipBlanks_blanks hblanks] at htext
  cases first with
  | true =>
    have hstart : skipBlanks text = c :: more := by
      rw [htext, separator, if_pos rfl, List.nil_append, skipBlanks_append hgap hc]
    exact ⟨c :: more, skipClosers_start o hstart hcloser os, skipBlanks_cons hc more⟩
  | false =>
    have hcomma : skipBlanks text = ',' :: (gap ++ c :: more) := htext
    exact ⟨gap ++ c :: more, skipClosers_comma hcomma os, skipBlanks_append hgap hc more⟩

theorem skipItems_of_spells {first : Bool} {chars : List Char} {vs : List Tree} (h : SpellsItems Spells first chars vs)
    {bound : Nat} (hvalue : ∀ {chars v}, chars.length ≤ bound → Spells chars v → Skips chars)
    (hbound : chars.length ≤ bound) : SkipsRest .list first chars := by
  induction h with
  | @close first blanks hblanks => exact skipsRest_close .list first hblanks
  | @item first blanks gap chars rest v vs hblanks hgap hv hrest ih =>
    simp only [List.length_append] at hbound
    obtain ⟨rounds, hle, hskip⟩ := hvalue (by omega) hv
    obtain ⟨rounds', hle', hskip'⟩ := ih (by omega)
    refine ⟨rounds + rounds', by simp only [List.length_append]; omega, fun {fuel os text more} htext => ?_⟩
    obtain ⟨c, cs, rfl, hc, hcloser, -⟩ := hv.start
    simp only [List.append_assoc, List.cons_append] at htext
    obtain ⟨text, hstep, htext⟩ := skipClosers_separator (o := .list) hblanks hgap hc hcloser htext os
    rw [hstep, Nat.add_assoc]
    show skipValues (rounds + (rounds' + fuel)) (.list :: os) text = _
    rw [hskip (hrest.endsNumber more) htext]
    exact hskip' rfl

theorem skipMembers_of_spells {first : Bool} {chars : List Char} {ms : List (Option String × Tree)}
    (h : SpellsMembers Spells first chars ms) {bound : Nat}
    (hvalue : ∀ {chars v}, chars.length ≤ bound → Spells chars v → Skips chars) (hbound : chars.length ≤ bound) :
    SkipsRest .object first chars := by
  induction h with
  | @close first blanks hblanks => exact skipsRest_close .object first hblanks
  | @member first blanks gap key before after chars rest name v ms hblanks hgap hkey hbefore hafter hv hrest ih =>
    simp only [List.length_append, List.length_cons] at hbound
    obtain ⟨rounds, hle, hskip⟩ := hvalue (by omega) hv
    obtain ⟨rounds', hle', hskip'⟩ := ih (by omega)
    refine ⟨rounds + rounds', by simp only [List.length_append, List.length_cons]; omega,
      fun {fuel os text more} htext => ?_⟩
    simp only [List.append_assoc, List.cons_append] at htext
    obtain ⟨text, hstep, htext⟩ := skipClosers_separator (o := .object) hblanks hgap rfl (by decide) htext os
    rw [hstep, Nat.add_assoc]
    show (skipKey text).bind (skipValues (rounds + (rounds' + fuel)) (.object :: os)) = _
    rw [skipKey_of_spells hkey hbefore htext]
    show skipValues _ _ (after ++ (chars ++ (rest ++ more))) = _
    rw [hskip (hrest.endsNumber more) (hv.skipBlanks_behind hafter _)]
    exact hskip' rfl

theorem skips_container {o : Open} {opener : Char} {chars : List Char}
    (hopener : ∀ {text more}, skipBlanks text = opener :: more → skipStart text = .ok (some o, more))
    (h : SkipsRest o true chars) : Skips (opener :: chars) := by
  obtain ⟨rounds, hle, hskip⟩ := h
  refine ⟨rounds + 1, Nat.succ_le_succ hle, fun {fuel os text more} _ htext => ?_⟩
  rw [Nat.add_right_comm, skipValues_succ, hopener htext]
  exact hskip rfl

theorem skips_of_spells {chars : List Char} {v : Tree} (h : Spells chars v) : Skips chars := by
  induction hlength : chars.length using Nat.strongRecOn generalizing chars v with
  | _ length ih =>
    have hvalue {bound : Nat} (hbound : bound < length) {chars : List Char} {v : Tree} (hle : chars.length ≤ bound)
        (h : Spells chars v) : Skips chars := ih chars.length (by omega) h rfl
    cases h with
    | null => exact skips_scalar (List.cons_ne_nil _ _) fun _ htext => by rw [skipStart, htext]; rfl
    | boolean b =>
      cases b
      · exact skips_scalar (List.cons_ne_nil _ _) fun _ htext => by rw [skipStart, htext]; rfl
      · exact skips_scalar (List.cons_ne_nil _ _) fun _ htext => by rw [skipStart, htext]; rfl
    | number h =>
      obtain ⟨c, cs, rfl, -⟩ := head_of_isNumber h.number
      exact skips_scalar (List.cons_ne_nil _ _) (skipStart_number h.number)
    | text h =>
      refine skips_scalar (List.cons_ne_nil _ _) fun {text more} _ htext => ?_
      rw [skipStart, htext]
      show (skipStringChars 0 (_ ++ more)).map _ = _
      rw [skipString_tail h.tail]
      rfl
    | @array chars items h =>
      refine skips_container (fun htext => by rw [skipStart, htext]; rfl)
        (skipItems_of_spells h (hvalue ?_) (Nat.le_refl _))
      rw [← hlength, List.length_cons]
      omega
    | @object chars members h =>
      refine skips_container (fun htext => by rw [skipStart, htext]; rfl)
        (skipMembers_of_spells h (hvalue ?_) (Nat.le_refl _))
      rw [← hlength, List.length_cons]
      omega

/-- Skipping passes a spelled value and nothing else. -/
theorem skipValue_of_spells {chars text more : List Char} {v : Tree} (h : Spells chars v) (hmore : EndsNumber more)
    (htext : skipBlanks text = chars ++ more) : skipValue text = .ok more := by
  obtain ⟨rounds, hle, hskip⟩ := skips_of_spells h
  have hlength : chars.length ≤ text.length := by
    have hsuffix : (skipBlanks text).length ≤ text.length := (List.dropWhile_suffix isBlank).length_le
    rw [htext, List.length_append] at hsuffix
    omega
  have hfuel : text.length + 1 = rounds + (text.length + 1 - rounds) := by omega
  unfold skipValue
  rw [hfuel, hskip hmore htext]
  rfl

end PresetWorkspace.Document
