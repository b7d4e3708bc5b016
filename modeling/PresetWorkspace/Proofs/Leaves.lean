import Mathlib.Data.List.TakeDrop
import PresetWorkspace.Document.Reader
import PresetWorkspace.Proofs.JsonText

/-!
# Leaves

A string or a number of the grammar is read to its end, whatever follows, and
what comes of it does not depend on what follows. It need not be a value: half
a pair of surrogates stands for no character, and a number may be too great.
Such a leaf is a fault of form, which `none` stands for.
-/

namespace PresetWorkspace.Document

open JsonText

def Fault.cause : Fault → Cause
  | .placed cause _ => cause
  | .pending cause _ => cause

/-- What comes of reading up to `more`: a value, or else a fault of form. -/
def Outcome {α : Type} (v : Option α) (more : List Char) : Reading α → Prop
  | .ok (x, rest) => v = some x ∧ rest = more
  | .error fault => v = none ∧ fault.cause.class = .syntactic

theorem Outcome.map {α β : Type} {v : Option α} {more : List Char} {reading : Reading α} (h : Outcome v more reading)
    (f : α → β) : Outcome (v.map f) more (reading.map fun (x, rest) => (f x, rest)) := by
  cases reading with
  | error fault => exact ⟨by rw [h.1]; rfl, h.2⟩
  | ok r => exact ⟨by rw [h.1]; rfl, h.2⟩

theorem Outcome.eq_ok {α : Type} {v : α} {more : List Char} {reading : Reading α} (h : Outcome (some v) more reading) :
    reading = .ok (v, more) := by
  cases reading with
  | error fault => cases h.1
  | ok r =>
    obtain ⟨hv, rfl⟩ := h
    cases hv
    rfl

theorem Outcome.eq_error {α : Type} {more : List Char} {reading : Reading α} (h : Outcome none more reading) :
    ∃ fault, reading = .error fault ∧ fault.cause.class = .syntactic := by
  cases reading with
  | error fault => exact ⟨fault, rfl, h.2⟩
  | ok r => cases h.1

/-! ## Strings -/

theorem readHex_digits {a b c d : Char} (h : ∀ x ∈ [a, b, c, d], JsonText.isHexDigit x = true) (rest : List Char) :
    readHex (a :: b :: c :: d :: rest) =
      .ok ([a, b, c, d].foldl (fun n x => 16 * n + readHex.hexValue x) 0, rest) := by
  unfold readHex
  exact if_pos (List.all_eq_true.mpr h)

theorem readStringChars_skip (skipped rest : List Char) :
    readStringChars skipped.length (skipped ++ rest) = readStringChars 0 rest := by
  induction skipped with
  | nil => rfl
  | cons c skipped ih => exact ih

theorem readStringChars_escape (escape : List Char) {rest : List Char} {c : Char}
    (h : readEscape (escape ++ rest) = .ok (c, rest)) :
    readStringChars 0 ('\\' :: (escape ++ rest)) = (readStringChars 0 rest).map fun (cs, r) => (c :: cs, r) := by
  rw [readStringChars, if_neg (by decide), if_pos rfl, h]
  simp only [List.length_append, Nat.add_sub_cancel]
  rw [readStringChars_skip]

/-- Below the blank, the two last digits of an escape tell the character. -/
theorem hexDigits_of_control : ∀ n < 0x20,
    (['0', '0', Nat.digitChar (n / 16), Nat.digitChar (n % 16)].all JsonText.isHexDigit = true) ∧
      (['0', '0', Nat.digitChar (n / 16), Nat.digitChar (n % 16)].foldl
        (fun m x => 16 * m + readHex.hexValue x) 0) = n := by
  decide

theorem readEscape_control {c : Char} (h : c.toNat < 0x20) (rest : List Char) :
    readEscape (['u', '0', '0', Nat.digitChar (c.toNat / 16), Nat.digitChar (c.toNat % 16)] ++ rest) =
      .ok (c, rest) := by
  obtain ⟨hdigits, hvalue⟩ := hexDigits_of_control c.toNat h
  have hhex := readHex_digits (List.all_eq_true.mp hdigits) rest
  rw [hvalue] at hhex
  simp only [List.cons_append, List.nil_append, readEscape]
  rw [hhex]
  simp only [Except.bind]
  rw [if_neg (by omega), if_neg (by omega), Char.ofNat_toNat]

theorem readStringChars_char (c : Char) (rest : List Char) :
    readStringChars 0 (Json.escaped c ++ rest) = (readStringChars 0 rest).map fun (cs, r) => (c :: cs, r) := by
  unfold Json.escaped
  split
  · subst_vars
    exact readStringChars_escape ['"'] rfl
  split
  · subst_vars
    exact readStringChars_escape ['\\'] rfl
  split
  · subst_vars
    exact readStringChars_escape ['b'] rfl
  split
  · subst_vars
    exact readStringChars_escape ['f'] rfl
  split
  · subst_vars
    exact readStringChars_escape ['n'] rfl
  split
  · subst_vars
    exact readStringChars_escape ['r'] rfl
  split
  · subst_vars
    exact readStringChars_escape ['t'] rfl
  split
  · rename_i h
    exact readStringChars_escape _ (readEscape_control h rest)
  · rename_i hquote hslash _ _ _ _ _ hcontrol
    rw [List.singleton_append, readStringChars, if_neg hquote, if_neg hslash, if_neg hcontrol]

theorem readString_print (s : String) (rest : List Char) :
    readString (s.toList.flatMap Json.escaped ++ '"' :: rest) = .ok (s, rest) := by
  have hchars : readStringChars 0 (s.toList.flatMap Json.escaped ++ '"' :: rest) = .ok (s.toList, rest) := by
    induction s.toList with
    | nil => rfl
    | cons c cs ih =>
      rw [List.flatMap_cons, List.append_assoc, readStringChars_char, ih]
      rfl
  unfold readString
  rw [hchars]
  simp only [Except.map, String.ofList_toList]

/-- The rest of a string behind its first quote, and the string that it reads as if it is one. -/
structure SpellsText (chars : List Char) (s : Option String) : Prop where
  tail : IsTail chars
  reads : ∀ more, Outcome s more (readString (chars ++ more))

theorem shortEscape_of_mem {c : Char} (h : c ∈ ['"', '\\', '/', 'b', 'f', 'n', 'r', 't']) :
    ∃ e, shortEscape? c = some e ∧ c ≠ 'u' := by
  simp only [List.mem_cons, List.not_mem_nil, or_false] at h
  rcases h with rfl | rfl | rfl | rfl | rfl | rfl | rfl | rfl <;> exact ⟨_, rfl, by decide⟩

/-- An escape of the grammar is a character, or it is a fault of form: it is half a pair of surrogates. -/
def EscapeReads (read : List Char → Reading Char) (chars : List Char) : Prop :=
  (∃ c escape rest, chars = escape ++ rest ∧ IsTail rest ∧ ∀ more, read (chars ++ more) = .ok (c, rest ++ more)) ∨
    ∀ more, ∃ fault, read (chars ++ more) = .error fault ∧ fault.cause.class = .syntactic

theorem lowSurrogate_reads (high : Nat) {chars : List Char} (h : IsTail chars) :
    EscapeReads (readLowSurrogate high) chars := by
  cases h with
  | close => exact .inr fun more => ⟨_, rfl, rfl⟩
  | @plain c cs hc hquote hslash h =>
    refine .inr fun more => ?_
    rw [List.cons_append]
    unfold readLowSurrogate
    split
    · next heq => cases heq
    · next heq => exact absurd (List.cons.inj heq).1 hslash
    · next heq => exact absurd (List.cons.inj heq).1 hslash
    · next heq => exact absurd (List.cons.inj heq).1 hslash
    · exact ⟨_, rfl, rfl⟩
  | @short c cs hc h =>
    refine .inr fun more => ?_
    rw [List.cons_append, List.cons_append]
    unfold readLowSurrogate
    split
    · next heq => cases heq
    · next heq => cases heq
    · next heq =>
      cases heq
      exact absurd hc (by decide)
    · exact ⟨_, rfl, rfl⟩
    · exact ⟨_, rfl, rfl⟩
  | @hex a b c d cs hdigits h =>
    have hhex (more : List Char) := readHex_digits hdigits (cs ++ more)
    generalize [a, b, c, d].foldl (fun n x => 16 * n + readHex.hexValue x) 0 = low at hhex
    by_cases hlow : 0xDC00 ≤ low ∧ low ≤ 0xDFFF
    · refine .inl ⟨Char.ofNat ((high - 0xD800) * 0x400 + (low - 0xDC00) + 0x10000), ['\\', 'u', a, b, c, d], cs, rfl, h,
        fun more => ?_⟩
      simp only [List.cons_append, readLowSurrogate, hhex, Except.bind, if_pos hlow]
    · refine .inr fun more => ?_
      simp only [List.cons_append, readLowSurrogate, hhex, Except.bind, if_neg hlow]
      exact ⟨_, rfl, rfl⟩

theorem escape_reads {chars : List Char} (h : IsTail ('\\' :: chars)) : EscapeReads readEscape chars := by
  cases h with
  | plain _ _ hslash => exact absurd rfl hslash
  | @short c cs hc h =>
    obtain ⟨e, he, hu⟩ := shortEscape_of_mem hc
    refine .inl ⟨e, [c], cs, rfl, h, fun more => ?_⟩
    rw [List.cons_append]
    unfold readEscape
    split
    · next heq => cases heq
    · next heq => exact absurd (List.cons.inj heq).1 hu
    · next heq =>
      cases heq
      rw [he]
  | @hex a b c d cs hdigits h =>
    have hhex (more : List Char) := readHex_digits hdigits (cs ++ more)
    generalize [a, b, c, d].foldl (fun n x => 16 * n + readHex.hexValue x) 0 = n at hhex
    unfold EscapeReads
    simp only [List.cons_append, readEscape, hhex, Except.bind]
    by_cases hlow : 0xDC00 ≤ n ∧ n ≤ 0xDFFF
    · simp only [if_pos hlow]
      exact .inr fun more => ⟨_, rfl, rfl⟩
    simp only [if_neg hlow]
    by_cases hhigh : 0xD800 ≤ n ∧ n ≤ 0xDBFF
    · simp only [if_pos hhigh]
      rcases lowSurrogate_reads n h with ⟨e, escape, rest, rfl, hrest, hread⟩ | hfault
      · exact .inl ⟨e, 'u' :: a :: b :: c :: d :: escape, rest, rfl, hrest, hread⟩
      · exact .inr hfault
    · simp only [if_neg hhigh]
      exact .inl ⟨_, ['u', a, b, c, d], cs, rfl, h, fun more => rfl⟩

theorem readStringChars_tail {chars : List Char} (h : IsTail chars) :
    ∃ cs, ∀ more, Outcome cs more (readStringChars 0 (chars ++ more)) := by
  induction hlength : chars.length using Nat.strongRecOn generalizing chars with
  | _ length ih =>
    -- An escape may be followed by the second half of a pair, so the rest is not that of the grammar's rule.
    have hescape {chars : List Char} (hshorter : chars.length < length) (h : IsTail ('\\' :: chars)) :
        ∃ cs, ∀ more, Outcome cs more (readStringChars 0 ('\\' :: chars ++ more)) := by
      rcases escape_reads h with ⟨c, escape, rest, rfl, hrest, hread⟩ | hfault
      · rw [List.length_append] at hshorter
        obtain ⟨cs, hcs⟩ := ih rest.length (by omega) hrest rfl
        refine ⟨cs.map (c :: ·), fun more => ?_⟩
        have hread := hread more
        rw [List.append_assoc] at hread
        rw [List.cons_append, List.append_assoc, readStringChars_escape escape hread]
        exact (hcs more).map (c :: ·)
      · refine ⟨none, fun more => ?_⟩
        obtain ⟨fault, hfault, hclass⟩ := hfault more
        rw [List.cons_append, readStringChars, if_neg (by decide), if_pos rfl, hfault]
        exact ⟨rfl, hclass⟩
    cases h with
    | close => exact ⟨some [], fun more => ⟨rfl, rfl⟩⟩
    | @plain c cs hc hquote hslash h =>
      obtain ⟨s, hs⟩ := ih cs.length (by rw [← hlength]; exact Nat.lt_succ_self _) h rfl
      refine ⟨s.map (c :: ·), fun more => ?_⟩
      rw [List.cons_append, readStringChars, if_neg hquote, if_neg hslash, if_neg (Nat.not_lt.mpr hc)]
      exact (hs more).map (c :: ·)
    | short hc h => exact hescape (by rw [← hlength]; exact Nat.lt_succ_self _) (.short hc h)
    | hex hdigits h => exact hescape (by rw [← hlength]; exact Nat.lt_succ_self _) (.hex hdigits h)

theorem exists_spellsText {chars : List Char} (h : IsTail chars) : ∃ s, SpellsText chars s := by
  obtain ⟨cs, hcs⟩ := readStringChars_tail h
  exact ⟨cs.map String.ofList, h, fun more => (hcs more).map String.ofList⟩

/-! ## Numbers -/

def EndsNumber (text : List Char) : Prop := ∀ c ∈ text.head?, c.isDigit = false ∧ c ≠ '.' ∧ c ≠ 'e' ∧ c ≠ 'E'

theorem spanDigits_digits {digits rest : List Char} (h : ∀ c ∈ digits, c.isDigit = true)
    (hrest : ∀ c ∈ rest.head?, c.isDigit = false) : spanDigits (digits ++ rest) = (digits, rest) := by
  unfold spanDigits
  rw [List.span_eq_takeWhile_dropWhile, List.takeWhile_append_of_pos h, List.dropWhile_append_of_pos h]
  cases rest with
  | nil => rw [List.takeWhile_nil, List.append_nil, List.dropWhile_nil]
  | cons c rest =>
    have hc := hrest c rfl
    rw [List.takeWhile_cons_of_neg (by simp [hc]), List.dropWhile_cons_of_neg (by simp [hc]), List.append_nil]

theorem readExponent_plain {negative : Bool} {significand : Nat} {exponent : Int} {c : Char} (hplus : c ≠ '+')
    (hminus : c ≠ '-') (text : List Char) :
    readExponent negative significand exponent (c :: text) =
      readExponentDigits negative significand exponent false (c :: text) := by
  unfold readExponent
  split <;> simp_all

theorem readAfterDigits_plain {negative : Bool} {significand : Nat} {exponent : Int} {text : List Char}
    (h : ∀ c ∈ text.head?, c ≠ 'e' ∧ c ≠ 'E') :
    readAfterDigits negative significand exponent text = readScaled negative significand exponent text := by
  unfold readAfterDigits
  split
  · exact absurd rfl (h 'e' rfl).1
  · exact absurd rfl (h 'E' rfl).2
  · rfl

theorem readAfterInteger_plain {negative : Bool} {significand dropped : Nat} {text : List Char}
    (h : ∀ c ∈ text.head?, c ≠ '.' ∧ c ≠ 'e' ∧ c ≠ 'E') :
    readAfterInteger negative significand dropped text =
      if dropped = 0 then .ok (integerNumber negative significand, text)
      else readScaled negative significand dropped text := by
  unfold readAfterInteger
  split
  · exact absurd rfl (h '.' rfl).1
  · exact absurd rfl (h 'e' rfl).2.1
  · exact absurd rfl (h 'E' rfl).2.2
  · rfl

theorem readMagnitude_eq {negative : Bool} {text : List Char} (hne : (spanDigits text).1 ≠ [])
    (hzero : ∀ d ds, (spanDigits text).1 ≠ '0' :: d :: ds) :
    readMagnitude negative text =
      readAfterInteger negative (gather significandLimit 0 (spanDigits text).1).1
        (gather significandLimit 0 (spanDigits text).1).2.length (spanDigits text).2 := by
  unfold readMagnitude
  split
  · rename_i hspan
    rw [hspan] at hne
    exact absurd rfl hne
  · rename_i hspan
    rw [hspan] at hne
    exact absurd rfl hne
  · rename_i hspan
    rw [hspan] at hzero
    exact absurd rfl (hzero _ _)
  · rename_i hspan
    rw [hspan]

theorem readNumber_cons {c : Char} (h : c ≠ '-') (text : List Char) :
    readNumber (c :: text) = readMagnitude false (c :: text) := by
  unfold readNumber
  split <;> simp_all

structure SpellsNumber (chars : List Char) (n : Option Json.Number) : Prop where
  number : IsNumber chars
  reads : ∀ more, EndsNumber more → Outcome n more (readNumber (chars ++ more))

def NumberReads (read : List Char → Reading Json.Number) (chars : List Char) : Prop :=
  ∃ n, ∀ more, EndsNumber more → Outcome n more (read (chars ++ more))

theorem head_of_exponent {chars more : List Char} (h : IsExponent chars) (hmore : EndsNumber more) :
    ∀ c ∈ (chars ++ more).head?, c.isDigit = false ∧ c ≠ '.' := by
  intro c hc
  cases h with
  | none =>
    obtain ⟨hdigit, hpoint, -⟩ := hmore c hc
    exact ⟨hdigit, hpoint⟩
  | digits he =>
    cases hc
    rcases he with rfl | rfl <;> decide

theorem head_of_fraction {chars more : List Char} (h : IsFraction chars)
    (hmore : ∀ c ∈ more.head?, c.isDigit = false) : ∀ c ∈ (chars ++ more).head?, c.isDigit = false := by
  intro c hc
  cases h with
  | none => exact hmore c hc
  | digits =>
    cases hc
    rfl

section
variable (negative : Bool) (significand : Nat) (exponent : Int)

theorem scaled_reads : ∃ n, ∀ more, Outcome n more (readScaled negative significand exponent more) := by
  unfold readScaled
  cases scaled significand exponent with
  | none => exact ⟨none, fun more => ⟨rfl, rfl⟩⟩
  | some x => exact ⟨some _, fun more => ⟨rfl, rfl⟩⟩

theorem exponentDigits_reads (down : Bool) {digits : List Char} (h : IsDigits digits) (hne : digits ≠ []) :
    NumberReads (readExponentDigits negative significand exponent down) digits := by
  have hspan {more : List Char} (hmore : EndsNumber more) := spanDigits_digits h fun c hc => (hmore c hc).1
  unfold NumberReads readExponentDigits
  cases digits with
  | nil => exact absurd rfl hne
  | cons d ds =>
    cases hgather : gather exponentLimit 0 (d :: ds) with
    | mk kept left =>
      cases left with
      | nil =>
        obtain ⟨n, hn⟩ := scaled_reads negative significand (if down then exponent - kept else exponent + kept)
        refine ⟨n, fun more hmore => ?_⟩
        simp only [hspan hmore, hgather]
        exact hn more
      | cons l left =>
        by_cases hhuge : significand ≠ 0 ∧ ¬down = true
        · refine ⟨none, fun more hmore => ?_⟩
          simp only [hspan hmore, hgather, if_pos hhuge]
          exact ⟨rfl, rfl⟩
        · refine ⟨some (.ratio (if negative then Binary64.zero.negate else .zero)), fun more hmore => ?_⟩
          simp only [hspan hmore, hgather, if_neg hhuge]
          exact ⟨rfl, rfl⟩

theorem exponent_reads {sign digits : List Char} (hsign : sign = [] ∨ sign = ['+'] ∨ sign = ['-'])
    (h : IsDigits digits) (hne : digits ≠ []) :
    NumberReads (readExponent negative significand exponent) (sign ++ digits) := by
  rcases hsign with rfl | rfl | rfl
  · obtain ⟨n, hn⟩ := exponentDigits_reads negative significand exponent false h hne
    refine ⟨n, fun more hmore => ?_⟩
    cases digits with
    | nil => exact absurd rfl hne
    | cons d ds =>
      have hd := h d List.mem_cons_self
      rw [List.nil_append, List.cons_append,
        readExponent_plain (by rintro rfl; cases hd) (by rintro rfl; cases hd)]
      exact hn more hmore
  · exact exponentDigits_reads negative significand exponent false h hne
  · exact exponentDigits_reads negative significand exponent true h hne

theorem afterDigits_reads {chars : List Char} (h : IsExponent chars) :
    NumberReads (readAfterDigits negative significand exponent) chars := by
  cases h with
  | none =>
    obtain ⟨n, hn⟩ := scaled_reads negative significand exponent
    refine ⟨n, fun more hmore => ?_⟩
    rw [List.nil_append, readAfterDigits_plain fun c hc => (hmore c hc).2.2]
    exact hn more
  | digits he hsign h hne =>
    rcases he with rfl | rfl <;> exact exponent_reads negative significand exponent hsign h hne

theorem fraction_reads {digits chars : List Char} (hdigits : IsDigits digits) (hne : digits ≠ [])
    (h : IsExponent chars) : NumberReads (readFraction negative significand exponent) (digits ++ chars) := by
  have hspan {more : List Char} (hmore : EndsNumber more) :=
    spanDigits_digits hdigits fun c hc => (head_of_exponent h hmore c hc).1
  unfold NumberReads readFraction
  cases digits with
  | nil => exact absurd rfl hne
  | cons d ds =>
    obtain ⟨n, hn⟩ := afterDigits_reads negative (gather significandLimit significand (d :: ds)).1
      (exponent - ((d :: ds).length - (gather significandLimit significand (d :: ds)).2.length)) h
    refine ⟨n, fun more hmore => ?_⟩
    rw [List.append_assoc, hspan hmore]
    exact hn more hmore

end

theorem afterInteger_reads (negative : Bool) (significand dropped : Nat) {fraction chars : List Char}
    (hfraction : IsFraction fraction) (h : IsExponent chars) :
    NumberReads (readAfterInteger negative significand dropped) (fraction ++ chars) := by
  cases hfraction with
  | digits hdigits hne => exact fraction_reads negative significand dropped hdigits hne h
  | none =>
    cases h with
    | digits he hsign h hne =>
      rcases he with rfl | rfl <;> exact exponent_reads negative significand dropped hsign h hne
    | none =>
      have hplain {more : List Char} (hmore : EndsNumber more) :
          readAfterInteger negative significand dropped more = if dropped = 0 then _ else _ :=
        readAfterInteger_plain fun c hc => (hmore c hc).2
      by_cases hdropped : dropped = 0
      · refine ⟨some (integerNumber negative significand), fun more hmore => ?_⟩
        rw [List.append_nil, List.nil_append, hplain hmore, if_pos hdropped]
        exact ⟨rfl, rfl⟩
      · obtain ⟨n, hn⟩ := scaled_reads negative significand dropped
        refine ⟨n, fun more hmore => ?_⟩
        rw [List.append_nil, List.nil_append, hplain hmore, if_neg hdropped]
        exact hn more

theorem digits_of_integer {chars : List Char} (h : IsInteger chars) :
    IsDigits chars ∧ chars ≠ [] ∧ ∀ d ds, chars ≠ '0' :: d :: ds := by
  cases h with
  | zero => exact ⟨List.forall_mem_singleton.mpr rfl, List.cons_ne_nil _ _, fun d ds h => by cases h⟩
  | digits h hc => exact ⟨h, List.cons_ne_nil _ _, fun d ds heq => hc (List.cons.inj heq).1⟩

theorem magnitude_reads (negative : Bool) {chars : List Char} (h : IsMagnitude chars) :
    NumberReads (readMagnitude negative) chars := by
  cases h with
  | @parts whole fraction exponent hwhole hfraction hexponent =>
    obtain ⟨hdigits, hne, hzero⟩ := digits_of_integer hwhole
    obtain ⟨n, hn⟩ := afterInteger_reads negative (gather significandLimit 0 whole).1
      (gather significandLimit 0 whole).2.length hfraction hexponent
    refine ⟨n, fun more hmore => ?_⟩
    have hhead := head_of_fraction hfraction fun c hc => (head_of_exponent hexponent hmore c hc).1
    have hspan := spanDigits_digits hdigits hhead
    rw [List.append_assoc, List.append_assoc,
      readMagnitude_eq (by rw [hspan]; exact hne) (by rw [hspan]; exact hzero), hspan, ← List.append_assoc]
    exact hn more hmore

theorem head_of_isMagnitude {chars : List Char} (h : IsMagnitude chars) :
    ∃ c cs, chars = c :: cs ∧ c.isDigit = true := by
  cases h with
  | parts hwhole =>
    obtain ⟨hdigits, hne, -⟩ := digits_of_integer hwhole
    obtain ⟨c, cs, rfl⟩ := List.exists_cons_of_ne_nil hne
    exact ⟨c, _, rfl, hdigits c List.mem_cons_self⟩

theorem head_of_isNumber {chars : List Char} (h : IsNumber chars) :
    ∃ c cs, chars = c :: cs ∧ (c = '-' || c.isDigit) = true := by
  cases h with
  | negative => exact ⟨_, _, rfl, rfl⟩
  | plain h =>
    obtain ⟨c, cs, rfl, hc⟩ := head_of_isMagnitude h
    exact ⟨c, cs, rfl, by rw [hc, Bool.or_true]⟩

theorem isBlank_of_sign_or_digit {c : Char} (h : (c = '-' || c.isDigit) = true) : isBlank c = false := by
  rw [Bool.or_eq_true, decide_eq_true_eq] at h
  rcases h with rfl | hdigit
  · rfl
  · unfold isBlank
    simp only [Bool.or_eq_false_iff, decide_eq_false_iff_not]
    refine ⟨⟨⟨?_, ?_⟩, ?_⟩, ?_⟩ <;> rintro rfl <;> cases hdigit

theorem exists_spellsNumber {chars : List Char} (h : IsNumber chars) : ∃ n, SpellsNumber chars n := by
  cases h with
  | negative h =>
    obtain ⟨n, hn⟩ := magnitude_reads true h
    exact ⟨n, .negative h, hn⟩
  | plain h =>
    obtain ⟨n, hn⟩ := magnitude_reads false h
    refine ⟨n, .plain h, fun more hmore => ?_⟩
    obtain ⟨c, cs, rfl, hc⟩ := head_of_isMagnitude h
    rw [List.cons_append, readNumber_cons (by rintro rfl; cases hc)]
    exact hn more hmore

theorem SpellsNumber.of_read {chars : List Char} {n : Json.Number} (h : IsNumber chars)
    (hread : readNumber chars = .ok (n, [])) : SpellsNumber chars (some n) := by
  obtain ⟨m, hm⟩ := exists_spellsNumber h
  have hends : EndsNumber [] := fun c hc => by cases hc
  have hn := hm.reads [] hends
  rw [List.append_nil, hread] at hn
  exact hn.1 ▸ hm

end PresetWorkspace.Document
