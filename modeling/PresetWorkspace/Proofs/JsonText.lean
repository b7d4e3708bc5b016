import PresetWorkspace.Document.Lexeme
import PresetWorkspace.Proofs.Shortest

/-!
# JSON texts

The grammar of JSON: numbers, strings, and values with blanks around their
parts. Every pretty text belongs to it (`pretty_isDocument`). The digits of a
number come from `Decimal.Printable`; they start with a zero only where one may
stand.
-/

namespace PresetWorkspace.JsonText

open Document (isBlank)

/-! ## Numbers -/

def IsDigits (cs : List Char) : Prop := ∀ c ∈ cs, c.isDigit = true

/-- A zero, or digits that start with none. -/
inductive IsInteger : List Char → Prop
  | zero : IsInteger ['0']
  | digits {c : Char} {cs : List Char} (h : IsDigits (c :: cs)) (hc : c ≠ '0') : IsInteger (c :: cs)

inductive IsFraction : List Char → Prop
  | none : IsFraction []
  | digits {cs : List Char} (h : IsDigits cs) (hne : cs ≠ []) : IsFraction ('.' :: cs)

inductive IsExponent : List Char → Prop
  | none : IsExponent []
  | digits {e : Char} {sign cs : List Char} (he : e = 'e' ∨ e = 'E') (hsign : sign = [] ∨ sign = ['+'] ∨ sign = ['-'])
    (h : IsDigits cs) (hne : cs ≠ []) : IsExponent (e :: (sign ++ cs))

inductive IsMagnitude : List Char → Prop
  | parts {whole fraction exponent : List Char} (hwhole : IsInteger whole) (hfraction : IsFraction fraction)
    (hexponent : IsExponent exponent) : IsMagnitude (whole ++ (fraction ++ exponent))

inductive IsNumber : List Char → Prop
  | plain {cs : List Char} (h : IsMagnitude cs) : IsNumber cs
  | negative {cs : List Char} (h : IsMagnitude cs) : IsNumber ('-' :: cs)

/-! ## Strings -/

def isHexDigit (c : Char) : Bool := c.isDigit || ('a' ≤ c && c ≤ 'f') || ('A' ≤ c && c ≤ 'F')

/-- The rest of a string behind its first quote. -/
inductive IsTail : List Char → Prop
  | close : IsTail ['"']
  | plain {c : Char} {cs : List Char} (hc : 0x20 ≤ c.toNat) (hquote : c ≠ '"') (hslash : c ≠ '\\') (h : IsTail cs) :
    IsTail (c :: cs)
  | short {c : Char} {cs : List Char} (hc : c ∈ ['"', '\\', '/', 'b', 'f', 'n', 'r', 't']) (h : IsTail cs) :
    IsTail ('\\' :: c :: cs)
  | hex {a b c d : Char} {cs : List Char} (hdigits : ∀ x ∈ [a, b, c, d], isHexDigit x = true) (h : IsTail cs) :
    IsTail ('\\' :: 'u' :: a :: b :: c :: d :: cs)

/-! ## Values -/

def IsBlanks (cs : List Char) : Prop := ∀ c ∈ cs, isBlank c = true

mutual

inductive IsValue : List Char → Prop
  | null : IsValue ['n', 'u', 'l', 'l']
  | boolean (b : Bool) : IsValue (Json.boolean.print b)
  | number {cs : List Char} (h : IsNumber cs) : IsValue cs
  | text {cs : List Char} (h : IsTail cs) : IsValue ('"' :: cs)
  | emptyArray {blanks : List Char} (h : IsBlanks blanks) : IsValue ('[' :: (blanks ++ [']']))
  | array {cs : List Char} (h : IsItems cs) : IsValue ('[' :: (cs ++ [']']))
  | emptyObject {blanks : List Char} (h : IsBlanks blanks) : IsValue ('{' :: (blanks ++ ['}']))
  | object {cs : List Char} (h : IsMembers cs) : IsValue ('{' :: (cs ++ ['}']))

/-- One value with blanks around it. -/
inductive IsDocument : List Char → Prop
  | around {before cs after : List Char} (hbefore : IsBlanks before) (h : IsValue cs) (hafter : IsBlanks after) :
    IsDocument (before ++ (cs ++ after))

inductive IsItems : List Char → Prop
  | last {cs : List Char} (h : IsDocument cs) : IsItems cs
  | item {cs rest : List Char} (h : IsDocument cs) (hrest : IsItems rest) : IsItems (cs ++ ',' :: rest)

inductive IsMembers : List Char → Prop
  | last {before name between cs : List Char} (hbefore : IsBlanks before) (hname : IsTail name)
    (hbetween : IsBlanks between) (h : IsDocument cs) :
    IsMembers (before ++ '"' :: (name ++ (between ++ ':' :: cs)))
  | member {before name between cs rest : List Char} (hbefore : IsBlanks before) (hname : IsTail name)
    (hbetween : IsBlanks between) (h : IsDocument cs) (hrest : IsMembers rest) :
    IsMembers (before ++ '"' :: (name ++ (between ++ ':' :: (cs ++ ',' :: rest))))

end

/-! ## Printed numbers -/

theorem isInteger_of_digits {cs : List Char} (hdigits : IsDigits cs) (hne : cs ≠ [])
    (hhead : cs.head? = some '0' → cs = ['0']) : IsInteger cs := by
  cases cs with
  | nil => exact absurd rfl hne
  | cons c cs =>
    by_cases hc : c = '0'
    · subst hc
      rw [hhead rfl]
      exact .zero
    · exact .digits hdigits hc

theorem isDigits_toDigits (n : Nat) : IsDigits (Nat.toDigits 10 n) := by
  intro c hc
  exact Nat.isDigit_of_mem_toDigits (by decide) (by decide) hc

theorem isInteger_toDigits (n : Nat) : IsInteger (Nat.toDigits 10 n) := by
  apply isInteger_of_digits (isDigits_toDigits n) Nat.toDigits_ne_nil
  intro hhead
  rcases Nat.eq_zero_or_pos n with rfl | hn
  · rfl
  · exact absurd hhead (Decimal.head_toDigits hn)

theorem isDigits_append {cs ds : List Char} (hcs : IsDigits cs) (hds : IsDigits ds) : IsDigits (cs ++ ds) := by
  intro c hc
  rcases List.mem_append.mp hc with h | h
  · exact hcs c h
  · exact hds c h

theorem isDigits_zeros (n : Nat) : IsDigits (List.replicate n '0') := by
  intro c hc
  rw [List.eq_of_mem_replicate hc]
  rfl

section
variable {d : Decimal} (h : d.Printable)
include h

theorem isDigits_take (n : Nat) : IsDigits (d.digits.take n) := fun c hc => h.digits c (List.mem_of_mem_take hc)

theorem isDigits_drop (n : Nat) : IsDigits (d.digits.drop n) := fun c hc => h.digits c (List.mem_of_mem_drop hc)

theorem isMagnitude_positional : IsMagnitude (d.positional ['.', '0']) := by
  have hzero : IsFraction ['.', '0'] := .digits (List.forall_mem_singleton.mpr rfl) (by simp)
  unfold Decimal.positional
  split
  · rename_i k hk
    by_cases hlong : d.digits.length ≤ k
    · rw [if_pos hlong]
      have hwhole : IsInteger (d.digits ++ List.replicate (k - d.digits.length) '0') := by
        apply isInteger_of_digits (isDigits_append h.digits (isDigits_zeros _)) (by simp [h.nonempty])
        intro hhead
        obtain ⟨c, cs, hcs⟩ := List.exists_cons_of_ne_nil h.nonempty
        rw [hcs] at hhead
        obtain ⟨hdigits, hpoint⟩ := h.leading (by rw [hcs]; exact hhead)
        have hone : k = 1 := by
          have : (k : Int) = 1 := hk.symm.trans hpoint
          omega
        simp [hdigits, hone]
      simpa using IsMagnitude.parts hwhole hzero .none
    · rw [if_neg hlong]
      have hfraction : IsFraction ('.' :: d.digits.drop k) :=
        .digits (isDigits_drop h k) (by rw [Ne, List.drop_eq_nil_iff]; exact hlong)
      have hwhole : IsInteger (if k = 0 then ['0'] else d.digits.take k) := by
        by_cases hk0 : k = 0
        · rw [if_pos hk0]
          exact .zero
        · rw [if_neg hk0]
          apply isInteger_of_digits (isDigits_take h k) (by simp [hk0, h.nonempty])
          intro hhead
          rw [List.head?_take, if_neg hk0] at hhead
          obtain ⟨hdigits, -⟩ := h.leading hhead
          rw [hdigits] at hlong
          exact absurd hlong (by simp; omega)
      simpa using IsMagnitude.parts hwhole hfraction .none
  · rename_i k hk
    have hfraction : IsFraction ('.' :: (List.replicate (k + 1) '0' ++ d.digits)) :=
      .digits (isDigits_append (isDigits_zeros _) h.digits) (by simp)
    simpa using IsMagnitude.parts .zero hfraction .none

theorem isMagnitude_scientific : IsMagnitude d.scientific := by
  obtain ⟨c, cs, hcs⟩ := List.exists_cons_of_ne_nil h.nonempty
  have hdigits : IsDigits (c :: cs) := by
    rw [← hcs]
    exact h.digits
  have hwhole : IsInteger [c] := by
    apply isInteger_of_digits _ (by simp)
    · intro hhead
      rw [Option.some.inj hhead]
    · intro x hx
      exact hdigits x (List.mem_cons.mpr (.inl (List.mem_singleton.mp hx)))
  have hfraction : IsFraction (if cs.isEmpty then [] else '.' :: cs) := by
    cases cs with
    | nil => exact .none
    | cons x xs => exact .digits (fun y hy => hdigits y (List.mem_cons_of_mem _ hy)) (by simp)
  have hexponent (n : Nat) (sign : Char) (hsign : sign = '+' ∨ sign = '-') :
      IsExponent ('e' :: ([sign] ++ Nat.toDigits 10 n)) :=
    .digits (.inl rfl) (by simpa using hsign) (isDigits_toDigits n) Nat.toDigits_ne_nil
  have hnumber := IsMagnitude.parts hwhole hfraction
    (hexponent (d.point - 1).natAbs (if d.point - 1 < 0 then '-' else '+') (by split <;> simp))
  unfold Decimal.scientific
  rw [hcs]
  simpa using hnumber

end

theorem isMagnitude_toDigits (n : Nat) : IsMagnitude (Nat.toDigits 10 n) := by
  simpa using IsMagnitude.parts (isInteger_toDigits n) .none .none

theorem isNumber_signed {cs : List Char} {p : Prop} [Decidable p] (h : IsMagnitude cs) :
    IsNumber ((if p then ['-'] else []) ++ cs) := by
  split
  · exact .negative h
  · exact .plain h

theorem isNumber_numeral {x : Binary64} (h : x.isFinite = true) : IsNumber x.numeral := by
  unfold Binary64.numeral Binary64.signed
  apply isNumber_signed
  split
  · exact .parts .zero (.digits (List.forall_mem_singleton.mpr rfl) (by simp)) .none
  · rename_i hne
    have hprintable := Binary64.shortest_printable (Nat.pos_of_ne_zero hne) h
    dsimp only
    split
    · exact isMagnitude_positional hprintable
    · exact isMagnitude_scientific hprintable

theorem isValue_print (n : Json.Number) : IsValue n.print := by
  cases n with
  | whole n => exact .number (isNumber_signed (isMagnitude_toDigits _))
  | ratio x =>
    by_cases hfinite : x.isFinite = true
    · rw [Json.Number.print, if_pos hfinite]
      exact .number (isNumber_numeral hfinite)
    · rw [Json.Number.print, if_neg hfinite]
      exact .null

/-! ## Printed strings -/

theorem isTail_escaped (c : Char) {cs : List Char} (h : IsTail cs) : IsTail (Json.escaped c ++ cs) := by
  have hshort (e : Char) (he : e ∈ ['"', '\\', '/', 'b', 'f', 'n', 'r', 't']) : IsTail (['\\', e] ++ cs) := .short he h
  unfold Json.escaped
  by_cases hquote : c = '"'
  · rw [if_pos hquote]
    exact hshort _ (by decide)
  by_cases hslash : c = '\\'
  · rw [if_neg hquote, if_pos hslash]
    exact hshort _ (by decide)
  rw [if_neg hquote, if_neg hslash]
  iterate 5
    split
    · exact hshort _ (by decide)
  by_cases hcontrol : c.toNat < 0x20
  · rw [if_pos hcontrol]
    have hhex : ∀ n < 16, isHexDigit n.digitChar = true := by decide
    apply IsTail.hex _ h
    simp only [List.forall_mem_cons, List.not_mem_nil, false_implies, implies_true, and_true]
    exact ⟨rfl, rfl, hhex _ (by omega), hhex _ (by omega)⟩
  · rw [if_neg hcontrol]
    exact .plain (Nat.le_of_not_lt hcontrol) hquote hslash h

theorem isTail_flatMap (cs : List Char) : IsTail (cs.flatMap Json.escaped ++ ['"']) := by
  induction cs with
  | nil => exact .close
  | cons c cs ih =>
    rw [List.flatMap_cons, List.append_assoc]
    exact isTail_escaped c ih

/-! ## Pretty texts -/

theorem isBlanks_newline (depth : Nat) : IsBlanks (Json.newline depth) := by
  intro c hc
  rcases List.mem_cons.mp hc with rfl | hc
  · rfl
  · rw [List.eq_of_mem_replicate hc]
    rfl

theorem isBlanks_nil : IsBlanks [] := by
  intro c hc
  cases hc

theorem isBlanks_blank : IsBlanks [' '] := List.forall_mem_singleton.mpr rfl

mutual

theorem isValue_pretty (depth : Nat) : (v : Json) → IsValue (v.prettyChars depth)
  | .null => by rw [Json.prettyChars]; exact .null
  | .boolean b => by rw [Json.prettyChars]; exact .boolean b
  | .number n => by rw [Json.prettyChars]; exact isValue_print n
  | .text s => by rw [Json.prettyChars]; exact .text (isTail_flatMap s.toList)
  | .array items => by
    by_cases hne : items = []
    · rw [hne, Json.prettyChars]
      exact .emptyArray isBlanks_nil
    · have hitems := isItems_pretty (depth + 1) (isBlanks_newline depth) items hne
      rw [Json.prettyChars]
      · simpa using IsValue.array hitems
      · exact hne
  | .object members => by
    by_cases hne : members = []
    · rw [hne, Json.prettyChars]
      exact .emptyObject isBlanks_nil
    · have hmembers := isMembers_pretty (depth + 1) (isBlanks_newline depth) members hne
      rw [Json.prettyChars]
      · simpa using IsValue.object hmembers
      · exact hne

theorem isItems_pretty (depth : Nat) {after : List Char} (hafter : IsBlanks after) :
    (items : List Json) → items ≠ [] → IsItems (Json.prettyItems depth items ++ after)
  | [], hne => absurd rfl hne
  | [v], _ => by
    have hv := IsDocument.around (isBlanks_newline depth) (isValue_pretty depth v) hafter
    simpa [Json.prettyItems] using IsItems.last hv
  | v :: w :: vs, _ => by
    have hv := IsDocument.around (isBlanks_newline depth) (isValue_pretty depth v) isBlanks_nil
    have hrest := isItems_pretty depth hafter (w :: vs) (by simp)
    simpa [Json.prettyItems] using IsItems.item hv hrest

theorem isMembers_pretty (depth : Nat) {after : List Char} (hafter : IsBlanks after) :
    (members : List (String × Json)) → members ≠ [] → IsMembers (Json.prettyMembers depth members ++ after)
  | [], hne => absurd rfl hne
  | [(name, v)], _ => by
    have hname := isTail_flatMap name.toList
    have hv := IsDocument.around isBlanks_blank (isValue_pretty depth v) hafter
    simpa [Json.prettyMembers, Json.text.print] using IsMembers.last (isBlanks_newline depth) hname isBlanks_nil hv
  | (name, v) :: m :: ms, _ => by
    have hname := isTail_flatMap name.toList
    have hv := IsDocument.around isBlanks_blank (isValue_pretty depth v) isBlanks_nil
    have hrest := isMembers_pretty depth hafter (m :: ms) (by simp)
    simpa [Json.prettyMembers, Json.text.print] using
      IsMembers.member (isBlanks_newline depth) hname isBlanks_nil hv hrest

end

/-- A pretty text is a document. -/
theorem pretty_isDocument (v : Json) : IsDocument v.pretty.toList := by
  rw [Json.pretty, String.toList_ofList]
  simpa using IsDocument.around isBlanks_nil (isValue_pretty 0 v) isBlanks_nil

end PresetWorkspace.JsonText
