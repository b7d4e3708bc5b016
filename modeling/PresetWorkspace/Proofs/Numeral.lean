import PresetWorkspace.Proofs.Leaves

/-!
# Numerals

A numeral of a finite value reads as a number. With a fraction the power of
ten is negative and nothing can go wrong; with an exponent the digits and
their places are those of `Decimal.Printable`, and so below the greatest
magnitude.
-/

namespace PresetWorkspace

open Document

/-! ## Digits -/

theorem digitValue_lt {c : Char} (h : c.isDigit = true) : digitValue c < 10 := by
  obtain ⟨_, hle⟩ := Char.isDigit_iff_toNat.mp h
  have hzero : '0'.toNat = 48 := rfl
  have hnine : '9'.toNat = 57 := rfl
  unfold digitValue
  omega

theorem ofDigitChars_cons_eq (c : Char) (cs : List Char) (n : Nat) :
    Nat.ofDigitChars 10 (c :: cs) n = Nat.ofDigitChars 10 cs (10 * n + digitValue c) := Nat.ofDigitChars_cons

theorem le_ofDigitChars (ds : List Char) (n : Nat) : n ≤ Nat.ofDigitChars 10 ds n := by
  rw [Nat.ofDigitChars_eq_ofDigitChars_zero]
  have hpow : 0 < 10 ^ ds.length := Nat.pow_pos (by decide)
  have hmul := Nat.le_mul_of_pos_left n hpow
  omega

theorem ofDigitChars_lt {ds : List Char} (h : ∀ c ∈ ds, c.isDigit = true) (n : Nat) :
    Nat.ofDigitChars 10 ds n < Nat.pow 10 ds.length * (n + 1) := by
  induction ds generalizing n with
  | nil =>
    show n < 1 * (n + 1)
    omega
  | cons c ds ih =>
    obtain ⟨hc, hds⟩ := List.forall_mem_cons.mp h
    have hvalue := digitValue_lt hc
    rw [ofDigitChars_cons_eq, List.length_cons]
    refine Nat.lt_of_lt_of_le (ih hds _) ?_
    have hpow : Nat.pow 10 (ds.length + 1) = Nat.pow 10 ds.length * 10 := rfl
    rw [hpow, Nat.mul_assoc]
    apply Nat.mul_le_mul_left
    omega

theorem spanDigits_all {digits : List Char} (h : ∀ c ∈ digits, c.isDigit = true) :
    spanDigits digits = (digits, []) := by
  have hnil : ∀ c ∈ ([] : List Char).head?, c.isDigit = false := fun c hc => by cases hc
  have hspan := spanDigits_digits h hnil
  rw [List.append_nil] at hspan
  exact hspan

/-! ## Gathering -/

theorem gather_all {limit n : Nat} {ds : List Char} (h : Nat.ofDigitChars 10 ds n < limit) :
    gather limit n ds = (Nat.ofDigitChars 10 ds n, []) := by
  induction ds generalizing n with
  | nil => rfl
  | cons d ds ih =>
    rw [ofDigitChars_cons_eq] at h ⊢
    have hstep := Nat.lt_of_le_of_lt (le_ofDigitChars ds _) h
    rw [gather, if_pos hstep]
    exact ih h

theorem gather_rest_length (limit n : Nat) (ds : List Char) : (gather limit n ds).2.length ≤ ds.length := by
  induction ds generalizing n with
  | nil => exact Nat.le_refl _
  | cons d ds ih =>
    rw [gather]
    split
    · exact Nat.le_succ_of_le (ih _)
    · exact Nat.le_refl _

theorem gather_takes {limit n : Nat} {d : Char} {ds : List Char} (h : 10 * n + digitValue d < limit) :
    (gather limit n (d :: ds)).2.length < (d :: ds).length := by
  rw [gather, if_pos h]
  exact Nat.lt_succ_of_le (gather_rest_length _ _ _)

/-! ## Texts of digits -/

theorem readScaled_ok {significand : Nat} {exponent : Int} (h : (scaled significand exponent).isSome = true)
    (negative : Bool) (rest : List Char) :
    ∃ y, readScaled negative significand exponent rest = .ok (.ratio y, rest) := by
  obtain ⟨x, hx⟩ := Option.isSome_iff_exists.mp h
  unfold readScaled
  rw [hx]
  exact ⟨_, rfl⟩

theorem scaled_of_neg (significand : Nat) {exponent : Int} (h : exponent < 0) :
    (scaled significand exponent).isSome = true := by
  cases exponent with
  | ofNat k => exact absurd h (Int.not_lt.mpr (Int.natCast_nonneg k))
  | negSucc k => exact scaled_negSucc_isSome significand k

section
variable {whole fraction : List Char}
variable (hwhole : ∀ c ∈ whole, c.isDigit = true) (hne : whole ≠ []) (hzero : ∀ d ds, whole ≠ '0' :: d :: ds)
include hwhole hne hzero

theorem readMagnitude_digits (hlimit : Nat.ofDigitChars 10 whole 0 < significandLimit) (negative : Bool)
    {rest : List Char} (hrest : ∀ c ∈ rest.head?, c.isDigit = false) :
    readMagnitude negative (whole ++ rest) = readAfterInteger negative (Nat.ofDigitChars 10 whole 0) 0 rest := by
  have hspan := spanDigits_digits hwhole hrest
  rw [readMagnitude_eq (by rw [hspan]; exact hne) (by rw [hspan]; exact hzero), hspan]
  simp only
  rw [gather_all hlimit]
  rfl

/-- A number with a fraction is read to its end. Its power of ten is negative, since one digit of the fraction fits. -/
theorem readMagnitude_fraction (hlength : whole.length ≤ 16) (hfraction : ∀ c ∈ fraction, c.isDigit = true)
    (hfne : fraction ≠ []) (negative : Bool) :
    ∃ y, readMagnitude negative (whole ++ '.' :: fraction) = .ok (.ratio y, []) := by
  have hlt : Nat.ofDigitChars 10 whole 0 < Nat.pow 10 16 := by
    refine Nat.lt_of_lt_of_le (ofDigitChars_lt hwhole 0) ?_
    rw [Nat.zero_add, Nat.mul_one]
    exact Binary64.pow_ten_mono hlength
  have hlimit : 10 * Nat.pow 10 16 < significandLimit := by decide
  rw [readMagnitude_digits hwhole hne hzero (by omega) negative fun c hc => by cases hc; rfl]
  generalize Nat.ofDigitChars 10 whole 0 = n at hlt
  cases fraction with
  | nil => exact absurd rfl hfne
  | cons d ds =>
    -- The next digit still fits, so at least one of the fraction is taken and counts as a place.
    have hd := digitValue_lt (hfraction d List.mem_cons_self)
    have htakes : (gather significandLimit n (d :: ds)).2.length < (d :: ds).length := gather_takes (by omega)
    show ∃ y, readFraction negative n (0 : Nat) (d :: ds) = .ok (.ratio y, [])
    unfold readFraction
    rw [spanDigits_all hfraction]
    simp only
    rw [readAfterDigits_plain fun c hc => by cases hc]
    apply readScaled_ok
    apply scaled_of_neg
    omega

end

/-! ## Exponents -/

theorem scaled_of_nonpos {significand : Nat} (hdigits : significand ≤ Nat.pow 10 17) {exponent : Int}
    (h : exponent ≤ 0) : (scaled significand exponent).isSome = true := by
  rcases Int.lt_or_eq_of_le h with hlt | rfl
  · exact scaled_of_neg significand hlt
  · have hle : Nat.pow 10 17 ≤ Binary64.greatestWhole := by decide +kernel
    apply scaled_isSome hdigits
    show significand * 1 ≤ _
    omega

theorem readExponentDigits_toDigits (negative down : Bool) (significand : Nat) (exponent : Int) (n : Nat) :
    readExponentDigits negative significand exponent down (Nat.toDigits 10 n) =
      match gather exponentLimit 0 (Nat.toDigits 10 n) with
      | (n, []) => readScaled negative significand (if down then exponent - n else exponent + n) []
      | (_, left) =>
        if significand ≠ 0 ∧ ¬ down then .error (.here .hugeNumber (left.drop 1 ++ []))
        else .ok (.ratio (if negative then Binary64.zero.negate else .zero), []) := by
  have hdigits : ∀ c ∈ Nat.toDigits 10 n, c.isDigit = true := fun c hc =>
    Nat.isDigit_of_mem_toDigits (by decide) (by decide) hc
  unfold readExponentDigits
  rw [spanDigits_all hdigits]
  cases h : Nat.toDigits 10 n with
  | nil => exact absurd h Nat.toDigits_ne_nil
  | cons d ds => rfl

namespace Decimal

section
variable {d : Decimal} (h : d.Printable) (negative : Bool)
include h

theorem Printable.value_lt : d.value < significandLimit := Nat.lt_of_le_of_lt h.seventeen (by decide)

/-- The places behind the digits are a number with them, be they more or fewer than the digits. -/
theorem Printable.scaled_isSome : (scaled d.value (d.point - d.digits.length)).isSome = true := by
  rcases Int.lt_or_le d.point d.digits.length with hlt | hge
  · exact scaled_of_neg _ (by omega)
  · obtain ⟨k, hk⟩ := Int.eq_ofNat_of_zero_le (Int.sub_nonneg_of_le hge)
    rw [hk]
    exact PresetWorkspace.scaled_isSome h.seventeen (h.bound k (by omega))

theorem Printable.readExponent_reads (exponent : Int) (hexponent : exponent = 1 - d.digits.length) :
    ∃ y, readExponent negative d.value exponent
      ((if d.point - 1 < 0 then '-' else '+') :: Nat.toDigits 10 (d.point - 1).natAbs) = .ok (.ratio y, []) := by
  have hlength := List.length_pos_iff.mpr h.nonempty
  by_cases hdown : d.point - 1 < 0
  · -- A negative exponent may have any number of digits: what cannot be kept of it gives zero.
    rw [if_pos hdown]
    show ∃ y, readExponentDigits negative d.value exponent true _ = .ok (.ratio y, [])
    rw [readExponentDigits_toDigits]
    cases gather exponentLimit 0 (Nat.toDigits 10 (d.point - 1).natAbs) with
    | mk n left =>
      cases left with
      | nil =>
        apply readScaled_ok
        apply scaled_of_nonpos h.seventeen
        rw [if_pos rfl]
        omega
      | cons c left => exact ⟨_, if_neg fun hup => hup.2 rfl⟩
  · rw [if_neg hdown]
    show ∃ y, readExponentDigits negative d.value exponent false _ = .ok (.ratio y, [])
    have hplace := h.place
    have hlimit : 18 + greatestPower < exponentLimit := by decide
    have hvalue : Nat.ofDigitChars 10 (Nat.toDigits 10 (d.point - 1).natAbs) 0 = (d.point - 1).natAbs :=
      Nat.ofDigitChars_ten_toDigits
    rw [readExponentDigits_toDigits, gather_all (by rw [hvalue]; omega), hvalue]
    apply readScaled_ok
    have hpoint : exponent + ((d.point - 1).natAbs : Nat) = d.point - d.digits.length := by omega
    rw [if_neg Bool.false_ne_true, hpoint]
    exact h.scaled_isSome

/-! ## Both notations -/

/-- The places before the point do not start with a zero too many. -/
theorem Printable.no_leading_zero {whole : List Char} {k : Nat} (hpoint : d.point = .ofNat k)
    (hlength : whole.length = k) (hhead : whole.head? = d.digits.head?) (c : Char) (cs : List Char) :
    whole ≠ '0' :: c :: cs := by
  rintro rfl
  have hone := (h.leading hhead.symm).2
  rw [hpoint] at hone
  have hk : k = 1 := Int.ofNat.inj hone
  rw [List.length_cons, List.length_cons] at hlength
  omega

theorem Printable.scientific_reads : ∃ y, readMagnitude negative d.scientific = .ok (.ratio y, []) := by
  cases hdigits : d.digits with
  | nil => exact absurd hdigits h.nonempty
  | cons c fraction =>
    have hall := h.digits
    have hvalue : d.value = Nat.ofDigitChars 10 fraction (Nat.ofDigitChars 10 [c] 0) := by
      unfold value
      rw [hdigits]
      exact Nat.ofDigitChars_append (l := [c]) 0
    have hlimit := h.value_lt
    have hfirst := Nat.lt_of_le_of_lt (le_ofDigitChars fraction _) (hvalue ▸ hlimit)
    rw [hdigits] at hall
    obtain ⟨hc, hfraction⟩ := List.forall_mem_cons.mp hall
    have hone : ∀ x ∈ [c], x.isDigit = true := List.forall_mem_singleton.mpr hc
    have hsingle : ∀ x xs, [c] ≠ '0' :: x :: xs := fun x xs heq => by cases heq
    unfold scientific
    simp only [hdigits, List.take_succ_cons, List.take_zero, List.drop_succ_cons, List.drop_zero]
    rw [List.append_assoc]
    cases fraction with
    | nil =>
      have hreads := h.readExponent_reads negative (0 : Nat) (by rw [hdigits]; rfl)
      rw [hvalue] at hreads
      rw [readMagnitude_digits hone (List.cons_ne_nil _ _) hsingle hfirst negative fun x hx => by cases hx; rfl]
      exact hreads
    | cons f fs =>
      have hreads := h.readExponent_reads negative ((0 : Nat) - ((f :: fs).length - (0 : Nat)))
        (by simp only [hdigits, List.length_cons]; omega)
      rw [readMagnitude_digits hone (List.cons_ne_nil _ _) hsingle hfirst negative fun x hx => by cases hx; rfl]
      show ∃ y, readFraction negative _ (0 : Nat) ((f :: fs) ++ 'e' :: _) = .ok (.ratio y, [])
      unfold readFraction
      rw [spanDigits_digits hfraction fun x hx => by cases hx; rfl]
      simp only
      rw [gather_all (hvalue ▸ hlimit), ← hvalue]
      exact hreads

theorem Printable.positional_reads (hpoint : d.point ≤ 16) :
    ∃ y, readMagnitude negative (d.positional ['.', '0']) = .ok (.ratio y, []) := by
  have hzero : ∀ c ∈ ['0'], c.isDigit = true := List.forall_mem_singleton.mpr rfl
  have hsingle : ∀ x xs, ['0'] ≠ '0' :: x :: xs := fun x xs heq => by cases heq
  have hzeros : ∀ n, ∀ c ∈ List.replicate n '0', c.isDigit = true := fun n c hc =>
    (List.mem_replicate.mp hc).2 ▸ rfl
  have hlength := List.length_pos_iff.mpr h.nonempty
  unfold positional
  cases hp : d.point with
  | ofNat k =>
    rw [hp] at hpoint
    have hk : k ≤ 16 := Int.ofNat_le.mp hpoint
    simp only
    split
    · -- A whole number: its digits, its places, and a zero behind the point.
      have hwhole : (d.digits ++ List.replicate (k - d.digits.length) '0').length = k := by
        rw [List.length_append, List.length_replicate]
        omega
      apply readMagnitude_fraction
      · exact List.forall_mem_append.mpr ⟨h.digits, hzeros _⟩
      · exact List.append_ne_nil_of_left_ne_nil h.nonempty _
      · apply h.no_leading_zero hp hwhole
        obtain ⟨c, cs, hdigits⟩ := List.exists_cons_of_ne_nil h.nonempty
        rw [hdigits]
        rfl
      · omega
      · exact hzero
      · exact List.cons_ne_nil _ _
    · have hfraction : ∀ c ∈ d.digits.drop k, c.isDigit = true := fun c hc => h.digits c (List.mem_of_mem_drop hc)
      have hfne : d.digits.drop k ≠ [] := by
        rw [Ne, List.drop_eq_nil_iff]
        omega
      split
      · exact readMagnitude_fraction hzero (List.cons_ne_nil _ _) hsingle (by decide) hfraction hfne negative
      · have hwhole : (d.digits.take k).length = k := by
          rw [List.length_take]
          omega
        apply readMagnitude_fraction
        · exact fun c hc => h.digits c (List.mem_of_mem_take hc)
        · rw [← List.length_pos_iff]
          omega
        · apply h.no_leading_zero hp hwhole
          rw [List.head?_take, if_neg ‹_›]
        · omega
        · exact hfraction
        · exact hfne
  | negSucc k =>
    exact readMagnitude_fraction hzero (List.cons_ne_nil _ _) hsingle (by decide)
      (List.forall_mem_append.mpr ⟨hzeros _, h.digits⟩) (List.append_ne_nil_of_right_ne_nil _ h.nonempty) negative

end

end Decimal

/-! ## Values -/

/-- No magnitude starts with a sign, so what reads as one is a number without a sign. -/
theorem readNumber_of_magnitude {text : List Char} {r : Json.Number × List Char}
    (h : readMagnitude false text = .ok r) : readNumber text = .ok r := by
  unfold readNumber
  split
  · cases h
  · exact h

namespace Binary64

theorem numeral_reads {x : Binary64} (h : x.isFinite = true) : ∃ y, readNumber x.numeral = .ok (.ratio y, []) := by
  have hmagnitude : ∃ y, readMagnitude x.negative
      (if x.magnitude = 0 then ['0', '.', '0']
        else if -5 < (x.shortest .toEven).point && (x.shortest .toEven).point ≤ 16 then
          (x.shortest .toEven).positional ['.', '0']
        else (x.shortest .toEven).scientific) = .ok (.ratio y, []) := by
    by_cases hzero : x.magnitude = 0
    · rw [if_pos hzero]
      cases x.negative <;> exact ⟨_, rfl⟩
    rw [if_neg hzero]
    have hprintable := shortest_printable (Nat.pos_of_ne_zero hzero) h
    split
    · rename_i hplaces
      rw [Bool.and_eq_true, decide_eq_true_eq, decide_eq_true_eq] at hplaces
      exact hprintable.positional_reads x.negative hplaces.2
    · exact hprintable.scientific_reads x.negative
  obtain ⟨y, hy⟩ := hmagnitude
  unfold numeral signed
  cases hsign : x.negative with
  | false =>
    rw [hsign] at hy
    exact ⟨y, readNumber_of_magnitude hy⟩
  | true =>
    rw [hsign] at hy
    exact ⟨y, hy⟩

theorem exists_spells_numeral {x : Binary64} (h : x.isFinite = true) :
    ∃ y, SpellsNumber x.numeral (some (.ratio y)) := by
  obtain ⟨y, hy⟩ := numeral_reads h
  exact ⟨y, .of_read (JsonText.isNumber_numeral h) hy⟩

end Binary64

end PresetWorkspace
