import PresetWorkspace.Proofs.Rounding

/-!
# Shortest digits

What the shortest digits of a value promise to a reader: they are digits, no
more than seventeen of them count, the first one is no zero, and with the
places behind them they stay below the greatest magnitude (`Printable`). The
digits come from a grid number that rounds to the value; so the interval of
the value bounds them, and the interval ends before the next value does.
-/

namespace PresetWorkspace

open Document

namespace Decimal

def value (d : Decimal) : Nat := Nat.ofDigitChars 10 d.digits 0

/-- Digits that a reader takes for a number. Only the zero itself starts with a zero. -/
structure Printable (d : Decimal) : Prop where
  digits : ∀ c ∈ d.digits, c.isDigit = true
  nonempty : d.digits ≠ []
  leading : d.digits.head? = some '0' → d.digits = ['0'] ∧ d.point = 1
  seventeen : d.value ≤ Nat.pow 10 17
  bound : ∀ k : Nat, d.point = d.digits.length + k → d.value * Nat.pow 10 k ≤ Binary64.greatestWhole
  place : d.point ≤ 18 + greatestPower

theorem head_toDigits {n : Nat} (h : 0 < n) : (Nat.toDigits 10 n).head? ≠ some '0' := by
  induction n using Nat.strongRecOn with
  | ind n ih =>
    rcases Nat.lt_or_ge n 10 with hlt | hge
    · rw [Nat.toDigits_of_lt_base hlt, List.head?_cons]
      have hdigit : ∀ d < 10, 0 < d → some d.digitChar ≠ some '0' := by decide
      exact hdigit n hlt h
    · have hfront := ih (n / 10) (Nat.div_lt_self h (by decide)) (Nat.div_pos hge (by decide))
      rw [Nat.toDigits_of_base_le (by decide) hge]
      cases hdigits : Nat.toDigits 10 (n / 10) with
      | nil => exact absurd hdigits Nat.toDigits_ne_nil
      | cons c cs =>
        rw [hdigits] at hfront
        exact hfront

theorem ofScaled_digits (n : Nat) (exponent : Int) :
    ∃ zeros, Nat.toDigits 10 n = (ofScaled n exponent).digits ++ List.replicate zeros '0' := by
  unfold ofScaled
  simp only
  generalize Nat.toDigits 10 n = all
  have hsplit := List.takeWhile_append_dropWhile (p := (· == '0')) (l := all.reverse)
  have hzeros : all.reverse.takeWhile (· == '0') = List.replicate (all.reverse.takeWhile (· == '0')).length '0' := by
    refine List.eq_replicate_iff.mpr ⟨rfl, fun c hc => ?_⟩
    have hall := List.all_takeWhile (p := (· == '0')) (l := all.reverse)
    exact beq_iff_eq.mp (List.all_eq_true.mp hall c hc)
  refine ⟨(all.reverse.takeWhile (· == '0')).length, ?_⟩
  rw [← List.reverse_replicate, ← List.reverse_append, ← hzeros, hsplit, List.reverse_reverse]

theorem ofScaled_length_le (n : Nat) (exponent : Int) :
    (ofScaled n exponent).digits.length ≤ (Nat.toDigits 10 n).length := by
  obtain ⟨zeros, hdigits⟩ := ofScaled_digits n exponent
  rw [hdigits, List.length_append]
  exact Nat.le_add_right _ _

/-- The digits of a positive number without the zeros at its end: what they are, and how many zeros there were. -/
theorem ofScaled_spec {n : Nat} (h : 0 < n) (exponent : Int) :
    ∃ zeros, n = (ofScaled n exponent).value * Nat.pow 10 zeros ∧
      (ofScaled n exponent).point = exponent + ((ofScaled n exponent).digits.length + zeros : Nat) ∧
      (ofScaled n exponent).digits ≠ [] ∧ (∀ c ∈ (ofScaled n exponent).digits, c.isDigit = true) ∧
      (ofScaled n exponent).digits.head? ≠ some '0' := by
  obtain ⟨zeros, hdigits⟩ := ofScaled_digits n exponent
  have hvalue : n = (ofScaled n exponent).value * Nat.pow 10 zeros := by
    have hall : Nat.ofDigitChars 10 (Nat.toDigits 10 n) 0 = n := Nat.ofDigitChars_ten_toDigits
    rw [hdigits, Nat.ofDigitChars_append, Nat.ofDigitChars_replicate_zero, Nat.mul_comm] at hall
    exact hall.symm
  have hne : (ofScaled n exponent).digits ≠ [] := by
    intro hnil
    unfold value at hvalue
    rw [hnil, Nat.ofDigitChars_nil, Nat.zero_mul] at hvalue
    omega
  refine ⟨zeros, hvalue, ?_, hne, fun c hc => ?_, ?_⟩
  · have hlength := congrArg List.length hdigits
    rw [List.length_append, List.length_replicate] at hlength
    rw [← hlength]
    rfl
  · refine Nat.isDigit_of_mem_toDigits (b := 10) (n := n) (by decide) (by decide) ?_
    rw [hdigits]
    exact List.mem_append_left _ hc
  · have hhead := head_toDigits h
    rw [hdigits] at hhead
    cases hcases : (ofScaled n exponent).digits with
    | nil => exact absurd hcases hne
    | cons c cs =>
      rw [hcases] at hhead
      exact hhead

end Decimal

namespace Binary64

/-! ## Intervals -/

theorem decimalPoint_lt {num den : Nat} (hnum : 0 < num) (hden : 0 < den) {up down : Nat}
    (h : decimalPoint num den = (up : Int) - down) : num * Nat.pow 10 down < Nat.pow 10 up * den := by
  unfold decimalPoint at h
  -- The digits of the quotient are counted, and below one those of its reciprocal.
  by_cases hle : den ≤ num
  · rw [if_pos hle] at h
    have hlt : num / den < Nat.pow 10 (Nat.toDigits 10 (num / den)).length :=
      (Nat.length_toDigits_le_iff (by decide) Nat.length_toDigits_pos).mp (Nat.le_refl _)
    have hup : up = (Nat.toDigits 10 (num / den)).length + down := by omega
    have hpow : Nat.pow 10 up = Nat.pow 10 (Nat.toDigits 10 (num / den)).length * Nat.pow 10 down := by
      rw [hup]
      exact Nat.pow_add 10 _ _
    rw [hpow, Nat.mul_right_comm]
    exact Nat.mul_lt_mul_of_pos_right ((Nat.div_lt_iff_lt_mul hden).mp hlt) (Nat.pow_pos (by decide))
  · rw [if_neg hle] at h
    generalize hlength : (Nat.toDigits 10 ((den - 1) / num)).length = length at h
    have hpos : 0 < length := by
      rw [← hlength]
      exact Nat.length_toDigits_pos
    have hdown : down = up + (length - 1) := by omega
    have hge : Nat.pow 10 (length - 1) ≤ (den - 1) / num := by
      rcases Nat.eq_or_lt_of_le hpos with hone | hmore
      · rw [← hone]
        exact Nat.div_pos (by omega) hnum
      · refine Nat.le_of_not_lt fun hlt => ?_
        have := (Nat.length_toDigits_le_iff (by decide) (by omega)).mpr hlt
        omega
    have hmul : num * Nat.pow 10 (length - 1) < den := by
      have := (Nat.le_div_iff_mul_le hnum).mp hge
      rw [Nat.mul_comm]
      omega
    have hpow : Nat.pow 10 down = Nat.pow 10 (length - 1) * Nat.pow 10 up := by
      rw [hdown, Nat.add_comm]
      exact Nat.pow_add 10 _ _
    rw [hpow, ← Nat.mul_assoc, Nat.mul_comm (Nat.pow 10 up)]
    exact Nat.mul_lt_mul_of_pos_right hmul (Nat.pow_pos (by decide))

section
variable {x : Binary64} (hx : 0 < x.magnitude)

theorem rounding_high_le (h : x.magnitude < greatest.magnitude) : x.rounding.high ≤ 4 * greatest.units := by
  have hsucc := succ_significand_le h
  have hle : (4 * x.significand + 2) * Nat.pow 2 x.scale ≤ 4 * ((x.significand + 1) * Nat.pow 2 x.scale) := by
    rw [← Nat.mul_assoc]
    exact Nat.mul_le_mul_right _ (by omega)
  exact Nat.le_trans hle (Nat.mul_le_mul_left 4 hsucc)

include hx

theorem significand_pos : 0 < x.significand := by
  rcases Nat.eq_zero_or_pos x.scale with hzero | hpos
  · unfold significand
    rw [hzero]
    omega
  · exact Nat.lt_of_lt_of_le (by decide) (hiddenBit_le_significand hpos)

theorem rounding_low_pos : 0 < x.rounding.low := by
  have hsig := significand_pos hx
  have hplace : 0 < Nat.pow 2 x.scale := Nat.two_pow_pos _
  unfold rounding
  simp only
  refine Nat.mul_pos ?_ hplace
  split <;> omega

theorem rounding_value_pos : 0 < x.rounding.value := by
  have hsig := significand_pos hx
  have hplace : 0 < Nat.pow 2 x.scale := Nat.two_pow_pos _
  exact Nat.mul_pos (by omega) hplace

end

theorem Rounding.holds_le {r : Rounding} {n stepNum stepDen : Nat} (h : r.holds n stepNum stepDen = true) :
    r.low * stepDen ≤ n * stepNum ∧ n * stepNum ≤ r.high * stepDen := by
  unfold holds at h
  simp only at h
  split at h
  · simpa using h
  · rw [Bool.and_eq_true, decide_eq_true_eq, decide_eq_true_eq] at h
    exact ⟨Nat.le_of_lt h.1, Nat.le_of_lt h.2⟩

theorem Rounding.onGrid_eq_some {r : Rounding} {stepNum stepDen n : Nat}
    (h : r.onGrid .toEven stepNum stepDen = some n) :
    r.holds n stepNum stepDen = true ∧ n ≤ r.value * stepDen / stepNum + 1 := by
  unfold onGrid at h
  simp only at h
  generalize r.value * stepDen / stepNum = q at h ⊢
  split at h
  · cases h
  · rename_i hlow _
    cases h
    exact ⟨hlow, Nat.le_succ _⟩
  · rename_i _ hhigh
    cases h
    exact ⟨hhigh, Nat.le_refl _⟩
  · rename_i hlow hhigh
    split at h
    · cases h
      exact ⟨hlow, Nat.le_succ _⟩
    · split at h
      · cases h
        exact ⟨hhigh, Nat.le_refl _⟩
      · cases h
        rcases Nat.mod_two_eq_zero_or_one q with heven | hodd
        · rw [heven]
          exact ⟨hlow, Nat.le_succ _⟩
        · rw [hodd]
          exact ⟨hhigh, Nat.le_refl _⟩

/-! ## The digits -/

/-- The digits are those of a grid number that rounds to the value. The grid's step is a power of ten, up or down. -/
theorem shortest_eq (x : Binary64) :
    x.shortest .toEven = ⟨['0'], 1⟩ ∨ ∃ n < mostDigits, ∃ m up down : Nat, (up = 0 ∨ down = 0) ∧
      decimalPoint x.rounding.value (4 * unit) = ((n + 1 + up : Nat) : Int) - down ∧
        x.rounding.onGrid .toEven (Nat.pow 10 up * (4 * unit)) (Nat.pow 10 down) = some m ∧
          x.shortest .toEven = Decimal.ofScaled m ((up : Int) - down) := by
  unfold shortest
  simp only
  generalize 4 * unit = quarter
  generalize hpoint : decimalPoint x.rounding.value quarter = point
  generalize hfind : (List.range mostDigits).findSome? _ = found
  cases found with
  | none => exact .inl rfl
  | some d =>
    obtain ⟨n, hn, hd⟩ := List.exists_of_findSome?_eq_some hfind
    obtain ⟨m, hgrid, hscaled⟩ := Option.map_eq_some_iff.mp hd
    refine .inr ⟨n, List.mem_range.mp hn, m, ?_⟩
    rw [Option.getD_some, ← hscaled]
    generalize hexponent : point - ((n + 1 : Nat) : Int) = exponent at hgrid
    cases exponent with
    | ofNat k =>
      have hk : Int.ofNat k = (k : Int) := rfl
      refine ⟨k, 0, .inr rfl, ?_, hgrid, ?_⟩
      · omega
      · congr 1
    | negSucc k =>
      refine ⟨0, k + 1, .inl rfl, ?_, ?_, ?_⟩
      · omega
      · have hone : Nat.pow 10 0 * quarter = quarter := Nat.one_mul _
        rw [hone]
        exact hgrid
      · congr 1

theorem length_toDigits_eq {n k : Nat} (hk : 0 < k) (hlow : Nat.pow 10 k ≤ n) (hhigh : n < Nat.pow 10 (k + 1)) :
    (Nat.toDigits 10 n).length = k + 1 := by
  have hmost := (Nat.length_toDigits_le_iff (by decide) (Nat.succ_pos k)).mpr hhigh
  have hleast : ¬ (Nat.toDigits 10 n).length ≤ k := fun h =>
    Nat.lt_irrefl _ (Nat.lt_of_lt_of_le ((Nat.length_toDigits_le_iff (by decide) hk).mp h) hlow)
  omega

theorem decimalPoint_greatest :
    decimalPoint greatest.rounding.value (4 * unit) = ((greatestPower + 1 : Nat) : Int) := by
  have hle : 4 * unit ≤ greatest.rounding.value := by decide +kernel
  have hlow : Nat.pow 10 greatestPower ≤ greatest.rounding.value / (4 * unit) := by decide +kernel
  have hhigh : greatest.rounding.value / (4 * unit) < Nat.pow 10 (greatestPower + 1) := by decide +kernel
  unfold decimalPoint
  rw [if_pos hle]
  rw [length_toDigits_eq (by decide) hlow hhigh]

/-- The grid numbers that round to the greatest magnitude are not above it, for any number of digits. -/
theorem greatest_grid :
    ∀ n < mostDigits, ∀ m ∈ greatest.rounding.onGrid .toEven (Nat.pow 10 (308 - n) * (4 * unit)) (Nat.pow 10 0),
      m * (Nat.pow 10 (308 - n) * (4 * unit)) ≤ 4 * greatest.units * Nat.pow 10 0 := by
  decide +kernel

theorem rounding_congr {x y : Binary64} (h : x.magnitude = y.magnitude) : x.rounding = y.rounding := by
  unfold rounding significand scale
  rw [h]

section
variable {x : Binary64} {n m up down : Nat}
variable (hpoint : decimalPoint x.rounding.value (4 * unit) = ((n + 1 + up : Nat) : Int) - down)
variable (hgrid : x.rounding.onGrid .toEven (Nat.pow 10 up * (4 * unit)) (Nat.pow 10 down) = some m)
include hpoint hgrid

/-- A grid of `n` digits has no number above `10 ^ n` that is next to the value. -/
theorem grid_le_pow_ten (hx : 0 < x.magnitude) : m ≤ Nat.pow 10 (n + 1) := by
  have hquarter : 0 < 4 * unit := Nat.mul_pos (by decide) unit_pos
  have hstep : 0 < Nat.pow 10 up * (4 * unit) := Nat.mul_pos (Nat.pow_pos (by decide)) hquarter
  have hlt := decimalPoint_lt (rounding_value_pos hx) hquarter hpoint
  have hpow : Nat.pow 10 (n + 1 + up) = Nat.pow 10 (n + 1) * Nat.pow 10 up := Nat.pow_add 10 _ _
  rw [hpow, Nat.mul_assoc] at hlt
  have hquotient := (Nat.div_lt_iff_lt_mul hstep).mpr hlt
  exact Nat.le_trans (Rounding.onGrid_eq_some hgrid).2 hquotient

/-- A grid number that rounds to the value is not above the greatest magnitude. Only for the greatest one itself
does the interval not end before. -/
theorem grid_le_greatest (hx : x.magnitude ≤ greatest.magnitude) (hn : n < mostDigits) (hside : up = 0 ∨ down = 0) :
    m * (Nat.pow 10 up * (4 * unit)) ≤ 4 * greatest.units * Nat.pow 10 down := by
  rcases Nat.eq_or_lt_of_le hx with heq | hlt
  · rw [rounding_congr heq] at hpoint hgrid
    rw [decimalPoint_greatest] at hpoint
    obtain ⟨rfl, rfl⟩ : down = 0 ∧ up = 308 - n := by
      unfold mostDigits at hn
      unfold greatestPower at hpoint
      omega
    have hplaces := greatest_grid n hn m (Option.mem_def.mpr hgrid)
    -- With its value in sight, the comparison would be computed.
    generalize greatest.units = units at hplaces ⊢
    exact hplaces
  · exact Nat.le_trans (Rounding.holds_le (Rounding.onGrid_eq_some hgrid).1).2
      (Nat.mul_le_mul_right _ (rounding_high_le hlt))

end

theorem printable_zero : (⟨['0'], 1⟩ : Decimal).Printable where
  digits := List.forall_mem_singleton.mpr rfl
  nonempty := by decide
  leading _ := ⟨rfl, rfl⟩
  seventeen := by decide
  bound k _ := by
    show 0 * Nat.pow 10 k ≤ _
    rw [Nat.zero_mul]
    exact Nat.zero_le _
  place := by decide

/-- Moving places from the step of a grid into its number. -/
theorem le_greatestWhole {n zeros up down k : Nat}
    (h : n * Nat.pow 10 zeros * (Nat.pow 10 up * (4 * unit)) ≤ 4 * greatest.units * Nat.pow 10 down)
    (hk : up + zeros = k + down) : n * Nat.pow 10 k ≤ greatestWhole := by
  have hpow : Nat.pow 10 zeros * Nat.pow 10 up = Nat.pow 10 k * Nat.pow 10 down := by
    rw [show Nat.pow 10 zeros * Nat.pow 10 up = Nat.pow 10 (zeros + up) from (Nat.pow_add 10 zeros up).symm,
      show Nat.pow 10 k * Nat.pow 10 down = Nat.pow 10 (k + down) from (Nat.pow_add 10 k down).symm, Nat.add_comm, hk]
  have hprod : ∀ u,
      n * Nat.pow 10 zeros * (Nat.pow 10 up * (4 * u)) = 4 * (n * Nat.pow 10 k * u) * Nat.pow 10 down := by
    intro u
    calc n * Nat.pow 10 zeros * (Nat.pow 10 up * (4 * u))
        = 4 * (n * (Nat.pow 10 zeros * Nat.pow 10 up) * u) := by ac_rfl
      _ = 4 * (n * Nat.pow 10 k * u) * Nat.pow 10 down := by rw [hpow]; ac_rfl
  rw [hprod] at h
  have hle := Nat.le_of_mul_le_mul_right h (Nat.pow_pos (by decide))
  exact (Nat.le_div_iff_mul_le unit_pos).mpr (Nat.le_of_mul_le_mul_left hle (by decide))

theorem shortest_printable {x : Binary64} (hx : 0 < x.magnitude) (hfinite : x.isFinite = true) :
    (x.shortest .toEven).Printable := by
  have hle : x.magnitude ≤ greatest.magnitude := Nat.le_sub_one_of_lt (of_decide_eq_true hfinite)
  rcases shortest_eq x with hzero | ⟨n, hn, m, up, down, hside, hpoint, hgrid, hshortest⟩
  · rw [hzero]
    exact printable_zero
  have hmpos : 0 < m := by
    refine Nat.pos_of_ne_zero fun hzero => ?_
    have hlow := (Rounding.holds_le (Rounding.onGrid_eq_some hgrid).1).1
    have hpos : 0 < x.rounding.low * Nat.pow 10 down := Nat.mul_pos (rounding_low_pos hx) (Nat.pow_pos (by decide))
    rw [hzero, Nat.zero_mul] at hlow
    omega
  have hm17 : m ≤ Nat.pow 10 17 := Nat.le_trans (grid_le_pow_ten hpoint hgrid hx) (pow_ten_mono hn)
  have hplaces := grid_le_greatest hpoint hgrid hle hn hside
  obtain ⟨zeros, hvalue, hpt, hne, hdigits, hhead⟩ := Decimal.ofScaled_spec hmpos ((up : Int) - down)
  have hlength := Decimal.ofScaled_length_le m ((up : Int) - down)
  rw [hshortest]
  generalize Decimal.ofScaled m ((up : Int) - down) = d at *
  have hbound : ∀ k : Nat, d.point = d.digits.length + k → d.value * Nat.pow 10 k ≤ greatestWhole := by
    intro k hk
    rw [hk] at hpt
    rw [hvalue] at hplaces
    exact le_greatestWhole hplaces (by omega)
  have hle17 : d.value ≤ Nat.pow 10 17 := by
    refine Nat.le_trans ?_ hm17
    rw [hvalue]
    exact Nat.le_mul_of_pos_right _ (Nat.pow_pos (by decide))
  have hplace : d.point ≤ 18 + greatestPower := by
    have hdigits18 : (Nat.toDigits 10 m).length ≤ 18 :=
      (Nat.length_toDigits_le_iff (by decide) (by decide)).mpr (Nat.lt_of_le_of_lt hm17 (by decide))
    rcases Int.lt_or_le d.point d.digits.length with hlt | hge
    · unfold greatestPower
      omega
    · obtain ⟨k, hk⟩ := Int.eq_ofNat_of_zero_le (Int.sub_nonneg_of_le hge)
      have hvalue0 : d.value ≠ 0 := by
        intro hzero
        rw [hzero, Nat.zero_mul] at hvalue
        omega
      have := le_greatestPower hvalue0 (hbound k (by omega))
      omega
  exact ⟨hdigits, hne, fun h => absurd h hhead, hle17, hbound, hplace⟩

end Binary64

end PresetWorkspace
