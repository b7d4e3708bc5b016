import PresetWorkspace.Document.Lexeme

/-!
# Rounding

Rounding keeps the order of magnitudes: within one power of two by
`nearestEven_mono`, and across powers because the significands of one never
pass those of the next. So the largest product that a reader can meet bounds
all others, and a number below the greatest finite one reads as a finite one
(`scaled_isSome`).
-/

namespace PresetWorkspace

open Document

namespace Binary64

/-! ## Nearest numbers -/

theorem div_le_nearestEven (num den : Nat) : num / den ≤ nearestEven num den := by
  unfold nearestEven
  simp only
  split
  · exact Nat.le_refl _
  · split <;> omega

theorem nearestEven_le (num den : Nat) : nearestEven num den ≤ num / den + 1 := by
  unfold nearestEven
  simp only
  split
  · exact Nat.le_succ _
  · split
    · exact Nat.le_refl _
    · have := Nat.mod_lt (num / den) (show 0 < 2 by decide)
      omega

theorem nearestEven_mono {num num' : Nat} (h : num ≤ num') (den : Nat) :
    nearestEven num den ≤ nearestEven num' den := by
  have hq : num / den ≤ num' / den := Nat.div_le_div_right h
  rcases Nat.lt_or_ge (num / den) (num' / den) with hlt | hge
  · exact Nat.le_trans (nearestEven_le num den) (Nat.le_trans hlt (div_le_nearestEven num' den))
  · have heq : num / den = num' / den := Nat.le_antisymm hq hge
    have hr : num % den ≤ num' % den := by
      have h1 := Nat.div_add_mod num den
      have h2 := Nat.div_add_mod num' den
      rw [← heq] at h2
      omega
    unfold nearestEven
    simp only
    rw [← heq]
    split
    · split
      · exact Nat.le_refl _
      · split <;> omega
    · split
      · split
        · omega
        · split <;> omega
      · rw [if_neg (by omega)]
        split <;> omega

/-! ## Bits -/

def unclamped (units den : Nat) : Nat :=
  let scale := Nat.log2 (units / den) - 52
  scale * hiddenBit + nearestEven units (den * Nat.pow 2 scale)

theorem nearestBits_eq (num den : Nat) : nearestBits num den = min infiniteBits (unclamped (num * unit) den) := rfl

theorem hiddenBit_double : Nat.pow 2 53 = 2 * hiddenBit := by decide

/-- A significand is below two hidden bits, and rounding it up does not pass them. -/
theorem nearestEven_le_of_log2 {units den scale : Nat} (h : Nat.log2 (units / den) ≤ scale + 52) :
    nearestEven units (den * Nat.pow 2 scale) ≤ 2 * hiddenBit := by
  refine Nat.le_trans (nearestEven_le _ _) ?_
  have hpow : Nat.pow 2 (scale + 53) = 2 * hiddenBit * Nat.pow 2 scale := by
    rw [← hiddenBit_double, Nat.mul_comm]
    exact Nat.pow_add 2 scale 53
  have hlt : units / den < 2 * hiddenBit * Nat.pow 2 scale := by
    rw [← hpow]
    exact Nat.lt_of_lt_of_le Nat.lt_log2_self (Nat.pow_le_pow_right (by decide) (by omega))
  rw [← Nat.div_div_eq_div_mul]
  exact (Nat.div_lt_iff_lt_mul (Nat.two_pow_pos scale)).mpr hlt

/-- Above the least power of two, a significand has its hidden bit. -/
theorem le_nearestEven_of_log2 {units den scale : Nat} (hscale : 0 < scale)
    (h : scale + 52 = Nat.log2 (units / den)) : hiddenBit ≤ nearestEven units (den * Nat.pow 2 scale) := by
  refine Nat.le_trans ?_ (div_le_nearestEven _ _)
  have hne : units / den ≠ 0 := by
    intro hzero
    rw [hzero, Nat.log2_zero] at h
    omega
  have hle : hiddenBit * Nat.pow 2 scale ≤ units / den := by
    have hpow : Nat.pow 2 (scale + 52) = hiddenBit * Nat.pow 2 scale := by
      rw [Nat.mul_comm]
      exact Nat.pow_add 2 scale 52
    rw [← hpow, h]
    exact Nat.log2_self_le hne
  rw [← Nat.div_div_eq_div_mul]
  exact (Nat.le_div_iff_mul_le (Nat.two_pow_pos scale)).mpr hle

theorem log2_mono {m n : Nat} (h : m ≤ n) : Nat.log2 m ≤ Nat.log2 n := by
  rcases Nat.eq_zero_or_pos m with rfl | hm
  · rw [Nat.log2_zero]
    exact Nat.zero_le _
  · rw [Nat.le_log2 (by omega)]
    exact Nat.le_trans (Nat.log2_self_le (by omega)) h

theorem unclamped_mono {units units' : Nat} (h : units ≤ units') (den : Nat) :
    unclamped units den ≤ unclamped units' den := by
  unfold unclamped
  simp only
  have hlog : Nat.log2 (units / den) ≤ Nat.log2 (units' / den) := log2_mono (Nat.div_le_div_right h)
  generalize hs : Nat.log2 (units / den) - 52 = s
  generalize hs' : Nat.log2 (units' / den) - 52 = s'
  -- From one scale to the next the bits start with the hidden bit again, one scale up.
  rcases Nat.lt_or_ge s s' with hlt | hge
  · have hlow : nearestEven units (den * Nat.pow 2 s) ≤ 2 * hiddenBit := nearestEven_le_of_log2 (by omega)
    have hhigh : hiddenBit ≤ nearestEven units' (den * Nat.pow 2 s') := le_nearestEven_of_log2 (by omega) (by omega)
    have hstep : s * hiddenBit + hiddenBit ≤ s' * hiddenBit := by
      rw [← Nat.succ_mul]
      exact Nat.mul_le_mul_right _ hlt
    omega
  · have heq : s = s' := by omega
    subst heq
    exact Nat.add_le_add_left (nearestEven_mono h _) _

theorem nearestBits_mono {num num' : Nat} (h : num ≤ num') (den : Nat) :
    nearestBits num den ≤ nearestBits num' den := by
  rw [nearestBits_eq, nearestBits_eq]
  have := unclamped_mono (Nat.mul_le_mul_right unit h) den
  omega

/-! ## Units -/

theorem unit_pos : 0 < unit := by decide +kernel

def greatest : Binary64 := ⟨false, infiniteBits - 1, by decide⟩

theorem significand_lt (x : Binary64) : x.significand < 2 * hiddenBit := by
  unfold significand scale
  have hpos : 0 < hiddenBit := by decide
  have hmod := Nat.mod_lt x.magnitude hpos
  have hdiv := Nat.div_add_mod x.magnitude hiddenBit
  generalize x.magnitude / hiddenBit = q at hdiv
  rcases q with _ | q
  · omega
  · rw [Nat.mul_succ, Nat.mul_comm] at hdiv
    rw [Nat.add_sub_cancel]
    omega

theorem hiddenBit_le_significand {x : Binary64} (h : 0 < x.scale) : hiddenBit ≤ x.significand := by
  unfold significand scale at *
  have hdiv := Nat.div_add_mod x.magnitude hiddenBit
  generalize x.magnitude / hiddenBit = q at hdiv h
  rcases q with _ | q
  · omega
  · rw [Nat.mul_succ, Nat.mul_comm] at hdiv
    rw [Nat.add_sub_cancel]
    omega

/-- A greater magnitude has at least one place more. -/
theorem succ_significand_le {x y : Binary64} (h : x.magnitude < y.magnitude) :
    (x.significand + 1) * Nat.pow 2 x.scale ≤ y.units := by
  have hscale : x.scale ≤ y.scale := Nat.sub_le_sub_right (Nat.div_le_div_right (Nat.le_of_lt h)) 1
  unfold units
  rcases Nat.lt_or_ge x.scale y.scale with hlt | hge
  · calc (x.significand + 1) * Nat.pow 2 x.scale
        ≤ 2 * hiddenBit * Nat.pow 2 x.scale := Nat.mul_le_mul_right _ x.significand_lt
      _ = hiddenBit * Nat.pow 2 (x.scale + 1) := by
        rw [Nat.mul_comm 2, Nat.mul_assoc, Nat.mul_comm 2]
        rfl
      _ ≤ hiddenBit * Nat.pow 2 y.scale := Nat.mul_le_mul_left _ (Nat.pow_le_pow_right (by decide) hlt)
      _ ≤ y.significand * Nat.pow 2 y.scale :=
        Nat.mul_le_mul_right _ (hiddenBit_le_significand (Nat.zero_lt_of_lt hlt))
  · have heq : x.scale = y.scale := Nat.le_antisymm hscale hge
    have hle : y.scale * hiddenBit ≤ x.magnitude := by
      rw [← heq]
      exact Nat.le_trans (Nat.mul_le_mul_right _ (Nat.sub_le _ _)) (Nat.div_mul_le_self _ _)
    unfold significand
    rw [heq]
    refine Nat.mul_le_mul_right _ ?_
    omega

theorem units_mono {x y : Binary64} (h : x.magnitude ≤ y.magnitude) : x.units ≤ y.units := by
  rcases Nat.eq_or_lt_of_le h with heq | hlt
  · have hunits : x.units = y.units := by
      unfold units significand scale
      rw [heq]
    exact Nat.le_of_eq hunits
  · exact Nat.le_trans (Nat.mul_le_mul_right _ (Nat.le_succ _)) (succ_significand_le hlt)

/-! ## Products of decimals -/

/-- The whole number that the greatest finite magnitude is. -/
def greatestWhole : Nat := greatest.units / unit

theorem ofRatio_mono {num num' : Nat} (h : num ≤ num') (den : Nat) :
    (ofRatio num den).magnitude ≤ (ofRatio num' den).magnitude := nearestBits_mono h den

theorem times_mono {x x' y y' : Binary64} (hx : x.magnitude ≤ x'.magnitude) (hy : y.magnitude ≤ y'.magnitude) :
    (x.times y).magnitude ≤ (x'.times y').magnitude :=
  ofRatio_mono (Nat.mul_le_mul (units_mono hx) (units_mono hy)) _

theorem pow_ten_mono {k k' : Nat} (h : k ≤ k') : Nat.pow 10 k ≤ Nat.pow 10 k' := Nat.pow_le_pow_right (by decide) h

theorem tenTo_mono {k k' : Nat} (h : k ≤ k') : (tenTo k).magnitude ≤ (tenTo k').magnitude :=
  ofRatio_mono (pow_ten_mono h) 1

theorem isFinite_of_le {x y : Binary64} (h : x.magnitude ≤ y.magnitude) (hy : y.isFinite = true) :
    x.isFinite = true := by
  unfold isFinite at *
  rw [decide_eq_true_eq] at *
  exact Nat.lt_of_le_of_lt h hy

/-- Seventeen digits are far below the greatest magnitude with any power of ten up to this one. -/
theorem times_tenTo_isFinite : ((ofRatio (Nat.pow 10 17) 1).times (tenTo 290)).isFinite = true := by decide +kernel

/-- With each power above, the greatest whole numbers below the greatest magnitude are rounded to finite ones. -/
theorem times_tenTo_isFinite_above : ∀ k < 18,
    ((ofRatio (greatestWhole / Nat.pow 10 (291 + k)) 1).times (tenTo (291 + k))).isFinite = true := by decide +kernel

theorem greatestWhole_lt : greatestWhole < Nat.pow 10 (greatestPower + 1) := by decide +kernel

theorem times_tenTo_isFinite_of_le {n k : Nat} (hdigits : n ≤ Nat.pow 10 17) (h : n * Nat.pow 10 k ≤ greatestWhole)
    (hk : k ≤ greatestPower) : ((ofRatio n 1).times (tenTo k)).isFinite = true := by
  rcases Nat.lt_or_ge k 291 with hlow | hhigh
  · exact isFinite_of_le (times_mono (ofRatio_mono hdigits 1) (tenTo_mono (Nat.le_of_lt_succ hlow)))
      times_tenTo_isFinite
  · obtain ⟨k, rfl⟩ := Nat.exists_eq_add_of_le hhigh
    have hn : n ≤ greatestWhole / Nat.pow 10 (291 + k) :=
      (Nat.le_div_iff_mul_le (Nat.pow_pos (by decide))).mpr h
    have hk18 : k < 18 := by
      unfold greatestPower at hk
      omega
    exact isFinite_of_le (times_mono (ofRatio_mono hn 1) (Nat.le_refl _)) (times_tenTo_isFinite_above k hk18)

theorem le_greatestPower {n k : Nat} (hn : n ≠ 0) (h : n * Nat.pow 10 k ≤ greatestWhole) : k ≤ greatestPower := by
  refine Nat.le_of_not_lt fun hgt => ?_
  have hpow : Nat.pow 10 (greatestPower + 1) ≤ Nat.pow 10 k := pow_ten_mono hgt
  have hmul : Nat.pow 10 k ≤ n * Nat.pow 10 k := Nat.le_mul_of_pos_left _ (Nat.pos_of_ne_zero hn)
  exact Nat.lt_irrefl _ (Nat.lt_of_le_of_lt (Nat.le_trans hpow (Nat.le_trans hmul h)) greatestWhole_lt)

end Binary64

open Binary64

/-- Seventeen digits and a power of ten that together stay below the greatest magnitude are a number. -/
theorem scaled_isSome {n k : Nat} (hdigits : n ≤ Nat.pow 10 17) (h : n * Nat.pow 10 k ≤ greatestWhole) :
    (scaled n (.ofNat k)).isSome = true := by
  unfold scaled
  simp only
  by_cases hn : n = 0
  · rw [if_pos hn]
    rfl
  · have hk := le_greatestPower hn h
    rw [if_neg hn, if_pos hk, if_pos (times_tenTo_isFinite_of_le hdigits h hk)]
    rfl

theorem scaled_negSucc_isSome (n k : Nat) : (scaled n (.negSucc k)).isSome = true := by
  unfold scaled
  simp only
  split
  · rfl
  · split <;> rfl

end PresetWorkspace
