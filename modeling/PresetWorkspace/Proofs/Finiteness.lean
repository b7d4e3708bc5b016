import PresetWorkspace.Document.Reader
import PresetWorkspace.Proofs.Rounding

/-!
# Numbers that are read

A number that is read is an integer of at most 64 bits or a finite ratio: what
would be infinite is out of range. A product is looked at before it is taken; a
quotient is not, but dividing by a power of ten moves a value up by one binade
at most (`dividedBy_le`).
-/

namespace PresetWorkspace

namespace Binary64

/-! ## Quotients -/

theorem nearestBits_le {num den scale : Nat} (h : num * unit / den < Nat.pow 2 (scale + 53)) :
    nearestBits num den ≤ (scale + 2) * hiddenBit := by
  have hlog : Nat.log2 (num * unit / den) ≤ scale + 52 := by
    rcases Nat.eq_zero_or_pos (num * unit / den) with hzero | hpos
    · rw [hzero, Nat.log2_zero]
      exact Nat.zero_le _
    · exact Nat.le_of_lt_succ ((Nat.log2_lt (Nat.ne_of_gt hpos)).mpr h)
  rw [nearestBits_eq]
  refine Nat.le_trans (Nat.min_le_right _ _) ?_
  unfold unclamped
  simp only
  generalize hs : Nat.log2 (num * unit / den) - 52 = s
  have hs' : s ≤ scale := by omega
  have hsignificand : nearestEven (num * unit) (den * Nat.pow 2 s) ≤ 2 * hiddenBit :=
    nearestEven_le_of_log2 (by omega)
  rw [Nat.add_mul]
  exact Nat.add_le_add (Nat.mul_le_mul_right _ hs') hsignificand

theorem units_lt (x : Binary64) : x.units < Nat.pow 2 (x.scale + 53) := by
  have hpow : Nat.pow 2 (x.scale + 53) = 2 * hiddenBit * Nat.pow 2 x.scale := by
    rw [← hiddenBit_double, Nat.mul_comm]
    exact Nat.pow_add 2 x.scale 53
  rw [hpow]
  exact Nat.mul_lt_mul_of_pos_right x.significand_lt (Nat.two_pow_pos _)

theorem scale_le_of_magnitude {x : Binary64} {scale : Nat} (h : x.magnitude ≤ (scale + 1) * hiddenBit) :
    x.scale ≤ scale := by
  have hdiv : x.magnitude / hiddenBit ≤ scale + 1 :=
    Nat.le_trans (Nat.div_le_div_right h) (Nat.le_of_eq (Nat.mul_div_cancel _ (by decide)))
  unfold Binary64.scale
  omega

/-- A quotient by one or more is at most a binade above what is divided. -/
theorem dividedBy_le {x y : Binary64} {scale : Nat} (hx : x.scale ≤ scale) (hy : unit ≤ y.units) :
    (x.dividedBy y).magnitude ≤ (scale + 2) * hiddenBit := by
  refine nearestBits_le ?_
  calc x.units * unit / y.units ≤ x.units * unit / unit := Nat.div_le_div_left hy unit_pos
    _ = x.units := Nat.mul_div_cancel _ unit_pos
    _ < Nat.pow 2 (x.scale + 53) := x.units_lt
    _ ≤ Nat.pow 2 (scale + 53) := Nat.pow_le_pow_right (by decide) (Nat.add_le_add_right hx 53)

theorem unit_le_tenTo (k : Nat) : unit ≤ (tenTo k).units := by
  have hone : unit ≤ (tenTo 0).units := by decide +kernel
  exact Nat.le_trans hone (units_mono (tenTo_mono (Nat.zero_le k)))

theorem isFinite_of_binade {x : Binary64} {scale : Nat} (h : x.magnitude ≤ (scale + 2) * hiddenBit)
    (hscale : scale ≤ 2044) : x.isFinite = true := by
  unfold isFinite infiniteBits
  rw [decide_eq_true_eq]
  have hpos : 0 < hiddenBit := by decide
  have : (scale + 2) * hiddenBit ≤ 2046 * hiddenBit := Nat.mul_le_mul_right _ (by omega)
  omega

end Binary64

open Binary64

namespace Document

/-! ## Scaled numbers -/

section
variable {n : Nat} (h : n < significandLimit)
include h

theorem ofRatio_isFinite : (ofRatio n 1).isFinite = true := by
  have hlimit : (ofRatio significandLimit 1).isFinite = true := by decide +kernel
  exact isFinite_of_le (ofRatio_mono (Nat.le_of_lt h) 1) hlimit

theorem scale_ofRatio_le : (ofRatio n 1).scale ≤ 1086 := by
  have hlimit : (ofRatio significandLimit 1).magnitude ≤ (1086 + 1) * hiddenBit := by decide +kernel
  exact scale_le_of_magnitude (Nat.le_trans (ofRatio_mono (Nat.le_of_lt h) 1) hlimit)

theorem scaled_isFinite {exponent : Int} {x : Binary64} (hx : scaled n exponent = some x) : x.isFinite = true := by
  unfold scaled at hx
  cases exponent with
  | ofNat k =>
    simp only at hx
    split at hx
    · cases hx
      exact ofRatio_isFinite h
    · split at hx
      · split at hx
        · cases hx
          assumption
        · cases hx
      · cases hx
  | negSucc k =>
    have honce (k : Nat) : ((ofRatio n 1).dividedBy (tenTo k)).magnitude ≤ (1086 + 2) * hiddenBit :=
      dividedBy_le (scale_ofRatio_le h) (unit_le_tenTo k)
    simp only at hx
    split at hx
    · cases hx
      exact isFinite_of_binade (honce _) (by decide)
    · split at hx
      · cases hx
        have hscale : ((ofRatio n 1).dividedBy (tenTo greatestPower)).scale ≤ 1087 :=
          scale_le_of_magnitude (honce greatestPower)
        exact isFinite_of_binade (dividedBy_le hscale (unit_le_tenTo _)) (by decide)
      · cases hx
        rfl

end

/-! ## Reading numbers -/

theorem gather_lt {limit : Nat} {n : Nat} (h : n < limit) (ds : List Char) : (gather limit n ds).1 < limit := by
  induction ds generalizing n with
  | nil => exact h
  | cons d ds ih =>
    unfold gather
    split
    · exact ih (by assumption)
    · exact h

/-- An integer has at most 64 bits, and a ratio is finite. -/
def IsFiniteNumber : Json.Number → Prop
  | .whole n => n.natAbs < significandLimit
  | .ratio x => x.isFinite = true

section
variable {negative : Bool} {n : Nat} {exponent : Int} {text rest : List Char} {v : Json.Number}

theorem isFinite_signed {x : Binary64} (h : x.isFinite = true) : (if negative then x.negate else x).isFinite = true := by
  cases negative <;> exact h

theorem integerNumber_finite (h : n < significandLimit) : IsFiniteNumber (integerNumber negative n) := by
  unfold integerNumber
  split
  · split
    · exact ofRatio_isFinite h
    · show (-(n : Int)).natAbs < significandLimit
      rwa [Int.natAbs_neg, Int.natAbs_natCast]
  · exact h

variable (hn : n < significandLimit)
include hn

theorem readScaled_finite (h : readScaled negative n exponent text = .ok (v, rest)) : IsFiniteNumber v := by
  unfold readScaled at h
  split at h
  · next x hx =>
    cases h
    exact isFinite_signed (scaled_isFinite hn hx)
  · cases h

theorem readExponentDigits_finite {down : Bool} (h : readExponentDigits negative n exponent down text = .ok (v, rest)) :
    IsFiniteNumber v := by
  unfold readExponentDigits at h
  split at h
  · cases h
  · cases h
  · split at h
    · exact readScaled_finite hn h
    · split at h
      · cases h
      · cases h
        exact isFinite_signed (by rfl)

theorem readExponent_finite (h : readExponent negative n exponent text = .ok (v, rest)) : IsFiniteNumber v := by
  unfold readExponent at h
  split at h <;> exact readExponentDigits_finite hn h

theorem readAfterDigits_finite (h : readAfterDigits negative n exponent text = .ok (v, rest)) : IsFiniteNumber v := by
  unfold readAfterDigits at h
  split at h
  · exact readExponent_finite hn h
  · exact readExponent_finite hn h
  · exact readScaled_finite hn h

theorem readFraction_finite (h : readFraction negative n exponent text = .ok (v, rest)) : IsFiniteNumber v := by
  unfold readFraction at h
  split at h
  · cases h
  · cases h
  · exact readAfterDigits_finite (gather_lt hn _) h

theorem readAfterInteger_finite {dropped : Nat} (h : readAfterInteger negative n dropped text = .ok (v, rest)) :
    IsFiniteNumber v := by
  unfold readAfterInteger at h
  split at h
  · exact readFraction_finite hn h
  · exact readExponent_finite hn h
  · exact readExponent_finite hn h
  · split at h
    · cases h
      exact integerNumber_finite hn
    · exact readScaled_finite hn h

end

section
variable {text rest : List Char} {v : Json.Number}

theorem readMagnitude_finite {negative : Bool} (h : readMagnitude negative text = .ok (v, rest)) : IsFiniteNumber v := by
  unfold readMagnitude at h
  split at h
  · cases h
  · cases h
  · cases h
  · exact readAfterInteger_finite (gather_lt (by decide) _) h

theorem readNumber_finite (h : readNumber text = .ok (v, rest)) : IsFiniteNumber v := by
  unfold readNumber at h
  split at h <;> exact readMagnitude_finite h

/-- As a binary64 value, a number that is read is finite. -/
theorem acceptRatio_finite {x : Binary64} (hv : IsFiniteNumber v) (h : acceptRatio v = .ok x) : x.isFinite = true := by
  cases v with
  | whole n =>
    cases h
    have hfinite : (ofRatio n.natAbs 1).isFinite = true := ofRatio_isFinite hv
    unfold ofInt
    split <;> exact hfinite
  | ratio y =>
    cases h
    exact hv

end

end Document

end PresetWorkspace
