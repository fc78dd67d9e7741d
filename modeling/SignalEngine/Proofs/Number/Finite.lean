import SignalEngine.Proofs.Number.Scientific

namespace SignalEngine.Number

open Float.Model (Format UnpackedFloat)
open Float.Model.UnpackedFloat (Sign Accuracy ExtendedMantissa packComponents
  shiftToTargetExponent roundWithAccuracy)

theorem isNaN_eq (x : Float) : x.isNaN = (unpacked x).isNaN := rfl

theorem isInf_eq (x : Float) : x.isInf = (unpacked x).isInf := rfl

theorem isFinite_iff {x : Float} : x.isFinite = true ↔ x.isNaN = false ∧ x.isInf = false := by
  rw [isFinite_eq, isNaN_eq, isInf_eq]
  cases unpacked x <;>
    simp [UnpackedFloat.isFinite, UnpackedFloat.isNaN, UnpackedFloat.isInf]

theorem isFinite_of_unpacked {x : Float} {u : UnpackedFloat} (h : unpacked x = u)
    (hu : u.isFinite = true) : x.isFinite = true := by
  rw [isFinite_eq, h]
  exact hu

theorem isFinite_unpack {s : Sign} {e : BitVec 11} (m : BitVec 52) (h : e ≠ -1#11) :
    (UnpackedFloat.unpack .binary64 (packComponents .binary64 s e m)).isFinite = true := by
  by_cases he : e = 0#11
  · subst he
    by_cases hm : m = 0#52
    · subst hm
      rw [unpack_zero]
      rfl
    · rw [unpack_subnormal hm]
      rfl
  · rw [unpack_normal h he]
    rfl

theorem ofUnpacked_finite (s : Sign) {m : Nat} {e : Int} (hm : 0 < m) :
    (e ≤ 971 ∧ (ofUnpacked (.finite s m e hm)).isFinite = true) ∨
      (971 < e ∧ unpacked (ofUnpacked (.finite s m e hm)) = .infinity s) := by
  have hpack : unpacked (ofUnpacked (.finite s m e hm)) =
      UnpackedFloat.unpack .binary64 (UnpackedFloat.pack .binary64 (.finite s m e hm)) := rfl
  rw [isFinite_eq, hpack]
  simp only [UnpackedFloat.pack, Format.exponentBias, Format.mantissaBits]
  norm_num only
  split
  · refine .inr ⟨by omega, ?_⟩
    exact unpack_infinity s
  · refine .inl ⟨by omega, ?_⟩
    split
    · apply isFinite_unpack
      intro h
      have hbits := congrArg BitVec.toNat h
      rw [BitVec.toNat_ofNat] at hbits
      have hones : (-1#11).toNat = 2047 := rfl
      omega
    · exact isFinite_unpack _ (by decide)

theorem isNaN_ofUnpacked {u : UnpackedFloat} (h : u.isNaN = false) :
    (ofUnpacked u).isNaN = false := by
  cases u with
  | infinity s => cases s <;> decide
  | notANumber => cases h
  | zero s => cases s <;> decide
  | finite s m e hm =>
      rcases ofUnpacked_finite s (e := e) hm with ⟨-, hfinite⟩ | ⟨-, hinfinite⟩
      · exact (isFinite_iff.1 hfinite).1
      · rw [isNaN_eq, hinfinite]
        rfl

theorem isFinite_neg {x : Float} (h : x.isFinite = true) : (-x).isFinite = true := by
  rcases unpacked_of_isFinite h with ⟨hzero, -⟩ | ⟨m, e, hc, hfinite, he, -⟩
  · rw [neg_eq, hzero]
    cases sign x <;> decide
  · rw [neg_eq, hfinite]
    rcases ofUnpacked_finite (-sign x) (e := e) hc.pos with ⟨-, hneg⟩ | ⟨hlarge, -⟩
    · exact hneg
    · omega

theorem isFinite_withSign (negative : Bool) {x : Float} (h : x.isFinite = true) :
    (withSign negative x).isFinite = true := by
  cases negative with
  | false => exact h
  | true => exact isFinite_neg h

theorem isFinite_roundWithAccuracy (s : Sign) (m : Nat) (e : Int) (a : Accuracy) :
    (roundWithAccuracy .binary64 s m e a).isFinite = true := by
  simp only [roundWithAccuracy]
  split <;> rfl

theorem roundedMantissa_le (em : ExtendedMantissa) : em.roundedMantissa ≤ em.mantissa + 1 := by
  obtain ⟨m, round, sticky⟩ := em
  cases round <;> cases sticky <;>
    simp only [ExtendedMantissa.roundedMantissa, ExtendedMantissa.accuracy,
      Accuracy.roundToNearestEven] <;> omega

theorem mantissa_shiftRight_le (em : ExtendedMantissa) (k : Nat) :
    (em >>> k).mantissa ≤ em.mantissa := by
  induction k with
  | zero => exact le_rfl
  | succ k ih => exact (Nat.div_le_self _ 2).trans ih

theorem shiftToTargetExponent_bounds (m : Nat) (e : Int) (a : Accuracy) :
    (shiftToTargetExponent .binary64 m e a).1.mantissa ≤ m ∧
      (shiftToTargetExponent .binary64 m e a).2 = max e (max (m.log2 + e - 52) (-1074)) := by
  rw [shiftToTargetExponent, targetExponent_eq, Float.Model.UnpackedFloat.shiftToExponent]
  constructor
  · apply (mantissa_shiftRight_le _ _).trans
    rw [mantissa_ofMantissaAndAccuracy]
  · dsimp only
    omega

/-- Rounding does not carry a number of moderate size beyond the largest one. -/
theorem isFinite_ofUnpacked_round (s : Sign) {m : Nat} {e : Int} (a : Accuracy)
    (hm : m < 2 ^ 200) (he : e ≤ 200) :
    (ofUnpacked (roundWithAccuracy .binary64 s m e a)).isFinite = true := by
  have hlog {n : Nat} (hn : n ≤ 2 ^ 200) : n.log2 ≤ 200 := by
    by_cases hzero : n = 0
    · rw [hzero]
      decide
    · exact Nat.le_of_lt_succ ((Nat.log2_lt hzero).2 (hn.trans_lt (by decide)))
  obtain ⟨hmantissa, hexponent⟩ := shiftToTargetExponent_bounds m e a
  simp only [roundWithAccuracy]
  generalize shiftToTargetExponent .binary64 m e a = first at *
  have hrounded := roundedMantissa_le first.1
  obtain ⟨-, hexponent'⟩ :=
    shiftToTargetExponent_bounds first.1.roundedMantissa first.2 .exact
  generalize shiftToTargetExponent .binary64 first.1.roundedMantissa first.2 .exact = last at *
  have hlogFirst := hlog hm.le
  have hlogLast := hlog (show first.1.roundedMantissa ≤ 2 ^ 200 by omega)
  split
  · cases s <;> decide
  · rename_i hne
    rcases ofUnpacked_finite s (e := last.2) (Nat.pos_of_ne_zero hne) with
      ⟨-, hfinite⟩ | ⟨hlarge, -⟩
    · exact hfinite
    · omega

theorem isNaN_eq_false {u : UnpackedFloat} (h : u.isFinite = true) : u.isNaN = false := by
  cases u <;> first | rfl | cases h

theorem isNaN_round (s : Sign) (m : Nat) (e : Int) (a : Accuracy) :
    (ofUnpacked (roundWithAccuracy .binary64 s m e a)).isNaN = false :=
  isNaN_ofUnpacked (isNaN_eq_false (isFinite_roundWithAccuracy s m e a))

theorem isNaN_unpacked_ofScientific {c : Nat} (hpos : 0 < c) (k : Int) :
    (UnpackedFloat.ofScientific .binary64 c k).isNaN = false := by
  rw [UnpackedFloat.ofScientific, dif_neg hpos.ne']
  split
  · rfl
  split
  · rfl
  split
  · exact isNaN_eq_false (isFinite_roundWithAccuracy _ _ _ _)
  · exact isNaN_eq_false (isFinite_roundWithAccuracy _ _ _ _)

theorem HasValue.isNaN_mul {x y : Float} {n k : Nat} (hx : HasValue x n) (hy : HasValue y k) :
    (x * y).isNaN = false := by
  obtain ⟨m, e, hc, hx, -⟩ := hx
  obtain ⟨m', e', hc', hy, -⟩ := hy
  rw [mul_eq, hx, hy]
  exact isNaN_round _ _ _ _

theorem HasValue.isNaN_div {x y : Float} {n k : Nat} (hx : HasValue x n) (hy : HasValue y k) :
    (x / y).isNaN = false := by
  obtain ⟨m, e, hc, hx, -⟩ := hx
  obtain ⟨m', e', hc', hy, -⟩ := hy
  rw [div_eq, hx, hy]
  exact isNaN_round _ _ _ _

theorem isNaN_ofScientific {c : Nat} (hpos : 0 < c) (below : Bool) (k : Nat) :
    (Float.ofScientific c below k).isNaN = false := by
  unfold Float.ofScientific
  split
  · rename_i hfast
    have hc := hasValue_toFloat hpos hfast.1
    have hk := hasValue_table (show k < 23 by omega)
    dsimp only
    split
    · exact hc.isNaN_div hk
    · exact hc.isNaN_mul hk
  · exact isNaN_ofUnpacked (isNaN_unpacked_ofScientific hpos _)

theorem isNaN_ofDecimal (coefficient : Nat) (exponent : Int) :
    (ofDecimal coefficient exponent).isNaN = false := by
  unfold ofDecimal
  dsimp only
  split
  · decide
  rename_i hsmall
  have hpos : 0 < coefficient := Nat.pos_of_ne_zero fun h => hsmall (.inl h)
  split
  · decide
  split
  · exact isNaN_ofScientific hpos _ _
  · exact isNaN_ofScientific hpos _ _

theorem isFinite_value {n : Numeral} (h : n.value.isInf = false) : n.value.isFinite = true :=
  isFinite_iff.2 ⟨isNaN_ofDecimal _ _, h⟩

theorem ofScientific_zero {c : Nat} (hpos : 0 < c) :
    UnpackedFloat.ofScientific .binary64 c 0 =
      roundWithAccuracy .binary64 .positive (c <<< 53 * 10 ^ 0) (-53 + 0) .exact := by
  have hbits : (2 : Int) ^ Format.binary64.exponentBits = 2048 := rfl
  rw [UnpackedFloat.ofScientific, dif_neg hpos.ne', hbits, if_neg (by decide), if_neg (by omega),
    if_pos le_rfl]
  rfl

theorem isFinite_ofNat {n : Nat} (h : n < 2 ^ 64) : (Float.ofNat n).isFinite = true := by
  by_cases hzero : n = 0
  · subst hzero
    decide
  have hpos := Nat.pos_of_ne_zero hzero
  change (Float.ofScientific n false 0).isFinite = true
  by_cases hsmall : n < 2 ^ 53
  · obtain ⟨m, e, hc, hx, -, hvalue⟩ := hasValue_toFloat hpos hsmall
    have hcovers : Covers m e (n * 10 ^ 0) := by
      rw [pow_zero, mul_one, ← hvalue]
      exact hc.covers_self
    rw [ofScientific_whole hc hpos hcovers (by decide), ← hx, ofUnpacked_unpacked]
    exact isFinite_of_unpacked hx rfl
  · unfold Float.ofScientific
    rw [dif_neg fun hfast => hsmall hfast.1]
    change (ofUnpacked (UnpackedFloat.ofScientific .binary64 n 0)).isFinite = true
    rw [ofScientific_zero hpos]
    apply isFinite_ofUnpacked_round
    · rw [Nat.shiftLeft_eq]
      omega
    · decide

theorem isFinite_ofInt {n : Int} (hlow : -2 ^ 64 < n) (hhigh : n < 2 ^ 64) :
    (Float.ofInt n).isFinite = true := by
  cases n with
  | ofNat n => exact isFinite_ofNat (by rw [Int.ofNat_eq_natCast] at hhigh; omega)
  | negSucc n => exact isFinite_neg (isFinite_ofNat (by omega))

theorem lt_iff (x y : Float) : x < y ↔ (unpacked x).lt (unpacked y) = true :=
  decide_eq_true_iff

theorem le_iff (x y : Float) : x ≤ y ↔ (unpacked x).le (unpacked y) = true :=
  decide_eq_true_iff

theorem beq_eq (x y : Float) : (x == y) = (unpacked x).beq (unpacked y) := rfl

theorem sub_eq (x y : Float) : x - y = ofUnpacked (.sub .binary64 (unpacked x) (unpacked y)) := rfl

theorem neg_infinity_eq : -infinity = ofUnpacked (.infinity .negative) := by decide

theorem unpacked_neg_infinity : unpacked (-infinity) = .infinity .negative := by
  rw [neg_infinity_eq]
  exact unpack_infinity .negative

theorem neg_infinity_sub_lt {x b : Float} (hx : x.isFinite = true) (hb : b.isFinite = true) :
    -infinity - x < b := by
  have hsub : -infinity - x = -infinity := by
    rw [sub_eq, unpacked_neg_infinity, neg_infinity_eq]
    rcases unpacked_of_isFinite hx with ⟨h, -⟩ | ⟨m, e, hc, h, -⟩
    · rw [h]
      rfl
    · rw [h]
      rfl
  rw [hsub, lt_iff, unpacked_neg_infinity]
  rcases unpacked_of_isFinite hb with ⟨h, -⟩ | ⟨m, e, hc, h, -⟩
  · rw [h]
    rfl
  · rw [h]
    rfl

/-- The smaller of a number and one is finite, unless it is the lowest number of all. -/
theorem smaller_one (x : Float) :
    (smaller x 1.0).isFinite = true ∨ smaller x 1.0 = -infinity := by
  by_cases h : x.isFinite = true
  · left
    unfold smaller
    split
    · decide
    split
    · decide
    · exact h
  · rcases eq_of_not_isFinite h with ⟨-, rfl⟩ | ⟨-, -, rfl⟩ | ⟨-, -, rfl⟩
    · exact .inl (by decide)
    · exact .inl (by decide)
    · exact .inr rfl

/-- What has grown by a finite step, and is at most one, is finite. -/
theorem isFinite_of_not_lt {x last step : Float} (hlast : last.isFinite = true)
    (hstep : step.isFinite = true) (h : ¬ smaller x 1.0 - last < step) :
    (smaller x 1.0).isFinite = true := by
  rcases smaller_one x with hfinite | hlowest
  · exact hfinite
  · rw [hlowest] at h
    exact absurd (neg_infinity_sub_lt hlast hstep) h

end SignalEngine.Number
