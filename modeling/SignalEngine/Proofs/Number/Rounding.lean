import SignalEngine.Proofs.Number.Unpacked

/-!
Rounding. The operations on numbers compute an exact result up to a few residual bits and round it;
a result is the number whose rounding interval the exact value lies in.
-/

namespace SignalEngine.Number

open Float.Model (Format UnpackedFloat totalExponent)
open Float.Model.UnpackedFloat (Sign Accuracy ExtendedMantissa accuracyOfFraction shiftToExponent
  shiftToTargetExponent roundWithAccuracy)

/-- A mantissa and its residual bits say where the value lies that they were cut off from. -/
structure Describes (em : ExtendedMantissa) (v : ℚ) : Prop where
  le : em.mantissa ≤ v
  lt : v < em.mantissa + 1
  roundBit : em.roundBit = true ↔ em.mantissa + 1 / 2 ≤ v
  stickyBit : em.stickyBit = true ↔ v ≠ em.mantissa ∧ v ≠ em.mantissa + 1 / 2

/-- The natural number that is nearest to a value, the even one of two. -/
structure Nearest (v : ℚ) (r : Nat) : Prop where
  low : r - 1 / 2 ≤ v
  high : v ≤ r + 1 / 2
  strict : r % 2 = 1 → r - 1 / 2 < v ∧ v < r + 1 / 2

theorem Describes.residual {em : ExtendedMantissa} {v : ℚ} (h : Describes em v) :
    (em.roundBit || em.stickyBit) = true ↔ v ≠ em.mantissa := by
  rw [Bool.or_eq_true, h.roundBit, h.stickyBit]
  constructor
  · rintro (hr | hs)
    · intro hv
      linarith
    · exact hs.1
  · intro hv
    by_cases hhalf : v = em.mantissa + 1 / 2
    · exact .inl hhalf.ge
    · exact .inr ⟨hv, hhalf⟩

theorem Describes.shiftRightOne {em : ExtendedMantissa} {v : ℚ} (h : Describes em v) :
    Describes em.shiftRightOne (v / 2) := by
  have hle := h.le
  have hlt := h.lt
  have hres := h.residual
  have hdiv := Nat.div_add_mod em.mantissa 2
  have hcast : (2 * (em.mantissa / 2 : Nat) + (em.mantissa % 2 : Nat) : ℚ) = em.mantissa := by
    exact_mod_cast hdiv
  rcases Nat.mod_two_eq_zero_or_one em.mantissa with hmod | hmod
  · rw [hmod, Nat.cast_zero, add_zero] at hcast
    refine ⟨?_, ?_, ?_, ?_⟩ <;> simp only [ExtendedMantissa.shiftRightOne, hmod]
    · linarith
    · linarith
    · apply iff_of_false (by decide)
      intro hv
      linarith
    · rw [hres]
      constructor
      · intro hv
        refine ⟨?_, by intro hv'; linarith⟩
        intro hv'
        exact hv (by linarith)
      · rintro ⟨hv, -⟩ hv'
        exact hv (by linarith)
  · rw [hmod, Nat.cast_one] at hcast
    refine ⟨?_, ?_, ?_, ?_⟩ <;> simp only [ExtendedMantissa.shiftRightOne, hmod]
    · linarith
    · linarith
    · exact iff_of_true (by decide) (by linarith)
    · rw [hres]
      constructor
      · intro hv
        refine ⟨by intro hv'; linarith, ?_⟩
        intro hv'
        exact hv (by linarith)
      · rintro ⟨-, hv⟩ hv'
        exact hv (by linarith)

theorem Describes.shiftRight {em : ExtendedMantissa} {v : ℚ} (h : Describes em v) (k : Nat) :
    Describes (em >>> k) (v / 2 ^ k) := by
  induction k with
  | zero =>
      rw [pow_zero, div_one]
      exact h
  | succ k ih =>
      have hstep := ih.shiftRightOne
      rwa [div_div, ← pow_succ] at hstep

theorem Describes.roundedMantissa {em : ExtendedMantissa} {v : ℚ} {r : Nat} (h : Describes em v)
    (hr : Nearest v r) : em.roundedMantissa = r := by
  have hle := h.le
  have hlt := h.lt
  have hlow := hr.low
  have hhigh := hr.high
  have hrle : r < em.mantissa + 2 := by
    have : (r : ℚ) < (em.mantissa + 2 : Nat) := by push_cast; linarith
    exact_mod_cast this
  have hler : em.mantissa < r + 1 := by
    have : (em.mantissa : ℚ) < (r + 1 : Nat) := by push_cast; linarith
    exact_mod_cast this
  have hround := h.roundBit
  have hsticky := h.stickyBit
  have hstrict := hr.strict
  obtain ⟨m, round, sticky⟩ := em
  dsimp only at *
  obtain rfl | rfl : r = m ∨ r = m + 1 := by omega
  · cases round <;> cases sticky <;>
      simp only [ExtendedMantissa.roundedMantissa, ExtendedMantissa.accuracy,
        Accuracy.roundToNearestEven]
    · have hv : v = r + 1 / 2 := by
        have := hround.mp rfl
        linarith
      rcases Nat.mod_two_eq_zero_or_one r with hmod | hmod
      · omega
      · have := (hstrict hmod).2
        linarith
    · have hv := hround.mp rfl
      have hv' := (hsticky.mp rfl).2
      exact absurd (le_antisymm hhigh hv) hv'
  · push_cast at *
    have hv : (m : ℚ) + 1 / 2 ≤ v := by linarith
    rw [hround.mpr hv]
    cases sticky <;>
      simp only [ExtendedMantissa.roundedMantissa, ExtendedMantissa.accuracy,
        Accuracy.roundToNearestEven]
    · have hv' : v = m + 1 / 2 := by
        by_contra hne
        have := hsticky.mpr ⟨by intro h'; linarith, hne⟩
        exact absurd this (by decide)
      rcases Nat.mod_two_eq_zero_or_one m with hmod | hmod
      · have := (hstrict (by omega)).1
        linarith
      · omega

theorem describes_add {m : Nat} {x : ℚ} {round sticky : Bool} (hx : 0 ≤ x) (hx' : x < 1)
    (hround : round = true ↔ 1 / 2 ≤ x) (hsticky : sticky = true ↔ x ≠ 0 ∧ x ≠ 1 / 2) :
    Describes ⟨m, round, sticky⟩ (m + x) where
  le := le_add_of_nonneg_right hx
  lt := by
    rw [add_lt_add_iff_left]
    exact hx'
  roundBit := by rw [hround, add_le_add_iff_left]
  stickyBit := by rw [hsticky, ne_eq, ne_eq, ne_eq, ne_eq, add_eq_left, add_right_inj]

theorem describes_fraction {n d : Nat} (hd : 0 < d) :
    Describes (.ofMantissaAndAccuracy (n / d) (accuracyOfFraction (n % d) d)) ((n : ℚ) / d) := by
  have hd' : (0 : ℚ) < d := by exact_mod_cast hd
  have hlt : ((n % d : Nat) : ℚ) < d := by exact_mod_cast Nat.mod_lt n hd
  have hnonneg : (0 : ℚ) ≤ ((n % d : Nat) : ℚ) / d := by positivity
  have hfrac : ((n % d : Nat) : ℚ) / d < 1 := (div_lt_one hd').mpr hlt
  have hsplit : (n : ℚ) / d = (n / d : Nat) + ((n % d : Nat) : ℚ) / d := by
    rw [eq_comm, eq_div_iff hd'.ne', add_mul, div_mul_cancel₀ _ hd'.ne']
    have := Nat.div_add_mod n d
    rw [mul_comm d] at this
    exact_mod_cast this
  rw [hsplit]
  generalize n % d = f at *
  have hhalf : (1 : ℚ) / 2 ≤ f / d ↔ d ≤ 2 * f := by
    rw [div_le_div_iff₀ two_pos hd', one_mul, mul_comm]
    exact_mod_cast Iff.rfl
  have hhalf' : (f : ℚ) / d = 1 / 2 ↔ 2 * f = d := by
    rw [div_eq_div_iff hd'.ne' two_ne_zero, one_mul, mul_comm]
    exact_mod_cast Iff.rfl
  have hzero : (f : ℚ) / d = 0 ↔ f = 0 := by
    rw [div_eq_zero_iff, or_iff_left hd'.ne']
    exact_mod_cast Iff.rfl
  rw [accuracyOfFraction]
  by_cases hf : f = 0
  · rw [if_pos hf]
    apply describes_add hnonneg hfrac
    · exact iff_of_false Bool.false_ne_true (by rw [hhalf]; omega)
    · exact iff_of_false Bool.false_ne_true (by rw [ne_eq, hzero]; exact fun h => h.1 hf)
  rw [if_neg hf]
  rcases lt_trichotomy (2 * f) d with hcmp | hcmp | hcmp
  · rw [Nat.compare_eq_lt.2 hcmp]
    apply describes_add hnonneg hfrac
    · exact iff_of_false Bool.false_ne_true (by rw [hhalf]; omega)
    · exact iff_of_true rfl ⟨mt hzero.1 hf, mt hhalf'.1 hcmp.ne⟩
  · rw [Nat.compare_eq_eq.2 hcmp]
    apply describes_add hnonneg hfrac
    · exact iff_of_true rfl (hhalf.2 hcmp.ge)
    · exact iff_of_false Bool.false_ne_true fun h => h.2 (hhalf'.2 hcmp)
  · rw [Nat.compare_eq_gt.2 hcmp]
    apply describes_add hnonneg hfrac
    · exact iff_of_true rfl (hhalf.2 hcmp.le)
    · exact iff_of_true rfl ⟨mt hzero.1 hf, mt hhalf'.1 hcmp.ne'⟩

theorem describes_exact (n : Nat) : Describes (.ofMantissaAndAccuracy n .exact) n := by
  have h := describes_fraction Nat.one_pos (n := n)
  rwa [Nat.div_one, Nat.mod_one, Nat.cast_one, div_one] at h

theorem targetExponent_eq (m : Nat) (e : Int) :
    Format.binary64.targetExponent (totalExponent m e) = max (m.log2 + e - 52) (-1074) := by
  simp only [Format.targetExponent, totalExponent, Format.mantissaBits, Format.minExponent]
  norm_num
  omega

theorem mantissa_ofMantissaAndAccuracy (m : Nat) (a : Accuracy) :
    (ExtendedMantissa.ofMantissaAndAccuracy m a).mantissa = m := by
  cases a with
  | exact => rfl
  | inexact o => cases o <;> rfl

theorem shiftToExponent_eq (m : Nat) {e t : Int} (a : Accuracy) (h : e ≤ t) :
    shiftToExponent m e a t =
      (ExtendedMantissa.ofMantissaAndAccuracy m a >>> (t - e).toNat, t) := by
  rw [shiftToExponent, Prod.mk.injEq]
  refine ⟨rfl, ?_⟩
  omega

theorem shiftToTargetExponent_of_lt {m : Nat} {e : Int} (hm : m < 2 ^ 53) (he : -1074 ≤ e) :
    (shiftToTargetExponent .binary64 m e .exact).1.mantissa = m ∧
      (shiftToTargetExponent .binary64 m e .exact).2 = e := by
  have hlog : m.log2 ≤ 52 := by
    by_cases h : m = 0
    · simp [h]
    · exact Nat.le_of_lt_succ ((Nat.log2_lt h).mpr hm)
  have hamount : (max (m.log2 + e - 52) (-1074) - e).toNat = 0 := by omega
  rw [shiftToTargetExponent, targetExponent_eq]
  simp only [shiftToExponent, hamount]
  exact ⟨rfl, by simp⟩

theorem shiftToTargetExponent_carry {e : Int} (he : -1074 ≤ e) :
    (shiftToTargetExponent .binary64 (2 ^ 53) e .exact).1.mantissa = 2 ^ 52 ∧
      (shiftToTargetExponent .binary64 (2 ^ 53) e .exact).2 = e + 1 := by
  have hamount : (max (((2 ^ 53 : Nat).log2 : Int) + e - 52) (-1074) - e).toNat = 1 := by
    rw [Nat.log2_two_pow]
    omega
  rw [shiftToTargetExponent, targetExponent_eq]
  simp only [shiftToExponent, hamount]
  exact ⟨by decide, rfl⟩

theorem shiftToTargetExponent_of_le {m : Nat} {e t : Int} {a : Accuracy}
    (ht : t = max (m.log2 + e - 52) (-1074)) (hle : e ≤ t) :
    shiftToTargetExponent .binary64 m e a =
      (ExtendedMantissa.ofMantissaAndAccuracy m a >>> (t - e).toNat, t) := by
  rw [shiftToTargetExponent, targetExponent_eq, ← ht, shiftToExponent_eq m a hle]

theorem roundWithAccuracy_of_zero {s : Sign} {m : Nat} {e t : Int} {a : Accuracy}
    (ht : t = max (m.log2 + e - 52) (-1074)) (hle : e ≤ t)
    (hr : (ExtendedMantissa.ofMantissaAndAccuracy m a >>> (t - e).toNat).roundedMantissa = 0) :
    roundWithAccuracy .binary64 s m e a = .zero s := by
  obtain ⟨hman, -⟩ := shiftToTargetExponent_of_lt (m := 0) (e := t) (by decide) (by omega)
  have hfirst := shiftToTargetExponent_of_le (a := a) ht hle
  simp only [roundWithAccuracy, hfirst, hr, hman, dif_pos]

theorem roundWithAccuracy_of_lt {s : Sign} {m r : Nat} {e t : Int} {a : Accuracy}
    (ht : t = max (m.log2 + e - 52) (-1074)) (hle : e ≤ t) (hpos : 0 < r) (hlt : r < 2 ^ 53)
    (hr : (ExtendedMantissa.ofMantissaAndAccuracy m a >>> (t - e).toNat).roundedMantissa = r) :
    roundWithAccuracy .binary64 s m e a = .finite s r t hpos := by
  obtain ⟨hman, hexp⟩ := shiftToTargetExponent_of_lt (e := t) hlt (by omega)
  have hfirst := shiftToTargetExponent_of_le (a := a) ht hle
  simp only [roundWithAccuracy, hfirst, hr, hman, hexp, dif_neg hpos.ne']

theorem roundWithAccuracy_of_carry {s : Sign} {m : Nat} {e t : Int} {a : Accuracy}
    (ht : t = max (m.log2 + e - 52) (-1074)) (hle : e ≤ t)
    (hr : (ExtendedMantissa.ofMantissaAndAccuracy m a >>> (t - e).toNat).roundedMantissa = 2 ^ 53) :
    roundWithAccuracy .binary64 s m e a = .finite s (2 ^ 52) (t + 1) (by decide) := by
  obtain ⟨hman, hexp⟩ := shiftToTargetExponent_carry (e := t) (by omega)
  have hfirst := shiftToTargetExponent_of_le (a := a) ht hle
  simp only [roundWithAccuracy, hfirst, hr, hman, hexp]
  rw [dif_neg (by decide)]

/-- The midpoint between a number and the number below, in quarters of the last place. -/
def lowQuarters (m : Nat) (e : Int) : Nat :=
  4 * m - if NarrowBelow m e then 1 else 2

/-- The rounding interval of `m * 2 ^ e`: the numbers between the midpoints to its neighbours, the
midpoints included when `m` is even. -/
structure Covers (m : Nat) (e : Int) (w : ℚ) : Prop where
  low : lowQuarters m e * 2 ^ (e - 2) ≤ w
  high : w ≤ (4 * m + 2 : Nat) * 2 ^ (e - 2)
  strict : m % 2 = 1 → lowQuarters m e * 2 ^ (e - 2) < w ∧ w < (4 * m + 2 : Nat) * 2 ^ (e - 2)

theorem two_zpow_pos (e : Int) : (0 : ℚ) < 2 ^ e :=
  zpow_pos two_pos e

theorem cast_lowQuarters {m : Nat} (e : Int) (hm : 0 < m) :
    (lowQuarters m e : ℚ) = 4 * m - if NarrowBelow m e then 1 else 2 := by
  unfold lowQuarters
  split <;> rw [Nat.cast_sub (by omega)] <;> push_cast <;> rfl

theorem le_cast_lowQuarters {m : Nat} (e : Int) (hm : 0 < m) :
    (4 * m - 2 : ℚ) ≤ lowQuarters m e := by
  rw [cast_lowQuarters e hm]
  split <;> linarith

theorem Covers.low_le {m : Nat} {e : Int} {w : ℚ} (h : Covers m e w) :
    lowQuarters m e ≤ 4 * (w / 2 ^ e) := by
  have := h.low
  rw [zpow_sub₀ two_ne_zero, ← mul_div_assoc, div_le_iff₀ (by positivity)] at this
  rw [← mul_div_assoc, le_div_iff₀ (two_zpow_pos e)]
  linarith

theorem Covers.le_high {m : Nat} {e : Int} {w : ℚ} (h : Covers m e w) :
    4 * (w / 2 ^ e) ≤ 4 * m + 2 := by
  have := h.high
  rw [zpow_sub₀ two_ne_zero, ← mul_div_assoc, le_div_iff₀ (by positivity)] at this
  rw [← mul_div_assoc, div_le_iff₀ (two_zpow_pos e)]
  push_cast at this
  linarith

theorem Covers.odd {m : Nat} {e : Int} {w : ℚ} (h : Covers m e w) (hm : m % 2 = 1) :
    lowQuarters m e < 4 * (w / 2 ^ e) ∧ 4 * (w / 2 ^ e) < 4 * m + 2 := by
  obtain ⟨hlow, hhigh⟩ := h.strict hm
  rw [zpow_sub₀ two_ne_zero, ← mul_div_assoc, div_lt_iff₀ (by positivity)] at hlow
  rw [zpow_sub₀ two_ne_zero, ← mul_div_assoc, lt_div_iff₀ (by positivity)] at hhigh
  rw [← mul_div_assoc, lt_div_iff₀ (two_zpow_pos e), div_lt_iff₀ (two_zpow_pos e)]
  push_cast at hhigh
  exact ⟨by linarith, by linarith⟩

/-- In units of the last place, the significand is the nearest natural number. -/
theorem Covers.nearest {m : Nat} {e : Int} {w : ℚ} (h : Covers m e w) (hm : 0 < m) :
    Nearest (w / 2 ^ e) m := by
  have hquarters := le_cast_lowQuarters e hm
  refine ⟨?_, ?_, ?_⟩
  · have := h.low_le
    linarith
  · have := h.le_high
    linarith
  · intro hodd
    obtain ⟨hlow, hhigh⟩ := h.odd hodd
    exact ⟨by linarith, by linarith⟩

/-- Just below a power of two the units are half as large, and the result is carried over. -/
theorem Covers.nearest_carry {e : Int} {w : ℚ} (h : Covers (2 ^ 52) e w) (he : -1074 < e)
    (hlt : w / 2 ^ e < 2 ^ 52) : Nearest (w / 2 ^ (e - 1)) (2 ^ 53) := by
  have hlow := h.low_le
  rw [cast_lowQuarters e (by decide), if_pos ⟨rfl, he⟩] at hlow
  have hscale : w / 2 ^ (e - 1) = 2 * (w / 2 ^ e) := by
    rw [zpow_sub_one₀ two_ne_zero, div_mul_eq_div_div, div_inv_eq_mul, mul_comm]
  rw [hscale]
  push_cast at hlow
  refine ⟨?_, ?_, ?_⟩
  · push_cast
    linarith
  · push_cast
    linarith
  · intro hodd
    exact absurd hodd (by decide)

theorem Describes.lt_two_zpow {m : Nat} {a : Accuracy} {v : ℚ}
    (h : Describes (.ofMantissaAndAccuracy m a) v)
    (e : Int) : v * 2 ^ e < 2 ^ (m.log2 + e + 1) := by
  have hlt := h.lt
  rw [mantissa_ofMantissaAndAccuracy] at hlt
  have hlog : ((m + 1 : Nat) : ℚ) ≤ (2 ^ (m.log2 + 1) : Nat) := by
    exact_mod_cast Nat.lt_log2_self
  push_cast at hlog
  calc v * 2 ^ e < 2 ^ (m.log2 + 1) * 2 ^ e := by
        exact mul_lt_mul_of_pos_right (hlt.trans_le hlog) (two_zpow_pos e)
    _ = 2 ^ (m.log2 + e + 1) := by
        rw [← zpow_natCast, ← zpow_add₀ two_ne_zero]
        congr 1
        push_cast
        ring

theorem Describes.two_zpow_le {m : Nat} {a : Accuracy} {v : ℚ}
    (h : Describes (.ofMantissaAndAccuracy m a) v)
    (hm : m ≠ 0) (e : Int) : 2 ^ (m.log2 + e) ≤ v * 2 ^ e := by
  have hle := h.le
  rw [mantissa_ofMantissaAndAccuracy] at hle
  have hlog : ((2 ^ m.log2 : Nat) : ℚ) ≤ m := by
    exact_mod_cast Nat.log2_self_le hm
  push_cast at hlog
  calc (2 : ℚ) ^ (m.log2 + e) = 2 ^ m.log2 * 2 ^ e := by
        rw [zpow_add₀ two_ne_zero, zpow_natCast]
    _ ≤ v * 2 ^ e := mul_le_mul_of_nonneg_right (hlog.trans hle) (two_zpow_pos e).le

theorem Covers.target_le {n m : Nat} {f e : Int} {a : Accuracy} {v : ℚ}
    (hw : Covers m e (v * 2 ^ f)) (hc : Canonical m e)
    (hv : Describes (.ofMantissaAndAccuracy n a) v) (hf : n = 0 → f ≤ -1074) :
    max (n.log2 + f - 52) (-1074) ≤ e := by
  have hleast := hc.least_le
  by_cases hn : n = 0
  · have hsmall := hf hn
    subst hn
    have hlog : (0 : Nat).log2 = 0 := by decide
    omega
  · have hhigh := hw.le_high
    have hmlt : (m : ℚ) + 1 ≤ 2 ^ 53 := by exact_mod_cast hc.lt
    have hlead : (2 : ℚ) ^ (n.log2 + f) < 2 ^ (53 + e) := by
      rw [zpow_add₀ two_ne_zero 53 e, ← div_lt_iff₀ (two_zpow_pos e)]
      have hunits := div_le_div_of_nonneg_right (hv.two_zpow_le hn f) (two_zpow_pos e).le
      norm_num at hmlt ⊢
      linarith
    rw [zpow_lt_zpow_iff_right₀ one_lt_two] at hlead
    omega

theorem Covers.lt_target {n m : Nat} {f e : Int} {a : Accuracy} {v : ℚ}
    (hw : Covers m e (v * 2 ^ f)) (hfull : 2 ^ 52 ≤ m)
    (hv : Describes (.ofMantissaAndAccuracy n a) v) :
    51 + e < n.log2 + f + 1 := by
  have hlow := hw.low_le
  have hquarters := le_cast_lowQuarters e (m := m) (by omega)
  have hmfull : (2 : ℚ) ^ 52 ≤ m := by exact_mod_cast hfull
  have hlead : (2 : ℚ) ^ (51 + e) < 2 ^ (n.log2 + f + 1) := by
    refine lt_trans ?_ (hv.lt_two_zpow f)
    have hhalf : (2 : ℚ) ^ (51 : ℤ) = 2 ^ 52 / 2 := by norm_num
    rw [zpow_add₀ two_ne_zero 51 e, ← lt_div_iff₀ (two_zpow_pos e), hhalf]
    linarith
  rwa [zpow_lt_zpow_iff_right₀ one_lt_two] at hlead

/-- A value below a power of two is covered by the interval of that power only. -/
theorem Covers.eq_two_pow {m : Nat} {e : Int} {w : ℚ} (hw : Covers m e w) (hfull : 2 ^ 52 ≤ m)
    (hlt : w / 2 ^ e < 2 ^ 52) : m = 2 ^ 52 := by
  have hlow := hw.low_le
  have hquarters := le_cast_lowQuarters e (m := m) (by omega)
  have hle : (m : ℚ) < (2 ^ 52 + 1 : Nat) := by
    push_cast
    linarith
  have hle' : m < 2 ^ 52 + 1 := by exact_mod_cast hle
  omega

theorem le_target {n : Nat} {f t : Int} (ht : t = max (n.log2 + f - 52) (-1074))
    (hf : f ≤ -1074 ∨ 2 ^ 52 ≤ n) : f ≤ t := by
  rcases hf with hf | hf
  · omega
  · have : 52 ≤ n.log2 := (Nat.le_log2 (by omega)).mpr hf
    omega

theorem Describes.rounded {n r : Nat} {f t : Int} {a : Accuracy} {v : ℚ}
    (hv : Describes (.ofMantissaAndAccuracy n a) v) (hft : f ≤ t) (hr : Nearest (v * 2 ^ f / 2 ^ t) r) :
    (ExtendedMantissa.ofMantissaAndAccuracy n a >>> (t - f).toNat).roundedMantissa = r := by
  have hshift : v / 2 ^ (t - f).toNat = v * 2 ^ f / 2 ^ t := by
    rw [← zpow_natCast, Int.toNat_of_nonneg (by omega), zpow_sub₀ two_ne_zero, div_div_eq_mul_div]
  have hshifted := hv.shiftRight (t - f).toNat
  rw [hshift] at hshifted
  exact hshifted.roundedMantissa hr

/-- Rounding yields the number whose rounding interval covers the exact value. -/
theorem roundWithAccuracy_of_covers {s : Sign} {n m : Nat} {f e : Int} {a : Accuracy} {v : ℚ}
    (hc : Canonical m e) (hv : Describes (.ofMantissaAndAccuracy n a) v)
    (hw : Covers m e (v * 2 ^ f))
    (hf : f ≤ -1074 ∨ 2 ^ 52 ≤ n) :
    roundWithAccuracy .binary64 s n f a = .finite s m e hc.pos := by
  obtain ⟨t, ht⟩ : ∃ t, t = max (n.log2 + f - 52) (-1074) := ⟨_, rfl⟩
  have hft := le_target ht hf
  have hle := hw.target_le hc hv (by omega)
  rw [← ht] at hle
  by_cases hte : t = e
  · subst hte
    exact roundWithAccuracy_of_lt ht hft hc.pos hc.lt (hv.rounded hft (hw.nearest hc.pos))
  -- Otherwise the value is just below a power of two, and rounding carries over to it.
  have hfull : 2 ^ 52 ≤ m := by
    have := hc.full
    omega
  have hbelow := hw.lt_target hfull hv
  obtain rfl : t = e - 1 := by omega
  have hunits : v * 2 ^ f / 2 ^ e < 2 ^ 52 := by
    rw [div_lt_iff₀ (two_zpow_pos e)]
    apply (hv.lt_two_zpow f).trans_le
    rw [← zpow_natCast 2 52, ← zpow_add₀ two_ne_zero]
    exact zpow_le_zpow_right₀ one_le_two (by push_cast; omega)
  obtain rfl := hw.eq_two_pow hfull hunits
  have hcarry := roundWithAccuracy_of_carry (s := s) ht hft
    (hv.rounded hft (hw.nearest_carry (by have := hc.least_le; omega) hunits))
  rw [hcarry]
  congr 1
  omega

end SignalEngine.Number
