import SignalEngine.Number.Shortest
import SignalEngine.Proofs.Number.Rounding

namespace SignalEngine.Number

/-- The rational number that a ratio stands for. -/
def Ratio.value (r : Ratio) : ℚ :=
  r.num / r.den

theorem Ratio.den_shift_pos {r : Ratio} (h : 0 < r.den) (e : Int) : 0 < (r.shift e).den := by
  unfold Ratio.shift
  split
  · exact h
  · exact Nat.mul_pos h (Nat.pow_pos (by decide))

theorem Ratio.value_scaled (n : Nat) (e : Int) : (Ratio.scaled n e).value = n * 2 ^ e := by
  unfold Ratio.scaled Ratio.value
  split
  · rename_i he
    obtain ⟨k, rfl⟩ := Int.eq_ofNat_of_zero_le he
    simp
  · rename_i he
    obtain ⟨k, rfl⟩ : ∃ k : Nat, e = -k := ⟨(-e).toNat, by omega⟩
    simp [div_eq_mul_inv]

theorem Ratio.value_shift {r : Ratio} (h : 0 < r.den) (e : Int) :
    (r.shift e).value = r.value * 10 ^ e := by
  have hden : (r.den : ℚ) ≠ 0 := by exact_mod_cast h.ne'
  unfold Ratio.shift Ratio.value
  split
  · rename_i he
    obtain ⟨k, rfl⟩ := Int.eq_ofNat_of_zero_le he
    simp [div_mul_eq_mul_div]
  · rename_i he
    obtain ⟨k, rfl⟩ : ∃ k : Nat, e = -k := ⟨(-e).toNat, by omega⟩
    simp only [neg_neg, Int.toNat_natCast, Nat.pow_eq, zpow_neg, zpow_natCast]
    push_cast
    rw [div_mul_eq_div_div, div_eq_mul_inv _ ((10 : ℚ) ^ k)]

theorem Ratio.value_le_iff {r : Ratio} (h : 0 < r.den) (n : Nat) :
    r.value ≤ n ↔ r.num ≤ n * r.den := by
  rw [Ratio.value, div_le_iff₀ (by exact_mod_cast h)]
  exact_mod_cast Iff.rfl

theorem Ratio.le_value_iff {r : Ratio} (h : 0 < r.den) (n : Nat) :
    n ≤ r.value ↔ n * r.den ≤ r.num := by
  rw [Ratio.value, le_div_iff₀ (by exact_mod_cast h)]
  exact_mod_cast Iff.rfl

theorem Ratio.value_lt_iff {r : Ratio} (h : 0 < r.den) (n : Nat) :
    r.value < n ↔ r.num < n * r.den := by
  rw [← not_le, Ratio.le_value_iff h, not_le]

theorem Ratio.lt_value_iff {r : Ratio} (h : 0 < r.den) (n : Nat) :
    n < r.value ↔ n * r.den < r.num := by
  rw [← not_le, Ratio.value_le_iff h, not_le]

theorem Ratio.floor_le {r : Ratio} (h : 0 < r.den) : (r.num / r.den : Nat) ≤ r.value := by
  rw [Ratio.le_value_iff h]
  exact Nat.div_mul_le_self _ _

theorem Ratio.lt_floor_add_one {r : Ratio} (h : 0 < r.den) :
    r.value < (r.num / r.den + 1 : Nat) := by
  rw [Ratio.value_lt_iff h, Nat.add_mul, one_mul]
  exact Nat.lt_div_mul_add h

theorem roundHalfEven_eq (r : Ratio) :
    roundHalfEven r = r.num / r.den ∨ roundHalfEven r = r.num / r.den + 1 := by
  unfold roundHalfEven
  dsimp only
  split
  · exact .inl rfl
  · split
    · rcases Nat.mod_two_eq_zero_or_one (r.num / r.den) with hmod | hmod
      · exact .inl (by rw [hmod, Nat.add_zero])
      · exact .inr (by rw [hmod])
    · exact .inr rfl

/-- A value lies between two ends, which may belong to the interval. -/
def Within (low high : ℚ) (closed : Bool) (w : ℚ) : Prop :=
  if closed then low ≤ w ∧ w ≤ high else low < w ∧ w < high

theorem ten_zpow_pos (e : Int) : (0 : ℚ) < 10 ^ e :=
  zpow_pos (by norm_num) e

section Grid

variable {value low high : Ratio} {closed : Bool} {unit : Int}

theorem value_shift_neg (h : 0 < low.den) : (low.shift (-unit)).value = low.value / 10 ^ unit := by
  rw [Ratio.value_shift h, zpow_neg, div_eq_mul_inv]

theorem within_of_gridHit? {n : Nat} (hv : 0 < value.den) (hl : 0 < low.den) (hh : 0 < high.den)
    (hlow : low.value < value.value) (hhigh : value.value < high.value)
    (h : gridHit? value low high closed unit = some n) :
    Within low.value high.value closed (n * 10 ^ unit) := by
  have hunit := ten_zpow_pos unit
  have hfloor := Ratio.floor_le (Ratio.den_shift_pos hv (-unit))
  have hceil := Ratio.lt_floor_add_one (Ratio.den_shift_pos hv (-unit))
  have hround := roundHalfEven_eq (value.shift (-unit))
  rw [value_shift_neg hv, le_div_iff₀ hunit] at hfloor
  rw [value_shift_neg hv, div_lt_iff₀ hunit] at hceil
  unfold gridHit? at h
  dsimp only at h
  simp only [← Ratio.value_le_iff (Ratio.den_shift_pos hl _), ← Ratio.value_lt_iff
    (Ratio.den_shift_pos hl _), ← Ratio.le_value_iff
    (Ratio.den_shift_pos hh _), ← Ratio.lt_value_iff (Ratio.den_shift_pos hh _), value_shift_neg hl,
    value_shift_neg hh, div_le_iff₀ hunit, div_lt_iff₀ hunit, le_div_iff₀ hunit, lt_div_iff₀ hunit]
      at h
  generalize (value.shift (-unit)).num / (value.shift (-unit)).den = below at *
  have hbelow : ∀ b, (if closed then decide (low.value ≤ below * 10 ^ unit)
      else decide (low.value < below * 10 ^ unit)) = b → b = true →
      Within low.value high.value closed (below * 10 ^ unit) := by
    rintro b hb rfl
    unfold Within
    cases closed <;> simp only [if_true, if_false, decide_eq_true_eq, Bool.false_eq_true] at hb ⊢
    · exact ⟨hb, hfloor.trans_lt hhigh⟩
    · exact ⟨hb, (hfloor.trans_lt hhigh).le⟩
  have habove : ∀ b, (if closed then decide ((below + 1 : Nat) * 10 ^ unit ≤ high.value)
      else decide ((below + 1 : Nat) * 10 ^ unit < high.value)) = b → b = true →
      Within low.value high.value closed ((below + 1 : Nat) * 10 ^ unit) := by
    rintro b hb rfl
    unfold Within
    cases closed <;> simp only [if_true, if_false, decide_eq_true_eq, Bool.false_eq_true] at hb ⊢
    · exact ⟨hlow.trans hceil, hb⟩
    · exact ⟨(hlow.trans hceil).le, hb⟩
  split at h
  · rename_i hb ha
    obtain rfl := Option.some.inj h
    rcases hround with hr | hr
    · rw [hr]
      exact hbelow _ hb rfl
    · rw [hr]
      exact habove _ ha rfl
  · rename_i hb ha
    obtain rfl := Option.some.inj h
    exact hbelow _ hb rfl
  · rename_i hb ha
    obtain rfl := Option.some.inj h
    exact habove _ ha rfl
  · cases h

/-- An interval without a point of the grid is not wider than the grid. -/
theorem width_le_of_gridHit? (hl : 0 < low.den) (hh : 0 < high.den)
    (h : gridHit? value low high closed unit = none) : high.value - low.value ≤ 10 ^ unit := by
  have hunit := ten_zpow_pos unit
  unfold gridHit? at h
  dsimp only at h
  simp only [← Ratio.value_le_iff (Ratio.den_shift_pos hl _), ← Ratio.value_lt_iff
    (Ratio.den_shift_pos hl _), ← Ratio.le_value_iff
    (Ratio.den_shift_pos hh _), ← Ratio.lt_value_iff (Ratio.den_shift_pos hh _), value_shift_neg hl,
    value_shift_neg hh, div_le_iff₀ hunit, div_lt_iff₀ hunit, le_div_iff₀ hunit, lt_div_iff₀ hunit]
      at h
  generalize (value.shift (-unit)).num / (value.shift (-unit)).den = below at *
  have hstep : ((below + 1 : Nat) * 10 ^ unit : ℚ) = below * 10 ^ unit + 10 ^ unit := by
    push_cast
    ring
  rw [hstep] at h
  split at h
  · cases h
  · cases h
  · cases h
  · rename_i hb ha
    cases closed <;> simp only [if_true, if_false, Bool.false_eq_true, decide_eq_false_iff_not,
      not_le, not_lt] at hb ha <;> linarith

/-- Seventeen digits are found at the latest when the last grid is finer than the interval. -/
theorem within_of_shortestFrom {point : Int} (hv : 0 < value.den) (hl : 0 < low.den)
    (hh : 0 < high.den) (hlow : low.value < value.value) (hhigh : value.value < high.value)
    (hwide : (10 : ℚ) ^ (point - 17) < high.value - low.value) {fuel count : Nat}
    (hcount : count + fuel = 17) :
    ∃ n k, shortestFrom value low high closed point count (fuel + 1) = Decimal.ofNat n k ∧
      Within low.value high.value closed (n * 10 ^ k) := by
  induction fuel generalizing count with
  | zero =>
      obtain rfl : count = 17 := by omega
      unfold shortestFrom
      split
      · rename_i n hn
        exact ⟨n, _, rfl, within_of_gridHit? hv hl hh hlow hhigh hn⟩
      · rename_i hn
        exact absurd (width_le_of_gridHit? hl hh hn) (not_le.mpr hwide)
  | succ fuel ih =>
      unfold shortestFrom
      split
      · rename_i n hn
        exact ⟨n, _, rfl, within_of_gridHit? hv hl hh hlow hhigh hn⟩
      · exact ih (by omega)

end Grid

theorem ten_pow_le_two_pow {t a : Int} (ht : t ≤ 1023) (ht' : -1074 ≤ t)
    (ha : a ≤ t * 30103 / 100000 - 1) : (10 : ℚ) ^ a ≤ 2 ^ t := by
  rcases lt_or_ge t 0 with hneg | hpos
  · obtain ⟨b, rfl⟩ : ∃ b : Nat, a = -b := ⟨(-a).toNat, by omega⟩
    obtain ⟨u, rfl⟩ : ∃ u : Nat, t = -u := ⟨(-t).toNat, by omega⟩
    have hpow : (2 ^ u) ^ 93 ≤ (10 ^ b) ^ 93 :=
      calc (2 ^ u) ^ 93 = (2 ^ 93) ^ u := by rw [← pow_mul, ← pow_mul, mul_comm]
        _ ≤ (10 ^ 28) ^ u := Nat.pow_le_pow_left (by norm_num) u
        _ ≤ (10 ^ b) ^ 93 := by
            rw [← pow_mul, ← pow_mul]
            exact Nat.pow_le_pow_right (by norm_num) (by omega)
    have hle : 2 ^ u ≤ 10 ^ b := (Nat.pow_le_pow_iff_left (by norm_num)).mp hpow
    rw [zpow_neg, zpow_neg, zpow_natCast, zpow_natCast]
    exact inv_anti₀ (by positivity) (by exact_mod_cast hle)
  rcases lt_or_ge a 0 with hneg | hpos'
  · calc (10 : ℚ) ^ a ≤ 1 := zpow_le_one_of_nonpos₀ (by norm_num) hneg.le
      _ ≤ 2 ^ t := one_le_zpow₀ (by norm_num) hpos
  · obtain ⟨b, rfl⟩ := Int.eq_ofNat_of_zero_le hpos'
    obtain ⟨u, rfl⟩ := Int.eq_ofNat_of_zero_le hpos
    have hpow : (10 ^ b) ^ 31 ≤ (2 ^ u) ^ 31 :=
      calc (10 ^ b) ^ 31 = (10 ^ 31) ^ b := by rw [← pow_mul, ← pow_mul, mul_comm]
        _ ≤ (2 ^ 103) ^ b := Nat.pow_le_pow_left (by norm_num) b
        _ ≤ (2 ^ u) ^ 31 := by
            rw [← pow_mul, ← pow_mul]
            exact Nat.pow_le_pow_right (by norm_num) (by omega)
    have hle : 10 ^ b ≤ 2 ^ u := (Nat.pow_le_pow_iff_left (by norm_num)).mp hpow
    rw [zpow_natCast, zpow_natCast]
    exact_mod_cast hle

theorem ten_zpow_le_of_decimalPointFrom {r : Ratio} (hr : 0 < r.den) {low : Int}
    (hlow : (10 : ℚ) ^ (low - 1) ≤ r.value) (fuel : Nat) :
    (10 : ℚ) ^ (decimalPointFrom r low fuel - 1) ≤ r.value := by
  induction fuel generalizing low with
  | zero => exact hlow
  | succ fuel ih =>
      unfold decimalPointFrom
      dsimp only
      split
      · exact hlow
      · rename_i hbound
        apply ih
        have hden : 0 < ((Ratio.mk 1 1).shift low).den := Ratio.den_shift_pos Nat.one_pos low
        have hvalue : ((Ratio.mk 1 1).shift low).value = 10 ^ low := by
          rw [Ratio.value_shift Nat.one_pos, Ratio.value]
          simp
        rw [add_sub_cancel_right, ← hvalue, Ratio.value, Ratio.value,
          div_le_div_iff₀ (by exact_mod_cast hden) (by exact_mod_cast hr)]
        exact_mod_cast not_lt.mp hbound

theorem ten_zpow_le_of_decimalPoint {m : Nat} {e : Int} (narrow : Bool) (hc : Canonical m e)
    (he : e ≤ 971) : (10 : ℚ) ^ (decimalPoint ⟨m, e, narrow⟩ - 1) ≤ m * 2 ^ e := by
  have hlog : m.log2 ≤ 52 := Nat.le_of_lt_succ ((Nat.log2_lt hc.pos.ne').mpr hc.lt)
  have htwo : ((2 ^ m.log2 : Nat) : ℚ) ≤ m := by exact_mod_cast Nat.log2_self_le hc.pos.ne'
  have hvalue : (Ratio.scaled m e).value = m * 2 ^ e := Ratio.value_scaled m e
  rw [← hvalue]
  refine ten_zpow_le_of_decimalPointFrom (Ratio.den_scaled_pos m e) ?_ 3
  rw [hvalue]
  have hleast := hc.least_le
  calc (10 : ℚ) ^ ((e + m.log2) * 30103 / 100000 - 1) ≤ 2 ^ (e + m.log2) :=
        ten_pow_le_two_pow (by omega) (by omega) le_rfl
    _ = 2 ^ m.log2 * 2 ^ e := by rw [add_comm, zpow_add₀ two_ne_zero, zpow_natCast]
    _ ≤ m * 2 ^ e := by
        push_cast at htwo
        exact mul_le_mul_of_nonneg_right htwo (two_zpow_pos e).le

theorem cast_lowQuarters_lt {m : Nat} (e : Int) (hm : 0 < m) : (lowQuarters m e : ℚ) < 4 * m := by
  rw [cast_lowQuarters e hm]
  split <;> linarith

/-- Seventeen digits are enough: the last of them counts for less than the interval is wide. -/
theorem ten_zpow_lt_width {m : Nat} {e : Int} (hc : Canonical m e) (he : e ≤ 971) :
    (10 : ℚ) ^ (decimalPoint ⟨m, e, decide (NarrowBelow m e)⟩ - 17) <
      (4 * m + 2 : Nat) * 2 ^ (e - 2) - lowQuarters m e * 2 ^ (e - 2) := by
  have hpoint := ten_zpow_le_of_decimalPoint (decide (NarrowBelow m e)) hc he
  have hgap : 4 * m < (10 : ℚ) ^ 16 * (4 * m + 2 - lowQuarters m e) := by
    have hpos : (1 : ℚ) ≤ m := by exact_mod_cast hc.pos
    have hmlt : (m : ℚ) < 2 ^ 53 := by exact_mod_cast hc.lt
    rw [cast_lowQuarters e hc.pos]
    split
    · rename_i hnarrow
      rw [hnarrow.1]
      norm_num
    · linarith
  have hscale : (m * 2 ^ e : ℚ) = 4 * m * 2 ^ (e - 2) := by
    rw [zpow_sub₀ two_ne_zero]
    ring
  rw [show decimalPoint ⟨m, e, decide (NarrowBelow m e)⟩ - 17 =
      decimalPoint ⟨m, e, decide (NarrowBelow m e)⟩ - 1 - (16 : Nat) by omega,
    zpow_sub₀ (by norm_num), zpow_natCast, div_lt_iff₀ (by positivity)]
  apply hpoint.trans_lt
  rw [hscale]
  calc 4 * m * (2 : ℚ) ^ (e - 2) < 10 ^ 16 * (4 * m + 2 - lowQuarters m e) * 2 ^ (e - 2) :=
        mul_lt_mul_of_pos_right hgap (two_zpow_pos (e - 2))
    _ = ((4 * m + 2 : Nat) * 2 ^ (e - 2) - lowQuarters m e * 2 ^ (e - 2)) * 10 ^ 16 := by
        push_cast
        ring

theorem Within.covers {m : Nat} {e : Int} {w : ℚ}
    (h : Within (lowQuarters m e * 2 ^ (e - 2)) ((4 * m + 2 : Nat) * 2 ^ (e - 2)) (m % 2 == 0) w) :
    Covers m e w := by
  unfold Within at h
  split at h
  · rename_i heven
    refine ⟨h.1, h.2, fun hodd => ?_⟩
    rw [beq_iff_eq] at heven
    omega
  · exact ⟨h.1.le, h.2.le, fun _ => h⟩

theorem Covers.pos {m : Nat} {e : Int} {w : ℚ} (h : Covers m e w) (hm : 0 < m) : 0 < w := by
  have hone : (1 : ℚ) ≤ m := by exact_mod_cast hm
  have hquarters := le_cast_lowQuarters e hm
  exact (mul_pos (by linarith) (two_zpow_pos (e - 2))).trans_le h.low

/-- The shortest decimal lies in the rounding interval. -/
theorem exists_shortest {m : Nat} {e : Int} (hc : Canonical m e) (he : e ≤ 971) :
    ∃ n k, shortest ⟨m, e, decide (NarrowBelow m e)⟩ = Decimal.ofNat n k ∧ 0 < n ∧
      Covers m e (n * 10 ^ k) := by
  have hunit := two_zpow_pos (e - 2)
  have hwithin : ∃ n k, shortestFrom (.scaled (4 * m) (e - 2)) (.scaled (lowQuarters m e) (e - 2))
      (.scaled (4 * m + 2) (e - 2)) (m % 2 == 0)
        (decimalPoint ⟨m, e, decide (NarrowBelow m e)⟩) 1 17 =
        Decimal.ofNat n k ∧
      Within (Ratio.scaled (lowQuarters m e) (e - 2)).value (Ratio.scaled (4 * m + 2) (e - 2)).value
        (m % 2 == 0) (n * 10 ^ k) := by
    refine within_of_shortestFrom (Ratio.den_scaled_pos _ _) (Ratio.den_scaled_pos _ _)
      (Ratio.den_scaled_pos _ _) ?_ ?_ ?_ rfl
    · rw [Ratio.value_scaled, Ratio.value_scaled]
      push_cast
      exact mul_lt_mul_of_pos_right (cast_lowQuarters_lt e hc.pos) hunit
    · rw [Ratio.value_scaled, Ratio.value_scaled]
      push_cast
      exact mul_lt_mul_of_pos_right (by linarith) hunit
    · rw [Ratio.value_scaled, Ratio.value_scaled]
      exact ten_zpow_lt_width hc he
  obtain ⟨n, k, hshortest, hin⟩ := hwithin
  rw [Ratio.value_scaled, Ratio.value_scaled] at hin
  have hcovers := hin.covers
  refine ⟨n, k, ?_, ?_, hcovers⟩
  · rw [← hshortest]
    simp only [shortest, lowQuarters, decide_eq_true_eq]
  · have hpos := hcovers.pos hc.pos
    by_contra hzero
    obtain rfl : n = 0 := by omega
    rw [Nat.cast_zero, zero_mul] at hpos
    exact hpos.false

end SignalEngine.Number
