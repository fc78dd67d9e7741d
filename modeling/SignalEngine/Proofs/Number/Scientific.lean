import SignalEngine.Proofs.Number.Rounding

namespace SignalEngine.Number

open Float.Model (Format UnpackedFloat totalExponent)
open Float.Model.UnpackedFloat (Sign accuracyOfFraction divCore roundWithAccuracy)

theorem cast_shiftLeft (m k : Nat) : ((m <<< k : Nat) : ℚ) = m * 2 ^ (k : Int) := by
  rw [Nat.shiftLeft_eq]
  push_cast
  rw [zpow_natCast]

theorem product_value (m n : Nat) (e k : Int) :
    ((m * n : Nat) * 2 ^ (e + k) : ℚ) = m * 2 ^ e * (n * 2 ^ k) := by
  rw [zpow_add₀ two_ne_zero]
  push_cast
  ring

theorem Canonical.covers_self {m : Nat} {e : Int} (h : Canonical m e) : Covers m e (m * 2 ^ e) := by
  have hpos := h.pos
  have hlow : (lowQuarters m e : ℚ) + 1 ≤ 4 * m := by
    rw [cast_lowQuarters e hpos]
    split <;> linarith
  have hscale : (m * 2 ^ e : ℚ) = 4 * m * 2 ^ (e - 2) := by
    rw [zpow_sub₀ two_ne_zero]
    ring
  have hunit := two_zpow_pos (e - 2)
  rw [hscale]
  refine ⟨?_, ?_, fun _ => ⟨?_, ?_⟩⟩
  · exact mul_le_mul_of_nonneg_right (by linarith) hunit.le
  · exact mul_le_mul_of_nonneg_right (by push_cast; linarith) hunit.le
  · exact mul_lt_mul_of_pos_right (by linarith) hunit
  · exact mul_lt_mul_of_pos_right (by push_cast; linarith) hunit

theorem mul_of_covers {s s' : Sign} {n n' m : Nat} {f f' e : Int} {h : 0 < n} {h' : 0 < n'}
    (hc : Canonical m e) (hw : Covers m e (n * 2 ^ f * (n' * 2 ^ f')))
    (hbits : f + f' ≤ -1074 ∨ 2 ^ 52 ≤ n * n') :
    UnpackedFloat.mul .binary64 (.finite s n f h) (.finite s' n' f' h') =
      .finite (s * s') m e hc.pos := by
  rw [← product_value] at hw
  exact roundWithAccuracy_of_covers hc (describes_exact _) hw hbits

def quotientExponent (n : Nat) (f : Int) (n' : Nat) (f' : Int) : Int :=
  min (f - f') (Format.binary64.targetExponent (totalExponent n f - totalExponent n' f'))

theorem quotient_bits {n n' : Nat} (f f' : Int) (h : 0 < n) (h' : 0 < n') :
    quotientExponent n f n' f' ≤ -1074 ∨
      2 ^ 52 ≤ n <<< (f - f' - quotientExponent n f n' f').toNat / n' := by
  have htarget : Format.binary64.targetExponent (totalExponent n f - totalExponent n' f') =
      max (n.log2 + f - (n'.log2 + f') - 53) (-1074) := by
    simp only [Format.targetExponent, totalExponent, Format.mantissaBits, Format.minExponent]
    norm_num
    omega
  rw [or_iff_not_imp_left, quotientExponent, htarget]
  intro hlarge
  rw [Nat.le_div_iff_mul_le h', Nat.shiftLeft_eq]
  have hn := Nat.log2_self_le h.ne'
  have hn' : n' < 2 ^ (n'.log2 + 1) := Nat.lt_log2_self
  generalize hk : (f - f' - min (f - f') (max _ _)).toNat = k
  calc 2 ^ 52 * n' ≤ 2 ^ 52 * 2 ^ (n'.log2 + 1) := Nat.mul_le_mul_left _ hn'.le
    _ ≤ 2 ^ (n.log2 + k) := by
        rw [← pow_add]
        exact Nat.pow_le_pow_right two_pos (by omega)
    _ ≤ n * 2 ^ k := by
        rw [pow_add]
        exact Nat.mul_le_mul_right _ hn

theorem div_of_covers {s s' : Sign} {n n' m : Nat} {f f' e : Int} {h : 0 < n} {h' : 0 < n'}
    (hc : Canonical m e) (hw : Covers m e (n * 2 ^ f / (n' * 2 ^ f'))) :
    UnpackedFloat.div .binary64 (.finite s n f h) (.finite s' n' f' h') =
      .finite (s / s') m e hc.pos := by
  have hbits := quotient_bits f f' h h'
  have hle : quotientExponent n f n' f' ≤ f - f' := min_le_left _ _
  have hcore : divCore .binary64 n f n' f' =
      (n <<< (f - f' - quotientExponent n f n' f').toNat / n', quotientExponent n f n' f',
        accuracyOfFraction (n <<< (f - f' - quotientExponent n f n' f').toNat % n') n') := rfl
  generalize quotientExponent n f n' f' = t at *
  have hvalue : (n * 2 ^ f / (n' * 2 ^ f') : ℚ) =
      ((n <<< (f - f' - t).toNat : Nat) : ℚ) / n' * 2 ^ t := by
    have hn' : (n' : ℚ) ≠ 0 := by exact_mod_cast h'.ne'
    rw [cast_shiftLeft, Int.toNat_of_nonneg (by omega), zpow_sub₀ two_ne_zero,
      zpow_sub₀ two_ne_zero]
    have := two_zpow_pos f'
    have := two_zpow_pos t
    field_simp
  rw [hvalue] at hw
  simp only [UnpackedFloat.div, hcore]
  exact roundWithAccuracy_of_covers hc (describes_fraction h') hw hbits

/-- A number of full length that has the value of a whole number. -/
def HasValue (x : Float) (n : Nat) : Prop :=
  ∃ (m : Nat) (e : Int) (h : Canonical m e), unpacked x = .finite .positive m e h.pos ∧
    2 ^ 52 ≤ m ∧ (m * 2 ^ e : ℚ) = n

theorem hasValue_toFloat {n : Nat} (hpos : 0 < n) (hlt : n < 2 ^ 53) :
    HasValue n.toUInt64.toFloat n := by
  have hn : n.toUInt64.toNat = n := by
    rw [Nat.toUInt64, UInt64.toNat_ofNat']
    exact Nat.mod_eq_of_lt (by omega)
  have hlog : n.log2 ≤ 52 := Nat.le_of_lt_succ ((Nat.log2_lt hpos.ne').mpr hlt)
  have hlow := Nat.log2_self_le hpos.ne'
  have hhigh : n < 2 ^ (n.log2 + 1) := Nat.lt_log2_self
  have hc : Canonical (n <<< (52 - n.log2)) (n.log2 - 52) := by
    rw [Nat.shiftLeft_eq]
    refine ⟨by positivity, ?_, by omega, .inl ?_⟩
    · calc n * 2 ^ (52 - n.log2) < 2 ^ (n.log2 + 1) * 2 ^ (52 - n.log2) :=
            Nat.mul_lt_mul_of_pos_right hhigh (by positivity)
        _ = 2 ^ 53 := by rw [← pow_add]; congr 1; omega
    · calc 2 ^ 52 = 2 ^ n.log2 * 2 ^ (52 - n.log2) := by rw [← pow_add]; congr 1; omega
        _ ≤ n * 2 ^ (52 - n.log2) := Nat.mul_le_mul_right _ hlow
  have hfull : 2 ^ 52 ≤ n <<< (52 - n.log2) := hc.full.resolve_right (by omega)
  have hvalue : ((n <<< (52 - n.log2) : Nat) * 2 ^ (n.log2 - 52 : Int) : ℚ) = n := by
    rw [cast_shiftLeft, mul_assoc, ← zpow_add₀ two_ne_zero]
    rw [show (((52 - n.log2 : Nat) : Int) + (n.log2 - 52)) = 0 by omega, zpow_zero, mul_one]
  refine ⟨_, _, hc, ?_, hfull, hvalue⟩
  have hround : UnpackedFloat.ofUInt64 .binary64 n.toUInt64 =
      roundWithAccuracy .binary64 .positive (n <<< (52 - n.log2)) (n.log2 - 52) .exact := by
    have htarget := targetExponent_eq n 0
    have hamount : ((0 : Int) - max ((n.log2 : Int) + 0 - 52) (-1074)).toNat =
      52 - n.log2 := by omega
    have hexp : (0 : Int) - ((52 - n.log2 : Nat) : Int) = n.log2 - 52 := by omega
    have hcmp : compare (n : Int) 0 = .gt := by
      rw [Int.compare_eq_gt]
      omega
    simp only [UnpackedFloat.ofUInt64, UnpackedFloat.ofNat, UnpackedFloat.ofInt,
      UnpackedFloat.normalize, hn, hcmp, Int.toNat_natCast, UnpackedFloat.round,
      UnpackedFloat.decreaseExponent, htarget, hamount, hexp]
  change unpacked (ofUnpacked (UnpackedFloat.ofUInt64 .binary64 n.toUInt64)) = _
  rw [hround, roundWithAccuracy_of_covers hc (describes_exact _) hc.covers_self (.inr hfull)]
  exact unpacked_ofUnpacked hc (by omega)

def isPowerOfTen (k : Nat) : UnpackedFloat → Bool
  | .finite .positive m e _ =>
      decide (2 ^ 52 ≤ m ∧ m < 2 ^ 53 ∧ -1074 ≤ e ∧ m * 2 ^ e.toNat = 10 ^ k * 2 ^ (-e).toNat)
  | _ => false

theorem isPowerOfTen_table (k : Fin 23) :
    isPowerOfTen k (unpacked Float.exactlyRepresentablePowersOfTen[k]) = true := by
  revert k
  decide

theorem hasValue_table {k : Nat} (hk : k < 23) :
    HasValue Float.exactlyRepresentablePowersOfTen[k] (10 ^ k) := by
  have htable := isPowerOfTen_table ⟨k, hk⟩
  dsimp only [Fin.getElem_fin] at htable
  generalize Float.exactlyRepresentablePowersOfTen[k] = x at htable ⊢
  unfold isPowerOfTen at htable
  split at htable
  · rename_i m e hm hx
    obtain ⟨hlow, hlt, hleast, hvalue⟩ := of_decide_eq_true htable
    refine ⟨m, e, ⟨hm, hlt, hleast, .inl hlow⟩, hx, hlow, ?_⟩
    have hvalue' : (m * 2 ^ (e.toNat : Int) : ℚ) = 10 ^ k * 2 ^ ((-e).toNat : Int) := by
      rw [zpow_natCast, zpow_natCast]
      exact_mod_cast hvalue
    have hsplit : e = e.toNat - (-e).toNat := by omega
    have hpos := two_zpow_pos (-e).toNat
    rw [hsplit, zpow_sub₀ two_ne_zero, ← mul_div_assoc, hvalue', mul_div_cancel_right₀ _ hpos.ne']
    push_cast
    rfl
  · cases htable

theorem HasValue.mul {x y : Float} {n n' m : Nat} {e : Int} (hx : HasValue x n) (hy : HasValue y n')
    (hc : Canonical m e) (hw : Covers m e (n * n')) :
    x * y = ofUnpacked (.finite .positive m e hc.pos) := by
  obtain ⟨p, f, hp, hux, hfull, hn⟩ := hx
  obtain ⟨p', f', hp', huy, -, hn'⟩ := hy
  rw [mul_eq, hux, huy, mul_of_covers hc (by rwa [hn, hn'])]
  · rfl
  · exact .inr (hfull.trans (Nat.le_mul_of_pos_right _ hp'.pos))

theorem HasValue.div {x y : Float} {n n' m : Nat} {e : Int} (hx : HasValue x n) (hy : HasValue y n')
    (hc : Canonical m e) (hw : Covers m e (n / n')) :
    x / y = ofUnpacked (.finite .positive m e hc.pos) := by
  obtain ⟨p, f, hp, hux, -, hn⟩ := hx
  obtain ⟨p', f', hp', huy, -, hn'⟩ := hy
  rw [div_eq, hux, huy, div_of_covers hc (by rwa [hn, hn'])]
  rfl

theorem ofScientific_whole {c m k : Nat} {e : Int} (hc : Canonical m e) (hpos : 0 < c)
    (hw : Covers m e (c * 10 ^ k)) (hk : k ≤ 2048) :
    Float.ofScientific c false k = ofUnpacked (.finite .positive m e hc.pos) := by
  unfold Float.ofScientific
  split
  · rename_i hfast
    exact (hasValue_toFloat hpos hfast.1).mul (hasValue_table (by omega)) hc (by exact_mod_cast hw)
  · have hw' :
      Covers m e ((c <<< 53 : Nat) * 2 ^ (-53 : Int) * ((10 ^ k : Nat) * 2 ^ (0 : Int))) := by
      have hvalue : ((c <<< 53 : Nat) * 2 ^ (-53 : Int) * ((10 ^ k : Nat) * 2 ^ (0 : Int)) : ℚ) =
          c * 10 ^ k := by
        rw [cast_shiftLeft, mul_assoc (c : ℚ), ← zpow_add₀ two_ne_zero]
        push_cast
        norm_num
      rwa [hvalue]
    have hbits : 2 ^ 52 ≤ c <<< 53 * 10 ^ k := by
      have : 1 ≤ 10 ^ k := Nat.one_le_pow _ _ (by decide)
      rw [Nat.shiftLeft_eq]
      nlinarith
    have hlog : ¬ ((k : Int) < -(2048 + c.log2)) := by omega
    simp only [Bool.false_eq_true, if_false, Float.Model.ofScientific, UnpackedFloat.ofScientific,
      dif_neg hpos.ne', Int.ofNat_eq_natCast]
    norm_num only
    rw [if_neg (by omega), if_neg (by omega), if_pos (by omega)]
    exact congrArg ofUnpacked (mul_of_covers hc hw' (.inr hbits))

theorem ofScientific_fraction {c m k : Nat} {e : Int} (hc : Canonical m e) (hpos : 0 < c)
    (hk : 0 < k) (hw : Covers m e (c / 10 ^ k)) (hlog : k ≤ 2048 + c.log2) :
    Float.ofScientific c true k = ofUnpacked (.finite .positive m e hc.pos) := by
  unfold Float.ofScientific
  split
  · rename_i hfast
    exact (hasValue_toFloat hpos hfast.1).div (hasValue_table (by omega)) hc (by exact_mod_cast hw)
  · have hw' : Covers m e (c * 2 ^ (0 : Int) / ((10 ^ k : Nat) * 2 ^ (0 : Int))) := by
      simpa using hw
    have hneg : Int.negOfNat k = -(k : Int) := Int.negOfNat_eq
    simp only [if_true, Float.Model.ofScientific, UnpackedFloat.ofScientific, dif_neg hpos.ne',
      hneg]
    norm_num only
    rw [if_neg (by omega), if_neg (by omega), if_neg (by omega)]
    simp only [neg_neg, Int.toNat_natCast]
    exact congrArg ofUnpacked (div_of_covers hc hw')

theorem lt_ten_pow_length (n : Nat) : n < 10 ^ (Nat.toDigits 10 n).length :=
  (Nat.length_toDigits_le_iff (by decide) Nat.length_toDigits_pos).mp le_rfl

theorem ten_pow_length_le {n : Nat} (h : 0 < n) : 10 ^ ((Nat.toDigits 10 n).length - 1) ≤ n := by
  have hlen := Nat.length_toDigits_pos (b := 10) (n := n)
  by_cases hone : (Nat.toDigits 10 n).length = 1
  · rw [hone]
    exact h
  · by_contra hlt
    have := (Nat.length_toDigits_le_iff (b := 10) (by decide) (by omega)).mpr (not_le.mp hlt)
    omega

theorem two_pow_le_ten_pow : 2 ^ 1075 ≤ 10 ^ 331 ∧ 2 ^ 1024 ≤ 10 ^ 330 := by
  decide +kernel

theorem Covers.two_zpow_le {m : Nat} {e : Int} {w : ℚ} (h : Covers m e w) (hc : Canonical m e) :
    (2 : ℚ) ^ (-1075 : Int) ≤ w := by
  have hlow := h.low_le
  have hone : (1 : ℚ) ≤ m := by exact_mod_cast hc.pos
  have hquarters := le_cast_lowQuarters e hc.pos
  have hhalf : 1 / 2 ≤ w / (2 : ℚ) ^ e := by linarith
  rw [le_div_iff₀ (two_zpow_pos e)] at hhalf
  have hleast : (2 : ℚ) ^ (-1074 : Int) ≤ 2 ^ e := zpow_le_zpow_right₀ one_le_two hc.least_le
  have hsplit : (2 : ℚ) ^ (-1075 : Int) = 1 / 2 * 2 ^ (-1074 : Int) := by
    rw [show (-1075 : Int) = -1 + -1074 by norm_num, zpow_add₀ two_ne_zero, zpow_neg_one, one_div]
  linarith

theorem Covers.lt_two_zpow {m : Nat} {e : Int} {w : ℚ} (h : Covers m e w) (hc : Canonical m e)
    (he : e ≤ 971) : w < (2 : ℚ) ^ (1024 : Int) := by
  have hhigh := h.le_high
  have hmlt : (m : ℚ) + 1 ≤ 2 ^ 53 := by exact_mod_cast hc.lt
  have hunits : w / (2 : ℚ) ^ e < 2 ^ 53 := by linarith
  rw [div_lt_iff₀ (two_zpow_pos e)] at hunits
  have hlargest : (2 : ℚ) ^ e ≤ 2 ^ (971 : Int) := zpow_le_zpow_right₀ one_le_two he
  have hsplit : (2 : ℚ) ^ (1024 : Int) = 2 ^ 53 * 2 ^ (971 : Int) := by
    rw [show (1024 : Int) = 53 + 971 by norm_num, zpow_add₀ two_ne_zero]
    rfl
  rw [hsplit]
  exact hunits.trans_le (mul_le_mul_of_nonneg_left hlargest (by positivity))

/-- The decimal point of such a number is neither far to the left nor far to the right. -/
theorem Covers.point_bounds {c m : Nat} {k e : Int} (hw : Covers m e (c * 10 ^ k))
    (hc : Canonical m e) (he : e ≤ 971) (hpos : 0 < c) :
    -330 ≤ k + (Nat.toDigits 10 c).length ∧ k + (Nat.toDigits 10 c).length ≤ 330 := by
  have hlt : (c : ℚ) < 10 ^ (Nat.toDigits 10 c).length := by exact_mod_cast lt_ten_pow_length c
  have hle : (10 : ℚ) ^ ((Nat.toDigits 10 c).length - 1) ≤ c := by
    exact_mod_cast ten_pow_length_le hpos
  have hlen := Nat.length_toDigits_pos (b := 10) (n := c)
  have hten : (0 : ℚ) < 10 ^ k := zpow_pos (by norm_num) k
  generalize (Nat.toDigits 10 c).length = len at *
  have htop : c * 10 ^ k < (10 : ℚ) ^ (k + len) := by
    rw [zpow_add₀ (by norm_num), zpow_natCast, mul_comm]
    exact mul_lt_mul_of_pos_left hlt hten
  have hbottom : (10 : ℚ) ^ (k + len - 1) ≤ c * 10 ^ k := by
    have hsplit : k + (len : Int) - 1 = k + (len - 1 : Nat) := by omega
    rw [hsplit, zpow_add₀ (by norm_num), zpow_natCast, mul_comm]
    exact mul_le_mul_of_nonneg_right hle hten.le
  constructor
  · by_contra hcon
    have h : (10 : ℚ) ^ (k + len) ≤ 10 ^ (-331 : Int) :=
      zpow_le_zpow_right₀ (by norm_num) (by omega)
    have hnum : (10 : ℚ) ^ (-331 : Int) ≤ 2 ^ (-1075 : Int) := by
      rw [zpow_neg, zpow_neg]
      exact inv_anti₀ (two_zpow_pos _) (by exact_mod_cast two_pow_le_ten_pow.1)
    have hlow := hw.two_zpow_le hc
    linarith
  · by_contra hcon
    have h : (10 : ℚ) ^ (330 : Int) ≤ 10 ^ (k + len - 1) :=
      zpow_le_zpow_right₀ (by norm_num) (by omega)
    have hnum : (2 : ℚ) ^ (1024 : Int) ≤ 10 ^ (330 : Int) := by exact_mod_cast two_pow_le_ten_pow.2
    exact absurd ((h.trans hbottom).trans_lt (hw.lt_two_zpow hc he)) (not_lt.mpr hnum)

/-- A decimal in the rounding interval of a number is read as that number. -/
theorem ofDecimal_of_covers {c m : Nat} {k e : Int} (hc : Canonical m e) (he : e ≤ 971)
    (hpos : 0 < c)
    (hw : Covers m e (c * 10 ^ k)) : ofDecimal c k = ofUnpacked (.finite .positive m e hc.pos) := by
  obtain ⟨hsmall, hlarge⟩ := hw.point_bounds hc he hpos
  have hlog : (Nat.toDigits 10 c).length - 1 ≤ c.log2 := by
    rw [Nat.le_log2 hpos.ne']
    exact (Nat.pow_le_pow_left (by decide) _).trans (ten_pow_length_le hpos)
  have hlen := Nat.length_toDigits_pos (b := 10) (n := c)
  unfold ofDecimal
  dsimp only
  rw [if_neg (by omega), if_neg (by omega)]
  by_cases hk : 0 ≤ k
  · rw [if_pos hk]
    obtain ⟨n, rfl⟩ := Int.eq_ofNat_of_zero_le hk
    exact ofScientific_whole hc hpos hw (by omega)
  · rw [if_neg hk]
    obtain ⟨n, rfl⟩ : ∃ n : Nat, k = -n := ⟨(-k).toNat, by omega⟩
    rw [zpow_neg, zpow_natCast, ← div_eq_mul_inv] at hw
    rw [neg_neg, Int.toNat_natCast]
    exact ofScientific_fraction hc hpos (by omega) hw (by omega)

end SignalEngine.Number
