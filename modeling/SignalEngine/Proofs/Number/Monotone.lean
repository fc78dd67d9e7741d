import SignalEngine.Proofs.Number.Order

namespace SignalEngine.Number

open Float.Model (UnpackedFloat)
open Float.Model.UnpackedFloat (Sign Accuracy ExtendedMantissa decreaseExponent roundWithAccuracy)

theorem exists_nearest {v : ℚ} (hv : 0 ≤ v) : ∃ r, Nearest v r := by
  have hle := Nat.floor_le hv
  have hlt := Nat.lt_floor_add_one v
  generalize ⌊v⌋₊ = n at hle hlt
  rcases lt_trichotomy v (n + 1 / 2) with hbelow | htie | habove
  · exact ⟨n, by linarith, hbelow.le, fun _ => ⟨by linarith, hbelow⟩⟩
  · -- of a tie the even number is taken
    rcases Nat.mod_two_eq_zero_or_one n with heven | hodd
    · exact ⟨n, by linarith, htie.le, by omega⟩
    · refine ⟨n + 1, ?_, ?_, by omega⟩
      · push_cast
        linarith
      · push_cast
        linarith
  · refine ⟨n + 1, ?_, ?_, fun _ => ⟨?_, ?_⟩⟩ <;> push_cast <;> linarith

theorem Nearest.mono {v w : ℚ} {r s : Nat} (hr : Nearest v r) (hs : Nearest w s) (h : v ≤ w) :
    r ≤ s := by
  by_contra hlt
  rw [not_le] at hlt
  have hnext : (s : ℚ) + 1 ≤ r := by exact_mod_cast hlt
  have hlow := hr.low
  have hhigh := hs.high
  -- both values are the midpoint, which only goes to the even one of two neighbours
  have hrs : (r : ℚ) = s + 1 := by linarith
  have hrs' : r = s + 1 := by exact_mod_cast hrs
  rcases Nat.mod_two_eq_zero_or_one s with heven | hodd
  · have := (hr.strict (by omega)).1
    linarith
  · have := (hs.strict hodd).2
    linarith

/-- A value in units of the last place that its leading digit asks for, rounded to a whole number of
them. -/
structure Rounds (w : ℚ) (r : Nat) (t : Int) : Prop where
  nearest : Nearest (w / 2 ^ t) r
  least_le : -1074 ≤ t
  lt : w / 2 ^ t < 2 ^ 53
  full : 2 ^ 52 ≤ w / 2 ^ t ∨ t = -1074

namespace Rounds

variable {w w' : ℚ} {r r' : Nat} {t t' : Int}

theorem le_two_pow (h : Rounds w r t) : r ≤ 2 ^ 53 := by
  have hlow := h.nearest.low
  have hlt := h.lt
  have hr : (r : ℚ) < (2 ^ 53 + 1 : Nat) := by
    push_cast
    linarith
  exact Nat.le_of_lt_succ (by exact_mod_cast hr)

theorem two_pow_le (h : Rounds w r t) : 2 ^ 52 ≤ r ∨ t = -1074 := by
  refine h.full.imp_left fun hfull => ?_
  have hhigh := h.nearest.high
  have hr : ((2 ^ 52 : Nat) : ℚ) < (r + 1 : Nat) := by
    push_cast
    linarith
  exact Nat.le_of_lt_succ (by exact_mod_cast hr)

theorem exponent_le (h : Rounds w r t) (h' : Rounds w' r' t') (hle : w ≤ w') : t ≤ t' := by
  by_contra hlt
  rw [not_le] at hlt
  have hleast := h'.least_le
  have hfull := h.full.resolve_right (by omega)
  have hbelow := h'.lt
  rw [le_div_iff₀ (two_zpow_pos t), ← zpow_natCast, ← zpow_add₀ two_ne_zero] at hfull
  rw [div_lt_iff₀ (two_zpow_pos t'), ← zpow_natCast, ← zpow_add₀ two_ne_zero] at hbelow
  have hpow := (hfull.trans hle).trans_lt hbelow
  rw [zpow_lt_zpow_iff_right₀ one_lt_two] at hpow
  push_cast at hpow
  omega

theorem mono (h : Rounds w r t) (h' : Rounds w' r' t') (hle : w ≤ w') :
    (r * 2 ^ t : ℚ) ≤ r' * 2 ^ t' := by
  rcases (h.exponent_le h' hle).eq_or_lt with rfl | hlt
  · have hunits := div_le_div_of_nonneg_right hle (two_zpow_pos t).le
    have hr : (r : ℚ) ≤ r' := by exact_mod_cast h.nearest.mono h'.nearest hunits
    exact mul_le_mul_of_nonneg_right hr (two_zpow_pos t).le
  · have hleast := h.least_le
    have hr : (r : ℚ) ≤ 2 ^ (53 : Int) := by exact_mod_cast h.le_two_pow
    have hr' : (2 : ℚ) ^ (52 : Int) ≤ r' := by
      exact_mod_cast h'.two_pow_le.resolve_right (by omega)
    calc (r * 2 ^ t : ℚ) ≤ 2 ^ (53 : Int) * 2 ^ t :=
          mul_le_mul_of_nonneg_right hr (two_zpow_pos t).le
      _ ≤ 2 ^ (52 : Int) * 2 ^ t' := by
          rw [← zpow_add₀ two_ne_zero, ← zpow_add₀ two_ne_zero]
          exact zpow_le_zpow_right₀ one_le_two (by omega)
      _ ≤ r' * 2 ^ t' := mul_le_mul_of_nonneg_right hr' (two_zpow_pos t').le

theorem pos (h : Rounds w r t) (hw : 2 ^ (-1074 : Int) ≤ w) : 0 < r := by
  rcases h.two_pow_le with hfull | rfl
  · omega
  · have hhigh := h.nearest.high
    have hone : 1 ≤ w / 2 ^ (-1074 : Int) := (one_le_div (two_zpow_pos _)).2 hw
    have hr : (0 : ℚ) < r := by linarith
    exact_mod_cast hr

end Rounds

/-- A result with a sign, and the value without it: zero, or a number with the significand and exponent
as they are stored. -/
inductive Stored (s : Sign) : UnpackedFloat → ℚ → Prop
  | zero : Stored s (.zero s) 0
  | finite {m : Nat} {e : Int} (hc : Canonical m e) : Stored s (.finite s m e hc.pos) (m * 2 ^ e)

/-- A result is its exact value, rounded. -/
theorem exists_stored (s : Sign) {n : Nat} {f : Int} {a : Accuracy} {v : ℚ}
    (hv : Describes (.ofMantissaAndAccuracy n a) v) (hf : f ≤ -1074 ∨ 2 ^ 52 ≤ n) :
    ∃ r t, Rounds (v * 2 ^ f) r t ∧ Stored s (roundWithAccuracy .binary64 s n f a) (r * 2 ^ t) := by
  obtain ⟨t, ht⟩ : ∃ t, t = max (n.log2 + f - 52) (-1074) := ⟨_, rfl⟩
  have hft := le_target ht hf
  have hnonneg : 0 ≤ v := (Nat.cast_nonneg _).trans hv.le
  obtain ⟨r, hr⟩ := exists_nearest (v := v * 2 ^ f / 2 ^ t) (by positivity)
  have hrounds : Rounds (v * 2 ^ f) r t := by
    refine ⟨hr, by omega, ?_, ?_⟩
    · rw [div_lt_iff₀ (two_zpow_pos t), ← zpow_natCast, ← zpow_add₀ two_ne_zero]
      exact (hv.lt_two_zpow f).trans_le (zpow_le_zpow_right₀ one_le_two (by push_cast; omega))
    · rw [or_iff_not_imp_right]
      intro hleast
      have hn : n ≠ 0 := by
        rintro rfl
        have hlog : (0 : Nat).log2 = 0 := by decide
        omega
      rw [le_div_iff₀ (two_zpow_pos t), ← zpow_natCast, ← zpow_add₀ two_ne_zero]
      refine le_trans (zpow_le_zpow_right₀ one_le_two ?_) (hv.two_zpow_le hn f)
      push_cast
      omega
  have hround := hv.rounded hft hr
  refine ⟨r, t, hrounds, ?_⟩
  have hle := hrounds.le_two_pow
  have hfull := hrounds.two_pow_le
  rcases Nat.eq_zero_or_pos r with rfl | hpos
  · rw [roundWithAccuracy_of_zero ht hft hround, Nat.cast_zero, zero_mul]
    exact .zero
  rcases hle.eq_or_lt with rfl | hlt
  · rw [roundWithAccuracy_of_carry ht hft hround]
    have hcarry : ((2 ^ 53 : Nat) * 2 ^ t : ℚ) = (2 ^ 52 : Nat) * 2 ^ (t + 1) := by
      rw [zpow_add_one₀ two_ne_zero]
      push_cast
      ring
    rw [hcarry]
    exact .finite ⟨by decide, by decide, by omega, .inl le_rfl⟩
  · rw [roundWithAccuracy_of_lt ht hft hpos hlt hround]
    exact .finite ⟨hpos, hlt, by omega, hfull⟩

theorem shiftLeft_value (m k : Nat) (e : Int) :
    ((m <<< k : Nat) * 2 ^ (e - k) : ℚ) = m * 2 ^ e := by
  rw [cast_shiftLeft, mul_assoc, ← zpow_add₀ two_ne_zero]
  congr 2
  omega

theorem exists_stored_round (s : Sign) {n : Nat} (hn : n ≠ 0) (e : Int) :
    ∃ r t, Rounds (n * 2 ^ e) r t ∧ Stored s (UnpackedFloat.round .binary64 s n e) (r * 2 ^ t) := by
  rw [UnpackedFloat.round, targetExponent_eq]
  simp only [decreaseExponent]
  generalize hk : (e - max (n.log2 + e - 52) (-1074)).toNat = k
  have hbits : e - k ≤ -1074 ∨ 2 ^ 52 ≤ n <<< k := by
    rw [or_iff_not_imp_left, Nat.shiftLeft_eq]
    intro hlarge
    calc 2 ^ 52 ≤ 2 ^ (n.log2 + k) := Nat.pow_le_pow_right two_pos (by omega)
      _ ≤ n * 2 ^ k := by
          rw [pow_add]
          exact Nat.mul_le_mul_right _ (Nat.log2_self_le hn)
  rw [← shiftLeft_value n k e]
  exact exists_stored s (describes_exact (n <<< k)) hbits

theorem exists_stored_ne_zero (s : Sign) {n : Nat} {e : Int}
    (h : 2 ^ (-1074 : Int) ≤ (n * 2 ^ e : ℚ)) :
    ∃ q, Stored s (UnpackedFloat.round .binary64 s n e) q ∧ q ≠ 0 := by
  have hn : n ≠ 0 := by
    rintro rfl
    rw [Nat.cast_zero, zero_mul] at h
    exact absurd h (two_zpow_pos _).not_ge
  obtain ⟨r, t, hr, hstored⟩ := exists_stored_round s hn e
  have hpos : (0 : ℚ) < r := by exact_mod_cast hr.pos h
  exact ⟨_, hstored, (mul_pos hpos (two_zpow_pos t)).ne'⟩

theorem Canonical.two_zpow_le {m : Nat} {e : Int} (h : Canonical m e) :
    2 ^ (-1074 : Int) ≤ (m * 2 ^ e : ℚ) := by
  have hone : (1 : ℚ) ≤ m := by exact_mod_cast h.pos
  calc (2 : ℚ) ^ (-1074 : Int) ≤ 2 ^ e := zpow_le_zpow_right₀ one_le_two h.least_le
    _ ≤ m * 2 ^ e := le_mul_of_one_le_left (two_zpow_pos e).le hone

theorem Canonical.lt_of_exponent_lt {m n : Nat} {e k : Int} (h : Canonical m e) (h' : Canonical n k)
    (hlt : e < k) : (m * 2 ^ e : ℚ) < n * 2 ^ k := by
  have hleast := h.least_le
  have hm : (m : ℚ) < 2 ^ (53 : Int) := by exact_mod_cast h.lt
  have hn : (2 : ℚ) ^ (52 : Int) ≤ n := by exact_mod_cast h'.full.resolve_right (by omega)
  calc (m * 2 ^ e : ℚ) < 2 ^ (53 : Int) * 2 ^ e := mul_lt_mul_of_pos_right hm (two_zpow_pos e)
    _ ≤ 2 ^ (52 : Int) * 2 ^ k := by
        rw [← zpow_add₀ two_ne_zero, ← zpow_add₀ two_ne_zero]
        exact zpow_le_zpow_right₀ one_le_two (by omega)
    _ ≤ n * 2 ^ k := mul_le_mul_of_nonneg_right hn (two_zpow_pos k).le

theorem Canonical.le_iff {m n : Nat} {e k : Int} (h : Canonical m e) (h' : Canonical n k) :
    (m * 2 ^ e : ℚ) ≤ n * 2 ^ k ↔ e < k ∨ e = k ∧ m ≤ n := by
  rcases lt_trichotomy e k with hlt | rfl | hgt
  · exact iff_of_true (h.lt_of_exponent_lt h' hlt).le (.inl hlt)
  · rw [mul_le_mul_iff_left₀ (two_zpow_pos e), Nat.cast_le]
    simp
  · exact iff_of_false (h'.lt_of_exponent_lt h hgt).not_ge (by omega)

theorem rank_le_iff {m n : Nat} {e k : Int} (hc : Canonical m e) (hc' : Canonical n k) :
    rank (.finite .positive m e hc.pos) ≤ rank (.finite .positive n k hc'.pos) ↔
      (m * 2 ^ e : ℚ) ≤ n * 2 ^ k := by
  rw [hc.le_iff hc']
  simp [rank, Prod.Lex.le_iff]

theorem unpacked_zero : unpacked 0.0 = .zero .positive := rfl

section Forms

variable {x : Float}

theorem unpacked_of_not_isNaN (h : x.isNaN = false) :
    (∃ s, unpacked x = .infinity s) ∨ (∃ s, unpacked x = .zero s) ∨
      ∃ s m e, ∃ hc : Canonical m e, e ≤ 971 ∧ unpacked x = .finite s m e hc.pos := by
  by_cases hfinite : x.isFinite = true
  · rcases unpacked_of_isFinite hfinite with ⟨hzero, -⟩ | ⟨m, e, hc, hnumber, he, -⟩
    · exact .inr (.inl ⟨_, hzero⟩)
    · exact .inr (.inr ⟨_, m, e, hc, he, hnumber⟩)
  · rcases eq_of_not_isFinite hfinite with ⟨hnan, -⟩ | ⟨-, -, rfl⟩ | ⟨-, -, rfl⟩
    · rw [hnan] at h
      cases h
    · exact .inl ⟨_, unpacked_infinity⟩
    · exact .inl ⟨_, unpacked_neg_infinity⟩

theorem unpacked_of_nonneg (h : 0.0 ≤ x) :
    unpacked x = .infinity .positive ∨ (∃ s, unpacked x = .zero s) ∨
      ∃ m e, ∃ hc : Canonical m e, e ≤ 971 ∧ unpacked x = .finite .positive m e hc.pos := by
  have hnumber := (isNaN_of_le h).2
  rw [le_iff, unpacked_zero] at h
  rcases unpacked_of_not_isNaN hnumber with ⟨s, hx⟩ | hzero | ⟨s, m, e, hc, he, hx⟩
  · rw [hx] at h
    cases s with
    | negative => cases h
    | positive => exact .inl hx
  · exact .inr (.inl hzero)
  · rw [hx] at h
    cases s with
    | negative => cases h
    | positive => exact .inr (.inr ⟨m, e, hc, he, hx⟩)

theorem unpacked_of_pos (h : 0.0 < x) :
    unpacked x = .infinity .positive ∨
      ∃ m e, ∃ hc : Canonical m e, e ≤ 971 ∧ unpacked x = .finite .positive m e hc.pos := by
  rcases unpacked_of_nonneg (le_of_lt h) with hinfinite | ⟨s, hzero⟩ | hfinite
  · exact .inl hinfinite
  · rw [lt_iff, unpacked_zero, hzero] at h
    cases h
  · exact .inr hfinite

theorem unpacked_of_neg (h : x < 0.0) :
    unpacked x = .infinity .negative ∨
      ∃ m e, ∃ hc : Canonical m e, e ≤ 971 ∧ unpacked x = .finite .negative m e hc.pos := by
  have hnumber := (isNaN_of_lt h).1
  rw [lt_iff, unpacked_zero] at h
  rcases unpacked_of_not_isNaN hnumber with ⟨s, hx⟩ | ⟨s, hx⟩ | ⟨s, m, e, hc, he, hx⟩
  · rw [hx] at h
    cases s with
    | negative => exact .inl hx
    | positive => cases h
  · rw [hx] at h
    cases h
  · rw [hx] at h
    cases s with
    | negative => exact .inr ⟨m, e, hc, he, hx⟩
    | positive => cases h

end Forms

/-- What is stored is packed as it is, or as an infinity if it is too large. -/
theorem unpacked_stored {s : Sign} {m : Nat} {e : Int} (hc : Canonical m e) :
    (e ≤ 971 ∧ unpacked (ofUnpacked (.finite s m e hc.pos)) = .finite s m e hc.pos) ∨
      (971 < e ∧ unpacked (ofUnpacked (.finite s m e hc.pos)) = .infinity s) := by
  rcases ofUnpacked_finite s (e := e) hc.pos with ⟨he, -⟩ | hlarge
  · exact .inl ⟨he, unpacked_ofUnpacked hc he⟩
  · exact .inr hlarge

theorem nonneg_infinity : 0.0 ≤ ofUnpacked (.infinity .positive) := by decide

theorem nonneg_zero (s : Sign) : 0.0 ≤ ofUnpacked (.zero s) := by
  cases s <;> decide

namespace Stored

variable {u v : UnpackedFloat} {q q' : ℚ}

theorem isNaN_eq_false {s : Sign} (h : Stored s u q) : u.isNaN = false := by
  cases h with
  | zero => rfl
  | finite hc => rfl

theorem nonneg (h : Stored .positive u q) : 0.0 ≤ ofUnpacked u := by
  rw [le_iff, unpacked_zero]
  cases h with
  | zero => rfl
  | finite hc =>
      rcases unpacked_stored (s := .positive) hc with ⟨-, hpacked⟩ | ⟨-, hpacked⟩
      · rw [hpacked]
        rfl
      · rw [hpacked]
        rfl

theorem neg (h : Stored .negative u q) (hq : q ≠ 0) : ofUnpacked u < 0.0 := by
  rw [lt_iff, unpacked_zero]
  cases h with
  | zero => exact absurd rfl hq
  | finite hc =>
      rcases unpacked_stored (s := .negative) hc with ⟨-, hpacked⟩ | ⟨-, hpacked⟩
      · rw [hpacked]
        rfl
      · rw [hpacked]
        rfl

/-- Results are ordered as the stored values are. -/
theorem mono (h : Stored .positive u q) (h' : Stored .positive v q') (hle : q ≤ q') :
    ofUnpacked u ≤ ofUnpacked v := by
  have hu := isNaN_ofUnpacked h.isNaN_eq_false
  have hv := isNaN_ofUnpacked h'.isNaN_eq_false
  cases h with
  | zero => exact h'.nonneg
  | @finite m e hc =>
      cases h' with
      | zero =>
          have := hc.two_zpow_le
          have := two_zpow_pos (-1074)
          linarith
      | @finite n k hc' =>
          rcases unpacked_stored (s := .positive) hc' with ⟨hk, hpacked'⟩ | ⟨-, hpacked'⟩
          · rcases unpacked_stored (s := .positive) hc with ⟨he, hpacked⟩ | ⟨he, -⟩
            · rw [le_iff_place hu hv, place, hpacked, place, hpacked', rank_le_iff hc hc']
              exact hle
            · have := (hc.le_iff hc').1 hle
              omega
          · have hinfinity := le_infinity hu
            rw [le_iff_place hu hv, place, place, hpacked']
            rwa [le_iff_place hu (by decide), place, place, unpacked_infinity] at hinfinity

end Stored

theorem exists_sub_eq (s s' : Sign) {m n : Nat} (e k : Int) (hm : 0 < m) (hn : 0 < n) :
    ∃ (a b : Nat) (t : Int), (a * 2 ^ t : ℚ) = m * 2 ^ e ∧ (b * 2 ^ t : ℚ) = n * 2 ^ k ∧
      UnpackedFloat.sub .binary64 (.finite s m e hm) (.finite s' n k hn) =
        .normalize .binary64 (s.apply a - s'.apply b) t .positive := by
  have ha := shiftLeft_value m (e - min e k).toNat e
  have hb := shiftLeft_value n (k - min e k).toNat k
  rw [show e - ((e - min e k).toNat : Int) = min e k by omega] at ha
  rw [show k - ((k - min e k).toNat : Int) = min e k by omega] at hb
  exact ⟨_, _, _, ha, hb, rfl⟩

theorem normalize_of_neg {z : Int} (h : z < 0) (e : Int) (s : Sign) :
    UnpackedFloat.normalize .binary64 z e s =
      UnpackedFloat.round .binary64 .negative (-z).toNat e := by
  rw [UnpackedFloat.normalize, compare_lt_iff_lt.2 h]

theorem normalize_of_pos {z : Int} (h : 0 < z) (e : Int) (s : Sign) :
    UnpackedFloat.normalize .binary64 z e s =
      UnpackedFloat.round .binary64 .positive z.toNat e := by
  rw [UnpackedFloat.normalize, compare_gt_iff_gt.2 h]

theorem sub_neg_of_neg {x y : Float} (hx : x < 0.0) (hy : 0.0 ≤ y) : x - y < 0.0 := by
  have hinfinity : ofUnpacked (.infinity .negative) < 0.0 := by decide
  rw [sub_eq]
  rcases unpacked_of_neg hx with hx | ⟨m, e, hc, -, hx⟩
  · rcases unpacked_of_nonneg hy with hy | ⟨s, hy⟩ | ⟨n, k, hc', -, hy⟩ <;> rw [hx, hy]
    · exact hinfinity
    · exact hinfinity
    · exact hinfinity
  · have hleast := hc.two_zpow_le
    rcases unpacked_of_nonneg hy with hy | ⟨s, hy⟩ | ⟨n, k, hc', -, hy⟩ <;> rw [hx, hy]
    · exact hinfinity
    · exact (Stored.finite hc).neg ((two_zpow_pos _).trans_le hleast).ne'
    · obtain ⟨a, b, t, ha, hb, hsub⟩ := exists_sub_eq .negative .positive e k hc.pos hc'.pos
      have hdiff : Sign.negative.apply (a : Int) - Sign.positive.apply (b : Int) =
          -((a + b : Nat) : Int) := by
        simp only [Sign.apply]
        push_cast
        ring
      have hsum : 2 ^ (-1074 : Int) ≤ ((a + b : Nat) * 2 ^ t : ℚ) := by
        rw [Nat.cast_add, add_mul, ha, hb]
        have hnonneg : (0 : ℚ) ≤ n * 2 ^ k := by positivity
        linarith
      obtain ⟨q, hstored, hq⟩ := exists_stored_ne_zero .negative hsum
      have hpos : a + b ≠ 0 := by
        intro hzero
        rw [hzero, Nat.cast_zero, zero_mul] at hsum
        exact absurd hsum (two_zpow_pos _).not_ge
      rw [hsub, hdiff, normalize_of_neg (by omega), neg_neg, Int.toNat_natCast]
      exact hstored.neg hq

theorem sub_nonneg_of_lt {x y : Float} (hx : 0.0 ≤ x) (hxy : x < y) : 0.0 ≤ y - x := by
  have hplace := (lt_iff_place (isNaN_of_lt hxy).1 (isNaN_of_lt hxy).2).1 hxy
  rw [place, place] at hplace
  rw [sub_eq]
  rcases unpacked_of_pos (lt_of_le_of_lt hx hxy) with hy | ⟨n, k, hc', -, hy⟩
  · rcases unpacked_of_nonneg hx with hx | ⟨s, hx⟩ | ⟨m, e, hc, -, hx⟩ <;> rw [hx, hy] at hplace ⊢
    · exact absurd hplace (lt_irrefl _)
    · exact nonneg_infinity
    · exact nonneg_infinity
  · rcases unpacked_of_nonneg hx with hx | ⟨s, hx⟩ | ⟨m, e, hc, -, hx⟩ <;> rw [hx, hy] at hplace ⊢
    · exact absurd hplace (by simp [rank, Prod.Lex.lt_iff])
    · exact (Stored.finite hc').nonneg
    · rw [← not_le, rank_le_iff hc' hc, not_le] at hplace
      obtain ⟨a, b, t, ha, hb, hsub⟩ := exists_sub_eq .positive .positive k e hc'.pos hc.pos
      rw [← ha, ← hb, mul_lt_mul_iff_left₀ (two_zpow_pos t), Nat.cast_lt] at hplace
      have hdiff : Sign.positive.apply (a : Int) - Sign.positive.apply (b : Int) =
          ((a - b : Nat) : Int) := by
        simp only [Sign.apply]
        omega
      rw [hsub, hdiff, normalize_of_pos (by omega), Int.toNat_natCast]
      obtain ⟨r, u, -, hstored⟩ := exists_stored_round .positive (n := a - b) (by omega) t
      exact hstored.nonneg

theorem div_nonneg_of_pos {x y : Float} (hx : 0.0 ≤ x) (hy : 0.0 < y) (hfinite : y.isFinite = true) :
    0.0 ≤ x / y := by
  rw [isFinite_eq] at hfinite
  rcases unpacked_of_pos hy with hy | ⟨n, k, hc', -, hy⟩
  · rw [hy] at hfinite
    cases hfinite
  rw [div_eq, hy]
  rcases unpacked_of_nonneg hx with hx | ⟨s, hx⟩ | ⟨m, e, hc, -, hx⟩ <;> rw [hx]
  · exact nonneg_infinity
  · exact nonneg_zero _
  · obtain ⟨r, t, -, hstored⟩ := exists_stored (.positive / .positive) (describes_fraction hc'.pos)
      (quotient_bits e k hc.pos hc'.pos)
    exact hstored.nonneg

theorem product_bits {m n : Nat} {e k : Int} (h : Canonical m e) (h' : Canonical n k) :
    e + k ≤ -1074 ∨ 2 ^ 52 ≤ m * n := by
  rcases h.full with hfull | rfl
  · exact .inr (hfull.trans (Nat.le_mul_of_pos_right m h'.pos))
  · rcases h'.full with hfull | rfl
    · exact .inr (hfull.trans (Nat.le_mul_of_pos_left n h.pos))
    · exact .inl (by norm_num)

theorem mul_le_mul_of_nonneg {f x y : Float} (hf : 0.0 ≤ f) (hx : 0.0 < x) (hxy : x ≤ y)
    (hy : y.isFinite = true) : f * x ≤ f * y := by
  have hplace := (le_iff_place (isNaN_of_le hxy).1 (isNaN_of_le hxy).2).1 hxy
  have hypos := unpacked_of_pos (lt_of_lt_of_le hx hxy)
  rw [isFinite_eq] at hy
  rw [place, place] at hplace
  rw [mul_eq, mul_eq]
  rcases hypos with hy' | ⟨n, k, hc', -, hy'⟩
  · rw [hy'] at hy
    cases hy
  rcases unpacked_of_pos hx with hx' | ⟨m, e, hc, -, hx'⟩
  · rw [hx', hy'] at hplace
    exact absurd hplace (by simp [rank, Prod.Lex.le_iff])
  rw [hx', hy', rank_le_iff hc hc'] at hplace
  rw [hx', hy']
  rcases unpacked_of_nonneg hf with hf | ⟨s, hf⟩ | ⟨l, i, hc'', -, hf⟩ <;> rw [hf]
  · exact le_self (isNaN_ofUnpacked rfl)
  · exact le_self (isNaN_ofUnpacked rfl)
  · obtain ⟨r, t, hr, hstored⟩ := exists_stored (.positive * .positive) (describes_exact (l * m))
      (product_bits hc'' hc)
    obtain ⟨r', t', hr', hstored'⟩ := exists_stored (.positive * .positive)
      (describes_exact (l * n)) (product_bits hc'' hc')
    apply hstored.mono hstored'
    apply hr.mono hr'
    rw [product_value, product_value]
    exact mul_le_mul_of_nonneg_left hplace (by positivity)

end SignalEngine.Number
