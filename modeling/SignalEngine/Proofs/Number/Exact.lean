import SignalEngine.Proofs.Number.Monotone

namespace SignalEngine.Number

open Float.Model (UnpackedFloat)
open Float.Model.UnpackedFloat (Sign decreaseExponent)

/-- The rational number that an unpacked number stands for. Infinities and NaN stand for none. -/
def worth : UnpackedFloat → ℚ
  | .finite s m e _ => s.apply m * 2 ^ e
  | .zero _ => 0
  | .infinity _ => 0
  | .notANumber => 0

/-- The exact value of a finite number. -/
def amount (x : Float) : ℚ :=
  worth (unpacked x)

theorem add_eq (x y : Float) : x + y = ofUnpacked (.add .binary64 (unpacked x) (unpacked y)) := rfl

theorem unpacked_ofUnpacked_zero (s : Sign) : unpacked (ofUnpacked (.zero s)) = .zero s :=
  unpack_zero s

theorem unpacked_ofUnpacked_infinity (s : Sign) :
    unpacked (ofUnpacked (.infinity s)) = .infinity s :=
  unpack_infinity s

theorem unpacked_cases (x : Float) :
    unpacked x = .notANumber ∨ (∃ s, unpacked x = .infinity s) ∨ (∃ s, unpacked x = .zero s) ∨
      ∃ s m e, ∃ hc : Canonical m e, e ≤ 971 ∧ unpacked x = .finite s m e hc.pos := by
  cases hnan : x.isNaN with
  | false => exact .inr (unpacked_of_not_isNaN hnan)
  | true =>
      rw [isNaN_eq] at hnan
      exact .inl (Float.Model.UnpackedFloat.isNaN_iff.1 hnan)

theorem unpacked_neg (x : Float) : unpacked (-x) = (unpacked x).neg := by
  rw [neg_eq]
  rcases unpacked_cases x with hx | ⟨s, hx⟩ | ⟨s, hx⟩ | ⟨s, m, e, hc, he, hx⟩ <;> rw [hx]
  · rfl
  · exact unpacked_ofUnpacked_infinity (-s)
  · exact unpacked_ofUnpacked_zero (-s)
  · exact unpacked_ofUnpacked hc he

theorem apply_neg (s : Sign) (z : Int) : (-s).apply z = -s.apply z := by
  cases s with
  | negative => exact (Int.neg_neg z).symm
  | positive => rfl

theorem sub_eq_add (x y : Float) : x - y = x + -y := by
  rw [sub_eq, add_eq, unpacked_neg]
  congr 1
  cases unpacked x with
  | notANumber => rfl
  | infinity s => cases unpacked y <;> rfl
  | zero s => cases unpacked y <;> rfl
  | finite s m e hm =>
      cases unpacked y with
      | notANumber => rfl
      | infinity s' => rfl
      | zero s' => rfl
      | finite s' n k hn =>
          simp only [UnpackedFloat.sub, UnpackedFloat.add, UnpackedFloat.neg, apply_neg,
            Int.sub_eq_add_neg]

theorem sub_positive_zero (x : Float) : x - 0.0 = x := by
  have h : UnpackedFloat.sub .binary64 (unpacked x) (.zero .positive) = unpacked x := by
    cases unpacked x with
    | zero s => cases s <;> rfl
    | notANumber => rfl
    | infinity s => rfl
    | finite s m e hm => rfl
  rw [sub_eq, unpacked_zero, h, ofUnpacked_unpacked]

theorem isFinite_of_ofUnpacked {u : UnpackedFloat} (h : (ofUnpacked u).isFinite = true) :
    u.isFinite = true := by
  cases u with
  | zero s => rfl
  | finite s m e hm => rfl
  | infinity s => cases s <;> exact absurd h (by decide)
  | notANumber => exact absurd h (by decide)

theorem isFinite_of_add {x y : Float} (h : (x + y).isFinite = true) :
    x.isFinite = true ∧ y.isFinite = true := by
  rw [add_eq] at h
  rw [isFinite_eq, isFinite_eq]
  replace h := isFinite_of_ofUnpacked h
  generalize unpacked x = u at h ⊢
  generalize unpacked y = v at h ⊢
  cases u with
  | notANumber => cases h
  | infinity s =>
      cases v with
      | infinity s' => cases s <;> cases s' <;> cases h
      | _ => cases h
  | _ =>
      cases v with
      | notANumber => cases h
      | infinity s' => cases h
      | _ => exact ⟨rfl, rfl⟩

theorem amount_neg (x : Float) : amount (-x) = -amount x := by
  rw [amount, unpacked_neg, amount]
  cases unpacked x with
  | finite s m e hm =>
      simp only [UnpackedFloat.neg, worth, apply_neg, Int.cast_neg, neg_mul]
  | _ => exact neg_zero.symm

@[simp] theorem amount_zero : amount 0.0 = 0 := by
  rw [amount, unpacked_zero, worth]

theorem worth_positive {m : Nat} {e : Int} (hm : 0 < m) :
    worth (.finite .positive m e hm) = m * 2 ^ e := rfl

theorem worth_negative {m : Nat} {e : Int} (hm : 0 < m) :
    worth (.finite .negative m e hm) = -(m * 2 ^ e) := by
  rw [worth, Sign.apply, Int.cast_neg, Int.cast_natCast, neg_mul]

theorem magnitude_pos {m : Nat} (hm : 0 < m) (e : Int) : (0 : ℚ) < m * 2 ^ e :=
  mul_pos (Nat.cast_pos.2 hm) (two_zpow_pos e)

theorem worth_ne_zero (s : Sign) {m : Nat} {e : Int} (hm : 0 < m) :
    worth (.finite s m e hm) ≠ 0 := by
  have hpos := magnitude_pos hm e
  cases s with
  | positive => exact hpos.ne'
  | negative =>
      rw [worth_negative]
      exact (neg_neg_of_pos hpos).ne

theorem Canonical.eq_of_value_eq {m n : Nat} {e k : Int} (h : Canonical m e) (h' : Canonical n k)
    (heq : (m * 2 ^ e : ℚ) = n * 2 ^ k) : m = n ∧ e = k := by
  have hle := (h.le_iff h').1 heq.le
  have hge := (h'.le_iff h).1 heq.ge
  omega

/-- The sign and the magnitude of a number can be told from its value. -/
theorem finite_eq_of_worth_eq {s s' : Sign} {m n : Nat} {e k : Int} (hc : Canonical m e)
    (hc' : Canonical n k)
    (h : worth (.finite s m e hc.pos) = worth (.finite s' n k hc'.pos)) :
    UnpackedFloat.finite s m e hc.pos = .finite s' n k hc'.pos := by
  have hpos := magnitude_pos hc.pos e
  have hpos' := magnitude_pos hc'.pos k
  cases s <;> cases s' <;> simp only [worth_positive, worth_negative] at h
  · obtain ⟨rfl, rfl⟩ := hc.eq_of_value_eq hc' (neg_inj.1 h)
    rfl
  · linarith
  · linarith
  · obtain ⟨rfl, rfl⟩ := hc.eq_of_value_eq hc' h
    rfl

theorem eq_of_unpacked_eq {x y : Float} (h : unpacked x = unpacked y) : x = y := by
  rw [← ofUnpacked_unpacked x, h, ofUnpacked_unpacked]

theorem unpacked_neg_zero : unpacked (-0.0) = .zero .negative := by
  rw [unpacked_neg, unpacked_zero]
  rfl

theorem unpacked_of_isFinite_of_ne {x : Float} (hx : x.isFinite = true) (hne : x ≠ -0.0) :
    unpacked x = .zero .positive ∨
      ∃ s m e, ∃ hc : Canonical m e, e ≤ 971 ∧ unpacked x = .finite s m e hc.pos := by
  rcases unpacked_of_isFinite hx with ⟨hzero, -⟩ | ⟨m, e, hc, hfinite, he, -⟩
  · rw [hzero]
    cases hs : sign x with
    | positive => exact .inl rfl
    | negative =>
        rw [hs, ← unpacked_neg_zero] at hzero
        exact absurd (eq_of_unpacked_eq hzero) hne
  · exact .inr ⟨_, m, e, hc, he, hfinite⟩

/-- Finite numbers with the same value are the same, but for the two zeros. -/
theorem eq_of_amount_eq {x y : Float} (hx : x.isFinite = true) (hy : y.isFinite = true)
    (hx' : x ≠ -0.0) (hy' : y ≠ -0.0) (h : amount x = amount y) : x = y := by
  apply eq_of_unpacked_eq
  rw [amount, amount] at h
  rcases unpacked_of_isFinite_of_ne hx hx' with hx | ⟨s, m, e, hc, -, hx⟩ <;>
    rcases unpacked_of_isFinite_of_ne hy hy' with hy | ⟨s', n, k, hc', -, hy⟩ <;>
    rw [hx, hy] at h ⊢
  · exact absurd h.symm (worth_ne_zero s' hc'.pos)
  · exact absurd h (worth_ne_zero s hc.pos)
  · exact finite_eq_of_worth_eq hc hc' h

theorem cast_apply (s : Sign) (z : Int) : (s.apply z : ℚ) = s.apply 1 * z := by
  cases s with
  | negative => simp [Sign.apply]
  | positive => simp [Sign.apply]

theorem exists_add_eq (s s' : Sign) {m n : Nat} {e k : Int} (hc : Canonical m e)
    (hc' : Canonical n k) :
    ∃ z t : Int, -1074 ≤ t ∧
      (z * 2 ^ t : ℚ) = worth (.finite s m e hc.pos) + worth (.finite s' n k hc'.pos) ∧
      UnpackedFloat.add .binary64 (.finite s m e hc.pos) (.finite s' n k hc'.pos) =
        .normalize .binary64 z t .positive := by
  have hleast := hc.least_le
  have hleast' := hc'.least_le
  have ha := shiftLeft_value m (e - min e k).toNat e
  have hb := shiftLeft_value n (k - min e k).toNat k
  rw [show e - ((e - min e k).toNat : Int) = min e k by omega] at ha
  rw [show k - ((k - min e k).toNat : Int) = min e k by omega] at hb
  refine ⟨_, min e k, by omega, ?_, rfl⟩
  rw [worth, worth, Int.cast_add, add_mul, cast_apply s, cast_apply s', cast_apply s m,
    cast_apply s' n, Int.cast_natCast, Int.cast_natCast, Int.cast_natCast, Int.cast_natCast,
    mul_assoc, mul_assoc, mul_assoc, mul_assoc, ha, hb]

theorem normalize_zero (t : Int) (s : Sign) :
    UnpackedFloat.normalize .binary64 0 t s = .zero s := rfl

theorem exists_stored_normalize {z : Int} (hz : z ≠ 0) (t : Int) {v : ℚ} (hv : (z * 2 ^ t : ℚ) = v) :
    ∃ s r u, v = s.apply 1 * |v| ∧ Rounds |v| r u ∧
      Stored s (.normalize .binary64 z t .positive) (r * 2 ^ u) := by
  have habs : (z.natAbs * 2 ^ t : ℚ) = |v| := by
    rw [← hv, abs_mul, Nat.cast_natAbs, Int.cast_abs, abs_of_pos (two_zpow_pos t)]
  rcases lt_or_gt_of_ne hz with hneg | hpos
  · have hvneg : v < 0 := by
      rw [← hv]
      exact mul_neg_of_neg_of_pos (Int.cast_lt_zero.2 hneg) (two_zpow_pos t)
    obtain ⟨r, u, hr, hstored⟩ := exists_stored_round .negative (Int.natAbs_ne_zero.2 hz) t
    rw [habs] at hr
    refine ⟨.negative, r, u, ?_, hr, ?_⟩
    · rw [abs_of_neg hvneg, Sign.apply, Int.cast_neg, Int.cast_one, neg_one_mul, neg_neg]
    · rwa [normalize_of_neg hneg, show (-z).toNat = z.natAbs by omega]
  · have hvpos : 0 < v := by
      rw [← hv]
      exact mul_pos (Int.cast_pos.2 hpos) (two_zpow_pos t)
    obtain ⟨r, u, hr, hstored⟩ := exists_stored_round .positive (Int.natAbs_ne_zero.2 hz) t
    rw [habs] at hr
    refine ⟨.positive, r, u, ?_, hr, ?_⟩
    · rw [abs_of_pos hvpos, Sign.apply, Int.cast_one, one_mul]
    · rwa [normalize_of_pos hpos, show z.toNat = z.natAbs by omega]

theorem two_zpow_le_abs {z : Int} (hz : z ≠ 0) {t : Int} (ht : -1074 ≤ t) :
    (2 : ℚ) ^ (-1074 : Int) ≤ |(z * 2 ^ t : ℚ)| := by
  have hone : (1 : ℚ) ≤ |(z : ℚ)| := by
    rw [← Int.cast_abs]
    exact_mod_cast Int.one_le_abs hz
  calc (2 : ℚ) ^ (-1074 : Int) ≤ 2 ^ t := zpow_le_zpow_right₀ one_le_two ht
    _ ≤ |(z : ℚ)| * 2 ^ t := le_mul_of_one_le_left (two_zpow_pos t).le hone
    _ = |(z * 2 ^ t : ℚ)| := by rw [abs_mul, abs_of_pos (two_zpow_pos t)]

theorem Stored.unpacked_ne_zero {s : Sign} {u : UnpackedFloat} {q : ℚ} (h : Stored s u q)
    (hq : q ≠ 0) (s' : Sign) : unpacked (ofUnpacked u) ≠ .zero s' := by
  cases h with
  | zero => exact absurd rfl hq
  | finite hc =>
      rcases unpacked_stored (s := s) hc with ⟨-, hpacked⟩ | ⟨-, hpacked⟩ <;> rw [hpacked] <;>
        exact nofun

section Zero

variable {x y : Float} {s s' : Sign} {m : Nat} {e : Int} {hm : 0 < m}

theorem add_eq_right (hx : unpacked x = .zero s) (hy : unpacked y = .finite s' m e hm) :
    x + y = y := by
  calc x + y = ofUnpacked (unpacked y) := by
        rw [add_eq, hx, hy]
        rfl
    _ = y := ofUnpacked_unpacked y

theorem add_eq_left (hx : unpacked x = .finite s m e hm) (hy : unpacked y = .zero s') :
    x + y = x := by
  calc x + y = ofUnpacked (unpacked x) := by
        rw [add_eq, hx, hy]
        rfl
    _ = x := ofUnpacked_unpacked x

theorem ne_neg_zero (hx : unpacked x = .finite s m e hm) : x ≠ -0.0 := by
  rintro rfl
  rw [unpacked_neg_zero] at hx
  cases hx

end Zero

/-- No sum is the negative zero unless both numbers are. -/
theorem add_ne_neg_zero {x : Float} (h : x ≠ -0.0) (y : Float) : x + y ≠ -0.0 := by
  intro heq
  have hfinite : (x + y).isFinite = true := by
    rw [heq]
    decide
  obtain ⟨hx, hy⟩ := isFinite_of_add hfinite
  rcases unpacked_of_isFinite_of_ne hx h with hx | ⟨s, m, e, hc, -, hx⟩ <;>
    rcases unpacked_of_isFinite hy with ⟨hy, -⟩ | ⟨n, k, hc', hy, -, -⟩
  · have hsum : ∀ s, ofUnpacked (.add .binary64 (.zero .positive) (.zero s)) ≠ -0.0 := by
      intro s
      cases s <;> decide
    rw [add_eq, hx, hy] at heq
    exact hsum _ heq
  · rw [add_eq_right hx hy] at heq
    exact ne_neg_zero hy heq
  · rw [add_eq_left hx hy] at heq
    exact h heq
  · obtain ⟨z, t, ht, -, hsum⟩ := exists_add_eq s (sign y) hc hc'
    rw [add_eq, hx, hy, hsum] at heq
    by_cases hz : z = 0
    · rw [hz, normalize_zero] at heq
      exact absurd heq (by decide)
    · obtain ⟨s', r, u, -, hr, hstored⟩ := exists_stored_normalize hz t rfl
      have hpos : (0 : ℚ) < r := by exact_mod_cast hr.pos (two_zpow_le_abs hz ht)
      refine hstored.unpacked_ne_zero (mul_pos hpos (two_zpow_pos u)).ne' .negative ?_
      rw [heq, unpacked_neg_zero]

theorem isNaN_add {x y : Float} (hx : x.isFinite = true) (hy : y.isFinite = true) :
    (x + y).isNaN = false := by
  rcases unpacked_of_isFinite hx with ⟨hx', -⟩ | ⟨m, e, hc, hx', -, -⟩ <;>
    rcases unpacked_of_isFinite hy with ⟨hy', -⟩ | ⟨n, k, hc', hy', -, -⟩
  · rw [add_eq, hx', hy']
    cases sign x <;> cases sign y <;> decide
  · rw [add_eq_right hx' hy']
    exact (isFinite_iff.1 hy).1
  · rw [add_eq_left hx' hy']
    exact (isFinite_iff.1 hx).1
  · obtain ⟨z, t, -, -, hsum⟩ := exists_add_eq (sign x) (sign y) hc hc'
    rw [add_eq, hx', hy', hsum]
    apply isNaN_ofUnpacked
    by_cases hz : z = 0
    · rw [hz]
      rfl
    · obtain ⟨s', r, u, -, -, hstored⟩ := exists_stored_normalize hz t rfl
      exact hstored.isNaN_eq_false

theorem isNaN_sub {x y : Float} (hx : x.isFinite = true) (hy : y.isFinite = true) :
    (x - y).isNaN = false := by
  rw [sub_eq_add]
  exact isNaN_add hx (isFinite_neg hy)

theorem Nearest.eq_of_natCast {n r : Nat} (h : Nearest n r) : r = n := by
  have hlow := h.low
  have hhigh := h.high
  have hle : (r : ℚ) < (n + 1 : Nat) := by
    push_cast
    linarith
  have hge : (n : ℚ) < (r + 1 : Nat) := by
    push_cast
    linarith
  rw [Nat.cast_lt] at hle hge
  omega

/-- In units of the last place a value of few enough units is a whole number. -/
theorem Rounds.exists_natCast {w : ℚ} {r : Nat} {t : Int} (h : Rounds w r t) {k : Nat} {u : Int}
    (hw : w = k * 2 ^ u) (hk : k ≤ 2 ^ 53) (hu : -1074 ≤ u) : ∃ n : Nat, w / 2 ^ t = n := by
  have hunits : w / 2 ^ t = k * 2 ^ (u - t) := by
    rw [hw, mul_div_assoc, ← zpow_sub₀ two_ne_zero]
  rcases le_or_gt t u with hle | hgt
  · refine ⟨k * 2 ^ (u - t).toNat, ?_⟩
    rw [hunits, Nat.cast_mul, Nat.cast_pow, Nat.cast_ofNat, ← zpow_natCast,
      Int.toNat_of_nonneg (by omega)]
  · -- the leading digit is out of reach, unless it is that of a power of two
    have hfull := h.full.resolve_right (by omega)
    have hk' : (k : ℚ) ≤ 2 ^ (53 : Int) := by exact_mod_cast hk
    rw [hunits] at hfull ⊢
    have hle : k * 2 ^ (u - t) ≤ (2 : ℚ) ^ (53 + (u - t)) := by
      rw [zpow_add₀ two_ne_zero]
      exact mul_le_mul_of_nonneg_right hk' (two_zpow_pos _).le
    have hpow : (2 : ℚ) ^ (52 : Int) ≤ 2 ^ (53 + (u - t)) := by
      exact_mod_cast hfull.trans hle
    rw [zpow_le_zpow_iff_right₀ one_lt_two] at hpow
    rw [show 53 + (u - t) = 52 by omega] at hle
    refine ⟨2 ^ 52, le_antisymm ?_ ?_⟩
    · exact_mod_cast hle
    · exact_mod_cast hfull

theorem Rounds.eq_of_units {w : ℚ} {r : Nat} {t : Int} (h : Rounds w r t) {k : Nat} {u : Int}
    (hw : w = k * 2 ^ u) (hk : k ≤ 2 ^ 53) (hu : -1074 ≤ u) : (r * 2 ^ t : ℚ) = w := by
  obtain ⟨n, hn⟩ := h.exists_natCast hw hk hu
  have hnearest := h.nearest
  rw [hn] at hnearest
  rw [hnearest.eq_of_natCast, ← hn, div_mul_cancel₀ _ (two_zpow_pos t).ne']

theorem Stored.amount_eq {s : Sign} {u : UnpackedFloat} {q : ℚ} (h : Stored s u q)
    (hq : q < 2 ^ (1024 : Int)) :
    (ofUnpacked u).isFinite = true ∧ amount (ofUnpacked u) = s.apply 1 * q := by
  cases h with
  | zero =>
      rw [isFinite_eq, amount, unpacked_ofUnpacked_zero, mul_zero]
      exact ⟨rfl, rfl⟩
  | @finite m e hc =>
      rcases unpacked_stored (s := s) hc with ⟨-, hpacked⟩ | ⟨he, -⟩
      · rw [isFinite_eq, amount, hpacked, worth, cast_apply, Int.cast_natCast, mul_assoc]
        exact ⟨rfl, rfl⟩
      · have hm : (2 : ℚ) ^ (52 : Int) ≤ m := by exact_mod_cast hc.full.resolve_right (by omega)
        have hlarge : (2 : ℚ) ^ (1024 : Int) ≤ m * 2 ^ e := by
          calc (2 : ℚ) ^ (1024 : Int) ≤ 2 ^ (52 + e) := zpow_le_zpow_right₀ one_le_two (by omega)
            _ = 2 ^ (52 : Int) * 2 ^ e := zpow_add₀ two_ne_zero _ _
            _ ≤ m * 2 ^ e := mul_le_mul_of_nonneg_right hm (two_zpow_pos e).le
        exact absurd hq hlarge.not_gt

section Units

variable {k u : Int} (hk : k.natAbs ≤ 2 ^ 53) (hlow : -1074 ≤ u) (hhigh : u ≤ 970)

include hk hlow hhigh

theorem amount_normalize {z t : Int} (hz : (z * 2 ^ t : ℚ) = k * 2 ^ u) :
    (ofUnpacked (.normalize .binary64 z t .positive)).isFinite = true ∧
      amount (ofUnpacked (.normalize .binary64 z t .positive)) = k * 2 ^ u := by
  by_cases hzero : z = 0
  · rw [hzero, Int.cast_zero, zero_mul] at hz
    rw [hzero, normalize_zero, ← hz]
    exact ⟨by decide, amount_zero⟩
  · obtain ⟨s, r, t', hsign, hrounds, hstored⟩ := exists_stored_normalize hzero t hz
    have habs : |(k * 2 ^ u : ℚ)| = k.natAbs * 2 ^ u := by
      rw [abs_mul, abs_of_pos (two_zpow_pos u), Nat.cast_natAbs, Int.cast_abs]
    have hk' : (k.natAbs : ℚ) ≤ 2 ^ (53 : Int) := by exact_mod_cast hk
    have hsmall : |(k * 2 ^ u : ℚ)| < 2 ^ (1024 : Int) := by
      calc |(k * 2 ^ u : ℚ)| = k.natAbs * 2 ^ u := habs
        _ ≤ 2 ^ (53 : Int) * 2 ^ u := mul_le_mul_of_nonneg_right hk' (two_zpow_pos u).le
        _ = 2 ^ (53 + u) := (zpow_add₀ two_ne_zero _ _).symm
        _ < 2 ^ (1024 : Int) := zpow_lt_zpow_right₀ one_lt_two (by omega)
    rw [hrounds.eq_of_units habs hk hlow] at hstored
    rw [hsign]
    exact hstored.amount_eq hsmall

/-- A sum of so few units that they fit into a significand is exact. -/
theorem amount_add {x y : Float} (hx : x.isFinite = true) (hy : y.isFinite = true)
    (h : amount x + amount y = k * 2 ^ u) :
    (x + y).isFinite = true ∧ amount (x + y) = amount x + amount y := by
  rcases unpacked_of_isFinite hx with ⟨hx', -⟩ | ⟨m, e, hc, hx', -, -⟩ <;>
    rcases unpacked_of_isFinite hy with ⟨hy', -⟩ | ⟨n, k', hc', hy', -, -⟩
  · have hsum : ∀ s s', (ofUnpacked (.add .binary64 (.zero s) (.zero s'))).isFinite = true ∧
        amount (ofUnpacked (.add .binary64 (.zero s) (.zero s'))) = 0 := by
      intro s s'
      cases s <;> cases s' <;> exact ⟨by decide, by rfl⟩
    rw [add_eq, amount.eq_1 x, amount.eq_1 y, hx', hy', worth, worth, add_zero]
    exact hsum _ _
  · rw [add_eq_right hx' hy', amount.eq_1 x, hx', worth, zero_add]
    exact ⟨hy, rfl⟩
  · rw [add_eq_left hx' hy', amount.eq_1 y, hy', worth, add_zero]
    exact ⟨hx, rfl⟩
  · obtain ⟨z, t, -, hz, hsum⟩ := exists_add_eq (sign x) (sign y) hc hc'
    rw [amount, amount, hx', hy'] at h
    rw [add_eq, amount.eq_1 x, amount.eq_1 y, hx', hy', hsum, h]
    exact amount_normalize hk hlow hhigh (hz.trans h)

end Units

/-- A number that consists of whole units, and of no more than so many. -/
structure Whole (unit : Int) (bound : Nat) (x : Float) : Prop where
  finite : x.isFinite = true
  units : ∃ k : Int, k.natAbs ≤ bound ∧ amount x = k * 2 ^ unit

namespace Whole

variable {unit : Int} {bound : Nat}

theorem zero (unit : Int) (bound : Nat) : Whole unit bound 0.0 where
  finite := by decide
  units := ⟨0, Nat.zero_le _, by rw [amount_zero, Int.cast_zero, zero_mul]⟩

theorem amount_sub {x y : Float} (hx : Whole unit bound x) (hy : Whole unit bound y)
    (hbound : 2 * bound ≤ 2 ^ 53) (hlow : -1074 ≤ unit) (hhigh : unit ≤ 970) :
    (x - y).isFinite = true ∧ amount (x - y) = amount x - amount y := by
  obtain ⟨k, hk, hxk⟩ := hx.units
  obtain ⟨l, hl, hyl⟩ := hy.units
  have hsum : amount x + amount (-y) = ((k - l : Int) : ℚ) * 2 ^ unit := by
    rw [amount_neg, hxk, hyl, Int.cast_sub, sub_mul, sub_eq_add_neg]
  rw [sub_eq_add, sub_eq_add_neg, ← amount_neg]
  exact amount_add (by omega) hlow hhigh hx.finite (isFinite_neg hy.finite) hsum

theorem exists_sum_eq {xs : List Float} (h : ∀ x ∈ xs, Whole unit bound x) :
    ∃ k : Int, k.natAbs ≤ xs.length * bound ∧ (xs.map amount).sum = k * 2 ^ unit := by
  induction xs with
  | nil => exact ⟨0, Nat.zero_le _, by simp⟩
  | cons x xs ih =>
      obtain ⟨hx, hxs⟩ := List.forall_mem_cons.1 h
      obtain ⟨k, hk, hxk⟩ := hx.units
      obtain ⟨l, hl, hsum⟩ := ih hxs
      refine ⟨k + l, ?_, ?_⟩
      · rw [List.length_cons, Nat.add_mul, Nat.one_mul]
        omega
      · rw [List.map_cons, List.sum_cons, hxk, hsum, Int.cast_add, add_mul]

end Whole

end SignalEngine.Number
