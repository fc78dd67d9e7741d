import Mathlib
import SignalEngine.Number.Binary
import SignalEngine.Number.Decimal
import SignalEngine.Number.Fold

namespace SignalEngine.Number

open Float.Model (Format UnpackedFloat)
open Float.Model.UnpackedFloat (Sign packComponents unpackSign unpackExponent unpackMantissa
  unpackSign_packComponents unpackExponent_packComponents unpackMantissa_packComponents)

/-- A number as its operations take it apart. -/
def unpacked (x : Float) : UnpackedFloat :=
  x.toModel.unpack

/-- The number that is put together from its parts. -/
def ofUnpacked (u : UnpackedFloat) : Float :=
  .ofModel (.pack u)

/-- The significand and exponent of a positive number as they are stored: the significand is as long
as possible, unless the exponent is the least one. -/
structure Canonical (m : Nat) (e : Int) : Prop where
  pos : 0 < m
  lt : m < 2 ^ 53
  least_le : -1074 ≤ e
  full : 2 ^ 52 ≤ m ∨ e = -1074

/-- The number below is only half as far away as the number above. -/
def NarrowBelow (m : Nat) (e : Int) : Prop :=
  m = 2 ^ 52 ∧ -1074 < e

instance (m : Nat) (e : Int) : Decidable (NarrowBelow m e) :=
  inferInstanceAs (Decidable (_ ∧ _))

theorem toNat_packComponents (s : Sign) (e : BitVec 11) (m : BitVec 52) :
    (packComponents .binary64 s e m).toNat =
      (s.toBitVec.toNat * 2 ^ 11 + e.toNat) * 2 ^ 52 + m.toNat := by
  simp only [packComponents]
  rw [BitVec.toNat_append, BitVec.toNat_append, ← Nat.shiftLeft_add_eq_or_of_lt m.isLt,
    ← Nat.shiftLeft_add_eq_or_of_lt e.isLt]
  simp [Nat.shiftLeft_eq]

theorem exists_packComponents (b : BitVec 64) : ∃ s e m, b = packComponents .binary64 s e m := by
  have hparts :=
    @Float.Model.UnpackedFloat.packComponents_unpackSign_unpackExponent_unpackMantissa .binary64 b
  exact ⟨_, _, _, hparts.symm⟩

theorem toNat_implicit (m : BitVec 52) : (1#1 ++ m).toNat = 2 ^ 52 + m.toNat := by
  rw [BitVec.toNat_append, ← Nat.shiftLeft_add_eq_or_of_lt m.isLt]
  simp [Nat.shiftLeft_eq]

theorem toNat_lt_of_ne_allOnes {e : BitVec 11} (h : e ≠ -1#11) : e.toNat < 2047 := by
  have hlt := e.isLt
  have hne : e.toNat ≠ 2047 := fun h' => h (BitVec.eq_of_toNat_eq h')
  omega

theorem toNat_pos_of_ne_zero {n : Nat} {b : BitVec n} (h : b ≠ 0#n) : 0 < b.toNat :=
  Nat.pos_of_ne_zero fun h' => h (BitVec.eq_of_toNat_eq (by simpa using h'))

theorem pack_normal {s : Sign} {m : Nat} {e : Int} (hm : 0 < m) (hfull : 2 ^ 52 ≤ m)
    (hlt : m < 2 ^ 53) (hlow : -1074 ≤ e) (hhigh : e ≤ 971) :
    UnpackedFloat.pack .binary64 (.finite s m e hm) =
      packComponents .binary64 s (BitVec.ofNat 11 (e + 1075).toNat) (BitVec.ofNat 52 m) := by
  have hlog : m.log2 = 52 := (Nat.log2_eq_iff (by omega)).mpr ⟨hfull, hlt⟩
  have hexp : (e + 1023 + 52).toNat = (e + 1075).toNat := by omega
  simp only [UnpackedFloat.pack, Format.exponentBias, Format.mantissaBits, hlog]
  norm_num only
  rw [hexp, if_neg (by omega), if_pos trivial]

theorem pack_subnormal {s : Sign} {m : Nat} (hm : 0 < m) (hlt : m < 2 ^ 52) :
    UnpackedFloat.pack .binary64 (.finite s m (-1074) hm) =
      packComponents .binary64 s 0#11 (BitVec.ofNat 52 m) := by
  have hlog : m.log2 < 52 := (Nat.log2_lt (by omega)).mpr hlt
  simp only [UnpackedFloat.pack, Format.exponentBias, Format.mantissaBits]
  norm_num only
  rw [if_neg (by decide), if_neg (by omega)]

theorem unpack_normal {s : Sign} {e : BitVec 11} {m : BitVec 52} (he : e ≠ -1#11) (he' : e ≠ 0#11) :
    UnpackedFloat.unpack .binary64 (packComponents .binary64 s e m) =
      .finite s (1#1 ++ m).toNat ((e.toNat : Int) - 1075) (by rw [toNat_implicit]; omega) := by
  simp only [UnpackedFloat.unpack, unpackExponent_packComponents,
    unpackMantissa_packComponents, unpackSign_packComponents,
    Sign.ofBitVec_toBitVec, if_neg he, if_neg he', Format.exponentBias]
  norm_num only

theorem unpack_subnormal {s : Sign} {m : BitVec 52} (hm : m ≠ 0#52) :
    UnpackedFloat.unpack .binary64 (packComponents .binary64 s 0#11 m) =
      .finite s m.toNat (-1074) (toNat_pos_of_ne_zero hm) := by
  simp only [UnpackedFloat.unpack, unpackExponent_packComponents,
    unpackMantissa_packComponents, unpackSign_packComponents,
    Sign.ofBitVec_toBitVec, Format.exponentBias]
  rw [if_neg (by decide), if_pos trivial, dif_neg hm]
  rfl

theorem unpack_zero (s : Sign) :
    UnpackedFloat.unpack .binary64 (packComponents .binary64 s 0#11 0#52) = .zero s := by
  simp [UnpackedFloat.unpack]

theorem unpack_infinity (s : Sign) :
    UnpackedFloat.unpack .binary64 (packComponents .binary64 s (-1#11) 0#52) = .infinity s := by
  simp [UnpackedFloat.unpack]

theorem unpack_nan (s : Sign) {m : BitVec 52} (hm : m ≠ 0#52) :
    UnpackedFloat.unpack .binary64 (packComponents .binary64 s (-1#11) m) = .notANumber := by
  simp [UnpackedFloat.unpack, hm]

/-- Unpacking undoes packing of a number in range. -/
theorem unpack_pack {s : Sign} {m : Nat} {e : Int} (h : Canonical m e) (hhigh : e ≤ 971) :
    UnpackedFloat.unpack .binary64 (UnpackedFloat.pack .binary64 (.finite s m e h.pos)) =
      .finite s m e h.pos := by
  have hlt := h.lt
  have hlow := h.least_le
  by_cases hfull : 2 ^ 52 ≤ m
  · rw [pack_normal h.pos hfull hlt hlow hhigh]
    have hexp : (BitVec.ofNat 11 (e + 1075).toNat).toNat = (e + 1075).toNat := by
      rw [BitVec.toNat_ofNat]
      omega
    have hman : (1#1 ++ BitVec.ofNat 52 m).toNat = m := by
      rw [toNat_implicit, BitVec.toNat_ofNat]
      omega
    rw [unpack_normal]
    · congr 1
      omega
    · intro h'
      rw [h'] at hexp
      have : (-1#11).toNat = 2047 := rfl
      omega
    · intro h'
      rw [h'] at hexp
      have : (0#11).toNat = 0 := rfl
      omega
  · obtain rfl : e = -1074 := h.full.resolve_left hfull
    have hpos := h.pos
    have hman : (BitVec.ofNat 52 m).toNat = m := by
      rw [BitVec.toNat_ofNat]
      omega
    rw [pack_subnormal h.pos (by omega), unpack_subnormal]
    · congr 1
    · intro h'
      rw [h'] at hman
      have : (0#52).toNat = 0 := rfl
      omega

@[simp] theorem ofUnpacked_unpacked (x : Float) : ofUnpacked (unpacked x) = x := by
  obtain ⟨⟨b, hb⟩⟩ := x
  simp only [ofUnpacked, unpacked, Float.Model.pack, Float.Model.unpack,
    Float.Model.UnpackedFloat.pack_unpack_of_valid hb]

theorem unpacked_ofUnpacked {s : Sign} {m : Nat} {e : Int} (h : Canonical m e) (hhigh : e ≤ 971) :
    unpacked (ofUnpacked (.finite s m e h.pos)) = .finite s m e h.pos :=
  unpack_pack h hhigh

theorem isFinite_eq (x : Float) : x.isFinite = (unpacked x).isFinite := rfl

theorem neg_eq (x : Float) : -x = ofUnpacked (unpacked x).neg := rfl

theorem mul_eq (x y : Float) : x * y = ofUnpacked (.mul .binary64 (unpacked x) (unpacked y)) := rfl

theorem div_eq (x y : Float) : x / y = ofUnpacked (.div .binary64 (unpacked x) (unpacked y)) := rfl

def sign (x : Float) : Sign :=
  if isNegative x then .negative else .positive

theorem toNat_toBits (x : Float) : x.toBits.toNat = x.toModel.toBits.toBitVec.toNat := rfl

theorem sign_eq {x : Float} {s : Sign} {e : BitVec 11} {m : BitVec 52}
    (h : x.toModel.toBits.toBitVec = packComponents .binary64 s e m) : sign x = s := by
  have hbits := toNat_toBits x
  rw [h, toNat_packComponents] at hbits
  have he := e.isLt
  have hm := m.isLt
  cases s <;> simp only [sign, isNegative, wordValues, Sign.toBitVec] at * <;> norm_num at * <;>
    omega

theorem magnitude_eq {x : Float} {s : Sign} {e : BitVec 11} {m : BitVec 52}
    (h : x.toModel.toBits.toBitVec = packComponents .binary64 s e m) :
    magnitude x = if e.toNat = 0 then ⟨m.toNat, -1074, false⟩ else
      ⟨m.toNat + 2 ^ 52, Int.ofNat e.toNat - 1075, m.toNat == 0 && decide (1 < e.toNat)⟩ := by
  have hbits := toNat_toBits x
  rw [h, toNat_packComponents] at hbits
  have hs := s.toBitVec.isLt
  have hm := m.isLt
  have he := e.isLt
  have hfraction : x.toBits.toNat % 2 ^ 52 = m.toNat := by omega
  have hbiased : x.toBits.toNat / 2 ^ 52 % 2 ^ 11 = e.toNat := by omega
  simp only [magnitude, wordValues, Nat.pow_eq, hfraction, hbiased]

theorem unpacked_of_isFinite {x : Float} (h : x.isFinite) :
    (unpacked x = .zero (sign x) ∧ (magnitude x).significand = 0) ∨
      ∃ (m : Nat) (e : Int) (hc : Canonical m e), unpacked x = .finite (sign x) m e hc.pos ∧
        e ≤ 971 ∧
        magnitude x = ⟨m, e, decide (NarrowBelow m e)⟩ := by
  obtain ⟨s, e, m, hb⟩ := exists_packComponents x.toModel.toBits.toBitVec
  have hu : unpacked x = UnpackedFloat.unpack .binary64 (packComponents .binary64 s e m) := by
    rw [← hb]
    rfl
  rw [isFinite_eq, hu] at h
  rw [sign_eq hb, hu, magnitude_eq hb]
  have hm : m.toNat < 2 ^ 52 := m.isLt
  by_cases he : e = -1#11
  · subst he
    by_cases hm : m = 0#52
    · subst hm
      rw [unpack_infinity] at h
      cases h
    · rw [unpack_nan s hm] at h
      cases h
  by_cases he' : e = 0#11
  · subst he'
    rw [if_pos (show (0#11).toNat = 0 from rfl)]
    by_cases hm : m = 0#52
    · subst hm
      exact .inl ⟨unpack_zero s, rfl⟩
    · have hpos := toNat_pos_of_ne_zero hm
      exact .inr ⟨m.toNat, -1074, ⟨hpos, by omega, le_rfl, .inr rfl⟩,
        unpack_subnormal hm, by norm_num, by simp [NarrowBelow]⟩
  · have hpos := toNat_pos_of_ne_zero he'
    have hlt := toNat_lt_of_ne_allOnes he
    rw [if_neg (by omega)]
    refine .inr ⟨m.toNat + 2 ^ 52, Int.ofNat e.toNat - 1075,
      ⟨by omega, by omega, by rw [Int.ofNat_eq_natCast]; omega, .inl (by omega)⟩, ?_,
      by rw [Int.ofNat_eq_natCast]; omega, ?_⟩
    · rw [unpack_normal he he']
      congr 1
      rw [toNat_implicit]
      exact Nat.add_comm _ _
    · rw [Magnitude.mk.injEq]
      refine ⟨rfl, rfl, ?_⟩
      rw [Bool.eq_iff_iff, Bool.and_eq_true, beq_iff_eq, decide_eq_true_eq, decide_eq_true_eq,
        NarrowBelow, Int.ofNat_eq_natCast]
      omega

theorem eq_of_not_isFinite {x : Float} (h : ¬ x.isFinite) :
    (x.isNaN = true ∧ x = nan) ∨
      (x.isNaN = false ∧ 0.0 < x ∧ x = infinity) ∨
        (x.isNaN = false ∧ ¬ 0.0 < x ∧ x = -infinity) := by
  have hback := ofUnpacked_unpacked x
  rw [isFinite_eq] at h
  cases hu : unpacked x with
  | infinity s =>
      rw [hu] at hback
      rw [← hback]
      cases s with
      | positive => exact .inr (.inl (by decide))
      | negative => exact .inr (.inr (by decide))
  | notANumber =>
      rw [hu] at hback
      rw [← hback]
      exact .inl (by decide)
  | zero s =>
      rw [hu] at h
      exact absurd rfl h
  | finite s m e hm =>
      rw [hu] at h
      exact absurd rfl h

end SignalEngine.Number
