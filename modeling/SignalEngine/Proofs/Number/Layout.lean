import SignalEngine.Number.Layout
import SignalEngine.Proofs.Number.Scientific
import SignalEngine.Proofs.Number.Shortest

namespace SignalEngine.Number

theorem natOfDigits_eq (digits : List Char) :
    natOfDigits digits = Nat.ofDigitChars 10 digits 0 := rfl

@[simp] theorem natOfDigits_toDigits (n : Nat) : natOfDigits (Nat.toDigits 10 n) = n := by
  rw [natOfDigits_eq, Nat.ofDigitChars_ten_toDigits]

theorem natOfDigits_append (xs ys : List Char) :
    natOfDigits (xs ++ ys) = natOfDigits xs * 10 ^ ys.length + natOfDigits ys := by
  rw [natOfDigits_eq, natOfDigits_eq, natOfDigits_eq, Nat.ofDigitChars_append,
    Nat.ofDigitChars_eq_ofDigitChars_zero, mul_comm]

@[simp] theorem natOfDigits_zeros (k : Nat) : natOfDigits (zeros k) = 0 := by
  rw [natOfDigits_eq, zeros, Nat.ofDigitChars_replicate_zero, mul_zero]

@[simp] theorem length_zeros (k : Nat) : (zeros k).length = k := by
  simp [zeros]

theorem isDigit_of_mem_zeros {c : Char} {k : Nat} (h : c ∈ zeros k) : c.isDigit = true := by
  rw [List.eq_of_mem_replicate h]
  rfl

theorem natOfDigits_append_zeros (xs : List Char) (k : Nat) :
    natOfDigits (xs ++ zeros k) = natOfDigits xs * 10 ^ k := by
  rw [natOfDigits_append, natOfDigits_zeros, length_zeros, add_zero]

theorem natOfDigits_zeros_append (k : Nat) (xs : List Char) :
    natOfDigits (zeros k ++ xs) = natOfDigits xs := by
  rw [natOfDigits_append, natOfDigits_zeros, zero_mul, zero_add]

theorem head_toDigits_ne_zero {n : Nat} (h : 0 < n) : ∀ c ∈ (Nat.toDigits 10 n).head?, c ≠ '0' := by
  induction n using Nat.strongRecOn with
  | ind n ih =>
      intro c hc
      rw [Nat.toDigits_eq_if (by decide)] at hc
      split at hc
      · rw [List.head?_cons, Option.mem_some_iff] at hc
        rw [← hc, Ne, Nat.digitChar_eq_zero]
        omega
      · rw [List.head?_append_of_ne_nil _ Nat.toDigits_ne_nil] at hc
        exact ih (n / 10) (by omega) (by omega) c hc

/-- The digits of a decimal are digits, and the first is not zero. -/
structure Decimal.WellFormed (d : Decimal) : Prop where
  isDigit : ∀ c ∈ d.digits, c.isDigit = true
  head_ne_zero : ∀ c ∈ d.digits.head?, c ≠ '0'
  ne_nil : d.digits ≠ []

/-- The rational number that a decimal stands for. -/
def Decimal.value (d : Decimal) : ℚ :=
  natOfDigits d.digits * 10 ^ (d.point - d.digits.length)

theorem exists_zeros_of_ofNat (n : Nat) (e : Int) :
    ∃ k, Nat.toDigits 10 n = (Decimal.ofNat n e).digits ++ zeros k := by
  obtain ⟨ds, hds⟩ : ∃ ds, ds = (Nat.toDigits 10 n).reverse := ⟨_, rfl⟩
  have hzeros : (ds.takeWhile (· == '0')).reverse = zeros (ds.takeWhile (· == '0')).length := by
    rw [zeros, List.eq_replicate_iff, List.length_reverse]
    refine ⟨rfl, fun c hc => ?_⟩
    exact beq_iff_eq.mp (List.mem_takeWhile_imp (p := (· == '0')) (List.mem_reverse.mp hc))
  refine ⟨(ds.takeWhile (· == '0')).length, ?_⟩
  calc Nat.toDigits 10 n = ds.reverse := by rw [hds, List.reverse_reverse]
    _ = (ds.takeWhile (· == '0') ++ ds.dropWhile (· == '0')).reverse := by
        rw [List.takeWhile_append_dropWhile]
    _ = (Decimal.ofNat n e).digits ++ zeros (ds.takeWhile (· == '0')).length := by
        rw [List.reverse_append, hzeros, hds]
        rfl

theorem wellFormed_ofNat {n : Nat} (h : 0 < n) (e : Int) : (Decimal.ofNat n e).WellFormed := by
  obtain ⟨k, hk⟩ := exists_zeros_of_ofNat n e
  have hne : (Decimal.ofNat n e).digits ≠ [] := by
    intro hnil
    rw [hnil, List.nil_append] at hk
    have hvalue := natOfDigits_toDigits n
    rw [hk, natOfDigits_zeros] at hvalue
    omega
  refine ⟨fun c hc => ?_, fun c hc => ?_, hne⟩
  · apply Nat.isDigit_of_mem_toDigits (b := 10) (n := n) (by decide) (by decide)
    rw [hk]
    exact List.mem_append_left _ hc
  · apply head_toDigits_ne_zero h
    rw [hk, List.head?_append_of_ne_nil _ hne]
    exact hc

theorem value_ofNat (n : Nat) (e : Int) : (Decimal.ofNat n e).value = n * 10 ^ e := by
  obtain ⟨k, hk⟩ := exists_zeros_of_ofNat n e
  have hvalue := natOfDigits_toDigits n
  rw [hk, natOfDigits_append_zeros] at hvalue
  have hlength : (Nat.toDigits 10 n).length = (Decimal.ofNat n e).digits.length + k := by
    rw [hk, List.length_append, length_zeros]
  have hpoint : (Decimal.ofNat n e).point = e + (Nat.toDigits 10 n).length := rfl
  have hexp : (Decimal.ofNat n e).point - (Decimal.ofNat n e).digits.length = e + k := by
    rw [hpoint, hlength]
    push_cast
    ring
  rw [Decimal.value, hexp, zpow_add₀ (by norm_num), zpow_natCast]
  have hcast : (n : ℚ) = natOfDigits (Decimal.ofNat n e).digits * 10 ^ k := by
    exact_mod_cast hvalue.symm
  rw [hcast]
  ring

structure Parts where
  whole : List Char
  fraction : Option (List Char)
  exponent : Option Int

namespace Parts

def fractionText : Option (List Char) → List Char
  | none => []
  | some digits => '.' :: digits

def exponentText : Option Int → List Char
  | none => []
  | some e => 'e' :: (if e < 0 then '-' else '+') :: Nat.toDigits 10 e.natAbs

def text (p : Parts) : List Char :=
  p.whole ++ (fractionText p.fraction ++ exponentText p.exponent)

/-- The numeral that is read. -/
def numeral (p : Parts) : Numeral :=
  ⟨p.whole, p.fraction.getD [], p.exponent.getD 0⟩

/-- The parts consist of digits, none is empty, and the whole part does not start with a needless
zero. -/
structure WellFormed (p : Parts) : Prop where
  whole_ne_nil : p.whole ≠ []
  whole_isDigit : ∀ c ∈ p.whole, c.isDigit = true
  whole_head : '0' ∈ p.whole.head? → p.whole = ['0']
  fraction_ne_nil : ∀ ds ∈ p.fraction, ds ≠ []
  fraction_isDigit : ∀ ds ∈ p.fraction, ∀ c ∈ ds, c.isDigit = true

end Parts

def Numeral.rational (n : Numeral) : ℚ :=
  natOfDigits (n.whole ++ n.fraction) * 10 ^ (n.exponent - n.fraction.length)

theorem exists_parts_scientific {d : Decimal} (h : d.WellFormed) :
    ∃ p : Parts, p.WellFormed ∧ p.text = d.scientific ∧ p.numeral.rational = d.value ∧
      (p.fraction.isSome || p.exponent.isSome) = true := by
  obtain ⟨digits, point⟩ := d
  have hdigit := h.isDigit
  have hhead := h.head_ne_zero
  match digits, h.ne_nil with
  | [first], _ =>
      refine ⟨⟨[first], none, some (point - 1)⟩,
        ⟨by simp, by simpa using hdigit, ?_, by simp, by simp⟩, ?_, ?_, rfl⟩
      · intro hzero
        exact absurd rfl (hhead '0' hzero)
      · simp only [Parts.text, Parts.fractionText, Parts.exponentText, Decimal.scientific]
        split <;> rfl
      · simp [Parts.numeral, Numeral.rational, Decimal.value]
  | first :: second :: rest, _ =>
      refine ⟨⟨[first], some (second :: rest), some (point - 1)⟩,
        ⟨by simp, fun c hc => ?_, ?_, by simp, ?_⟩, ?_, ?_, rfl⟩
      · rw [List.mem_singleton] at hc
        rw [hc]
        exact hdigit first List.mem_cons_self
      · intro hzero
        exact absurd rfl (hhead '0' hzero)
      · intro ds hds c hc
        rw [Option.mem_some_iff] at hds
        subst hds
        exact hdigit c (List.mem_cons_of_mem _ hc)
      · simp only [Parts.text, Parts.fractionText, Parts.exponentText, Decimal.scientific]
        split <;> rfl
      · simp only [Parts.numeral, Numeral.rational, Decimal.value, Option.getD_some,
          List.singleton_append, List.length_cons]
        congr 2
        push_cast
        ring

theorem exists_parts_below {d : Decimal} (h : d.WellFormed) (hsmall : d.point ≤ 0) :
    ∃ p : Parts, p.WellFormed ∧ p.text = d.positional ['.', '0'] ∧ p.numeral.rational = d.value ∧
      p.fraction.isSome = true := by
  obtain ⟨digits, point⟩ := d
  dsimp only at hsmall
  refine ⟨⟨['0'], some (zeros (-point).toNat ++ digits), none⟩,
    ⟨by simp, by simp, fun _ => rfl, ?_, ?_⟩, ?_, ?_, rfl⟩
  · intro ds hds
    rw [Option.mem_some_iff] at hds
    subst hds
    exact List.append_ne_nil_of_right_ne_nil _ h.ne_nil
  · intro ds hds c hc
    rw [Option.mem_some_iff] at hds
    subst hds
    rcases List.mem_append.mp hc with hc | hc
    · exact isDigit_of_mem_zeros hc
    · exact h.isDigit c hc
  · simp [Parts.text, Parts.fractionText, Parts.exponentText, Decimal.positional, if_pos hsmall]
  · have hvalue : natOfDigits ('0' :: (zeros (-point).toNat ++ digits)) = natOfDigits digits := by
      rw [← List.cons_append]
      exact natOfDigits_zeros_append ((-point).toNat + 1) digits
    simp only [Parts.numeral, Numeral.rational, Decimal.value, Option.getD_some, Option.getD_none,
      List.singleton_append, hvalue, List.length_append, length_zeros]
    congr 2
    push_cast
    omega

theorem exists_parts_within {d : Decimal} (h : d.WellFormed) (hsmall : ¬ d.point ≤ 0)
    (hinside : d.point.toNat < d.digits.length) :
    ∃ p : Parts, p.WellFormed ∧ p.text = d.positional ['.', '0'] ∧ p.numeral.rational = d.value ∧
      p.fraction.isSome = true := by
  obtain ⟨digits, point⟩ := d
  dsimp only at hsmall hinside
  refine ⟨⟨digits.take point.toNat, some (digits.drop point.toNat), none⟩,
    ⟨?_, fun c hc => h.isDigit c (List.mem_of_mem_take hc), ?_, ?_, ?_⟩, ?_, ?_, rfl⟩
  · simp only [ne_eq, List.take_eq_nil_iff, not_or]
    exact ⟨by omega, h.ne_nil⟩
  · intro hzero
    rw [List.head?_take, if_neg (by omega)] at hzero
    exact absurd rfl (h.head_ne_zero '0' hzero)
  · intro ds hds
    rw [Option.mem_some_iff] at hds
    subst hds
    simp only [ne_eq, List.drop_eq_nil_iff, not_le]
    exact hinside
  · intro ds hds c hc
    rw [Option.mem_some_iff] at hds
    subst hds
    exact h.isDigit c (List.mem_of_mem_drop hc)
  · simp [Parts.text, Parts.fractionText, Parts.exponentText, Decimal.positional, if_neg hsmall,
      if_pos hinside]
  · simp only [Parts.numeral, Numeral.rational, Decimal.value, Option.getD_some, Option.getD_none,
      List.take_append_drop, List.length_drop]
    congr 2
    omega

theorem exists_parts_beyond {d : Decimal} (h : d.WellFormed) (hsmall : ¬ d.point ≤ 0)
    (hbeyond : ¬ d.point.toNat < d.digits.length) :
    ∃ p : Parts, p.WellFormed ∧ p.text = d.positional ['.', '0'] ∧ p.numeral.rational = d.value ∧
      p.fraction.isSome = true := by
  obtain ⟨digits, point⟩ := d
  dsimp only at hsmall hbeyond
  refine ⟨⟨digits ++ zeros (point.toNat - digits.length), some ['0'], none⟩,
    ⟨?_, ?_, ?_, by simp, by simp⟩, ?_, ?_, rfl⟩
  · exact List.append_ne_nil_of_left_ne_nil h.ne_nil _
  · intro c hc
    rcases List.mem_append.mp hc with hc | hc
    · exact h.isDigit c hc
    · exact isDigit_of_mem_zeros hc
  · intro hzero
    rw [List.head?_append_of_ne_nil _ h.ne_nil] at hzero
    exact absurd rfl (h.head_ne_zero '0' hzero)
  · simp [Parts.text, Parts.fractionText, Parts.exponentText, Decimal.positional, if_neg hsmall,
      if_neg hbeyond]
  · have hvalue : natOfDigits (digits ++ zeros (point.toNat - digits.length) ++ ['0']) =
        natOfDigits digits * 10 ^ (point.toNat - digits.length + 1) := by
      rw [List.append_assoc, ← natOfDigits_append_zeros, zeros, zeros, List.replicate_succ']
    simp only [Parts.numeral, Numeral.rational, Decimal.value, Option.getD_some, Option.getD_none,
      hvalue, List.length_singleton]
    push_cast
    rw [mul_assoc, ← zpow_natCast, ← zpow_add₀ (by norm_num)]
    congr 2
    omega

theorem exists_parts_positional {d : Decimal} (h : d.WellFormed) :
    ∃ p : Parts, p.WellFormed ∧ p.text = d.positional ['.', '0'] ∧ p.numeral.rational = d.value ∧
      p.fraction.isSome = true := by
  by_cases hsmall : d.point ≤ 0
  · exact exists_parts_below h hsmall
  by_cases hinside : d.point.toNat < d.digits.length
  · exact exists_parts_within h hsmall hinside
  · exact exists_parts_beyond h hsmall hinside

/-- The wire form of a decimal is a numeral of its value, which is not a whole number. -/
theorem exists_parts_wire {d : Decimal} (h : d.WellFormed) :
    ∃ p : Parts, p.WellFormed ∧ p.text = d.wire ∧ p.numeral.rational = d.value ∧
      (p.fraction.isSome || p.exponent.isSome) = true := by
  unfold Decimal.wire
  split
  · obtain ⟨p, hp, htext, hvalue, hsome⟩ := exists_parts_positional h
    exact ⟨p, hp, htext, hvalue, by rw [hsome, Bool.true_or]⟩
  · exact exists_parts_scientific h

open Float.Model.UnpackedFloat (Sign)

theorem withSign_ofUnpacked {x : Float} {m : Nat} {e : Int} (hc : Canonical m e) (he : e ≤ 971)
    (hx : unpacked x = .finite (sign x) m e hc.pos) :
    withSign (isNegative x) (ofUnpacked (.finite .positive m e hc.pos)) = x := by
  have hback := ofUnpacked_unpacked x
  rw [hx] at hback
  unfold sign at hback
  unfold withSign
  split
  · rename_i hneg
    rw [if_pos hneg] at hback
    rw [neg_eq, unpacked_ofUnpacked hc he, ← hback]
    rfl
  · rename_i hneg
    rwa [if_neg hneg] at hback

theorem withSign_zero {x : Float} (hx : unpacked x = .zero (sign x)) :
    withSign (isNegative x) 0.0 = x := by
  have hback := ofUnpacked_unpacked x
  rw [hx] at hback
  unfold sign at hback
  unfold withSign
  split
  · rename_i hneg
    rw [if_pos hneg] at hback
    rw [← hback]
    decide
  · rename_i hneg
    rw [if_neg hneg] at hback
    rw [← hback]
    decide

/-- The wire form of a finite number is a numeral that has its value. -/
theorem exists_parts_wireText {x : Float} (h : x.isFinite) :
    ∃ p : Parts, p.WellFormed ∧ (p.fraction.isSome || p.exponent.isSome) = true ∧
      wireText x = signed (isNegative x) p.text ∧ p.numeral.value.isInf = false ∧
      withSign (isNegative x) p.numeral.value = x := by
  rcases unpacked_of_isFinite h with ⟨hx, hzero⟩ | ⟨m, e, hc, hx, he, hm⟩
  · refine ⟨⟨['0'], some ['0'], none⟩, ⟨by simp, by simp, fun _ => rfl, by simp, by simp⟩, rfl, ?_,
      ?_, ?_⟩
    · rw [wireText, hzero]
      rfl
    · decide
    · exact withSign_zero hx
  · obtain ⟨n, k, hshortest, hpos, hcovers⟩ := exists_shortest hc he
    obtain ⟨p, hp, htext, hvalue, hsome⟩ := exists_parts_wire (wellFormed_ofNat hpos k)
    rw [value_ofNat] at hvalue
    have hread : p.numeral.value = ofUnpacked (.finite .positive m e hc.pos) := by
      have hvalue' := hvalue
      unfold Numeral.rational at hvalue'
      refine ofDecimal_of_covers hc he ?_ (hvalue' ▸ hcovers)
      by_contra hzero
      have hcoefficient : natOfDigits (p.numeral.whole ++ p.numeral.fraction) = 0 := by omega
      rw [hcoefficient, Nat.cast_zero, zero_mul] at hvalue'
      have : (0 : ℚ) < n * 10 ^ k := mul_pos (by exact_mod_cast hpos) (ten_zpow_pos k)
      linarith
    refine ⟨p, hp, hsome, ?_, ?_, ?_⟩
    · rw [wireText, hm, hshortest, htext]
      dsimp only
      rw [if_neg hc.pos.ne']
    · rw [hread]
      change (unpacked (ofUnpacked _)).isInf = false
      rw [unpacked_ofUnpacked hc he]
      rfl
    · rw [hread]
      exact withSign_ofUnpacked hc he hx

end SignalEngine.Number
