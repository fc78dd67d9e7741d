import SignalEngine.Proofs.Number.Exact

namespace SignalEngine.Number

open Float.Model (UnpackedFloat)
open Float.Model.UnpackedFloat (Sign)

/-- Neither above nor below zero. -/
inductive Sizeless : UnpackedFloat → Prop
  | zero (s : Sign) : Sizeless (.zero s)
  | notANumber : Sizeless .notANumber

namespace Sizeless

variable {u v : UnpackedFloat} {x y : Float}

theorem unpacked_ofUnpacked (h : Sizeless u) : unpacked (ofUnpacked u) = u := by
  cases h with
  | zero s => exact unpacked_ofUnpacked_zero s
  | notANumber => rfl

theorem stored (h : Sizeless u) : Sizeless (unpacked (ofUnpacked u)) := by
  rwa [h.unpacked_ofUnpacked]

theorem abs (h : Sizeless (unpacked x)) : Sizeless (unpacked x.abs) := by
  have habs : x.abs = ofUnpacked (unpacked x).abs := rfl
  rw [habs]
  generalize unpacked x = u at h
  cases h with
  | zero s => exact (Sizeless.zero _).stored
  | notANumber => exact Sizeless.notANumber.stored

theorem add (hx : Sizeless (unpacked x)) (hy : Sizeless (unpacked y)) :
    Sizeless (unpacked (x + y)) := by
  rw [add_eq]
  generalize unpacked x = u at hx
  generalize unpacked y = v at hy
  apply stored
  cases hx with
  | notANumber => exact .notANumber
  | zero s =>
      cases hy with
      | notANumber => exact .notANumber
      | zero s' =>
          rw [UnpackedFloat.add]
          split
          · exact .zero s
          · exact .zero .positive

theorem sub (hx : Sizeless (unpacked x)) (hy : Sizeless (unpacked y)) :
    Sizeless (unpacked (x - y)) := by
  rw [sub_eq_add]
  apply hx.add
  rw [unpacked_neg]
  generalize unpacked y = v at hy
  cases hy with
  | zero s => exact .zero _
  | notANumber => exact .notANumber

theorem mul_right (x : Float) (hy : Sizeless (unpacked y)) : Sizeless (unpacked (x * y)) := by
  rw [mul_eq]
  generalize unpacked y = v at hy
  apply stored
  cases hy with
  | notANumber => cases unpacked x <;> exact .notANumber
  | zero s =>
      cases unpacked x with
      | notANumber => exact .notANumber
      | infinity s' => exact .notANumber
      | zero s' => exact .zero _
      | finite s' m e hm => exact .zero _

theorem div_left (hx : Sizeless (unpacked x)) (y : Float) : Sizeless (unpacked (x / y)) := by
  rw [div_eq]
  generalize unpacked x = u at hx
  apply stored
  cases hx with
  | notANumber => exact .notANumber
  | zero s =>
      cases unpacked y with
      | notANumber => exact .notANumber
      | infinity s' => exact .zero _
      | zero s' => exact .notANumber
      | finite s' m e hm => exact .zero _

theorem isNaN_div (hx : Sizeless (unpacked x)) (hy : Sizeless (unpacked y)) :
    (x / y).isNaN = true := by
  have hquotient : UnpackedFloat.div .binary64 (unpacked x) (unpacked y) = .notANumber := by
    generalize unpacked x = u at hx
    generalize unpacked y = v at hy
    cases hx with
    | notANumber => rfl
    | zero s =>
        cases hy with
        | notANumber => rfl
        | zero s' => rfl
  rw [div_eq, isNaN_eq, hquotient]
  rfl

theorem sum {xs : List Float} (h : ∀ x ∈ xs, Sizeless (unpacked x)) :
    Sizeless (unpacked (Number.sum xs)) := by
  induction xs using List.reverseRecOn with
  | nil =>
      rw [sum_nil, unpacked_neg_zero]
      exact .zero .negative
  | append_singleton xs x ih =>
      rw [sum_append_singleton]
      exact (ih fun y hy => h y (List.mem_append_left _ hy)).add
        (h x (List.mem_append_right _ (List.mem_singleton_self x)))

end Sizeless

theorem isNaN_of_beq {x y : Float} (h : (x == y) = true) : x.isNaN = false ∧ y.isNaN = false := by
  rw [beq_eq, UnpackedFloat.beq, beq_iff_eq] at h
  have hnumbers (hnan : (unpacked x).isNaN = true ∨ (unpacked y).isNaN = true) : False := by
    rw [compare_nan hnan] at h
    cases h
  exact ⟨Bool.eq_false_iff.2 fun hx => hnumbers (.inl hx),
    Bool.eq_false_iff.2 fun hy => hnumbers (.inr hy)⟩

theorem beq_of_beq_of_beq {x y z : Float} (h : (x == z) = true) (h' : (y == z) = true) :
    (x == y) = true := by
  obtain ⟨hx, hz⟩ := isNaN_of_beq h
  obtain ⟨hy, -⟩ := isNaN_of_beq h'
  rw [beq_iff_place hx hz] at h
  rw [beq_iff_place hy hz] at h'
  exact (beq_iff_place hx hy).2 (h.trans h'.symm)

theorem eq_or_sizeless_of_compare {u v : UnpackedFloat} (h : u.compare v = some .eq) :
    u = v ∨ Sizeless u ∧ Sizeless v := by
  rcases u with (_ | _) | _ | s | ⟨(_ | _), m, e, hm⟩ <;>
    rcases v with (_ | _) | _ | s' | ⟨(_ | _), n, k, hn⟩ <;>
    simp [UnpackedFloat.compare] at h
  case infinity.negative.infinity.negative => exact .inl rfl
  case infinity.positive.infinity.positive => exact .inl rfl
  case zero.zero => exact .inr ⟨.zero s, .zero s'⟩
  case finite.negative.finite.negative =>
    obtain ⟨rfl, rfl⟩ := h
    exact .inl rfl
  case finite.positive.finite.positive =>
    obtain ⟨rfl, rfl⟩ := h
    exact .inl rfl

theorem sizeless_sub_self (u : UnpackedFloat) : Sizeless (.sub .binary64 u u) := by
  cases u with
  | notANumber => exact .notANumber
  | infinity s => cases s <;> exact .notANumber
  | zero s => cases s <;> exact .zero .positive
  | finite s m e hm =>
      simp only [UnpackedFloat.sub, Int.sub_self, normalize_zero]
      exact .zero .positive

/-- The difference of two equal numbers is a zero, unless they are infinite. -/
theorem sizeless_sub {x y : Float} (h : (x == y) = true) : Sizeless (unpacked (x - y)) := by
  rw [beq_eq, UnpackedFloat.beq, beq_iff_eq] at h
  rcases eq_or_sizeless_of_compare h with heq | ⟨hx, hy⟩
  · rw [sub_eq, heq]
    exact (sizeless_sub_self _).stored
  · exact hx.sub hy

end SignalEngine.Number
