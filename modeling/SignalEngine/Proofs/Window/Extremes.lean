import SignalEngine.Proofs.Number.Order
import SignalEngine.Proofs.Window.Ring

namespace SignalEngine.Window

variable {w : Window} {xs : List Float}

theorem get_eq_getElem {age : Int} (h : w.slot age < w.slots.size) :
    w.get age = w.slots[w.slot age] := by
  rw [get, Array.getD_eq_getD_getElem?, Array.getElem?_eq_getElem h, Option.getD_some]

theorem exists_age (start : Nat) {i : Nat} (hi : i < w.capacity) :
    ∃ age : Nat, start ≤ age ∧ age < start + w.capacity ∧ w.slot age = i := by
  have hpos : (0 : Int) < w.capacity := by omega
  have hlow := Int.emod_nonneg ((i : Int) - start) hpos.ne'
  have hhigh := Int.emod_lt_of_pos ((i : Int) - start) hpos
  refine ⟨start + (((i : Int) - start) % w.capacity).toNat, by omega, by omega, ?_⟩
  rw [slot, Nat.cast_add, Int.toNat_of_nonneg hlow, Int.add_emod_emod, add_sub_cancel,
    Int.emod_eq_of_lt (by omega) (by omega), Int.toNat_natCast]

/-- A full ring holds the latest numbers and nothing else. -/
theorem Holds.mem_toList_iff (h : w.Holds xs) (hfull : w.capacity ≤ xs.length) (x : Float) :
    x ∈ w.toList ↔ x ∈ latest w.capacity xs := by
  rw [latest, List.mem_drop_iff_getElem, toList, Array.mem_toList_iff, Array.mem_iff_getElem]
  constructor
  · rintro ⟨i, hi, rfl⟩
    obtain ⟨age, hlow, hhigh, rfl⟩ := exists_age (xs.length - w.capacity) hi
    refine ⟨age - (xs.length - w.capacity), by omega, ?_⟩
    rw [← get_eq_getElem hi, h age (by omega) (by omega)]
    congr 1
    omega
  · rintro ⟨i, hi, rfl⟩
    have hslot := slot_lt (show 0 < w.capacity by omega) (xs.length - w.capacity + i : Nat)
    refine ⟨_, hslot, ?_⟩
    rw [← get_eq_getElem hslot, h _ (by omega) (by omega)]

/-- The highest slot is not above a number just when none of the latest numbers is. -/
theorem Holds.max_le_iff (h : w.Holds xs) (hfull : w.capacity ≤ xs.length) {z : Float}
    (hz : z.isNaN = false) :
    w.max ≤ z ↔ ∀ x ∈ latest w.capacity xs, x.isNaN = false → x ≤ z := by
  rw [max, Number.maximum_le_iff hz]
  simp only [h.mem_toList_iff hfull]

theorem Holds.le_min_iff (h : w.Holds xs) (hfull : w.capacity ≤ xs.length) {z : Float}
    (hz : z.isNaN = false) :
    z ≤ w.min ↔ ∀ x ∈ latest w.capacity xs, x.isNaN = false → z ≤ x := by
  rw [min, Number.le_minimum_iff hz]
  simp only [h.mem_toList_iff hfull]

end SignalEngine.Window
