import SignalEngine.Window

namespace SignalEngine

/-- The last numbers of a series, oldest first. -/
def latest (count : Nat) (xs : List α) : List α :=
  xs.drop (xs.length - count)

namespace Window

/-- The ring holds the latest of a series of numbers, as many as there are slots, each at its age. -/
def Holds (w : Window) (xs : List Float) : Prop :=
  ∀ (age : Nat) (h : age < xs.length), xs.length ≤ age + w.capacity → w.get age = xs[age]

variable {w : Window}

theorem slot_natCast (w : Window) (age : Nat) : w.slot age = age % w.capacity := by
  rw [slot, ← Int.natCast_emod, Int.toNat_natCast]

theorem slot_ne_of_lt {a b : Nat} (hlt : a < b) (hnear : b < a + w.capacity) :
    w.slot a ≠ w.slot b := by
  intro heq
  rw [slot_natCast, slot_natCast] at heq
  have hturn : w.capacity ∣ b - a := Nat.dvd_of_mod_eq_zero (Nat.sub_mod_eq_zero_of_mod_eq heq.symm)
  have hle := Nat.le_of_dvd (by omega) hturn
  omega

theorem get_set_self (h : 0 < w.capacity) (age : Int) (x : Float) : (w.set age x).get age = x := by
  rw [get, slot_set, set, Array.getD_eq_getD_getElem?, Array.getElem?_setIfInBounds_self_of_lt,
    Option.getD_some]
  exact slot_lt h age

theorem get_set_of_slot_ne {a b : Int} (h : w.slot a ≠ w.slot b) (x : Float) :
    (w.set a x).get b = w.get b := by
  rw [get, slot_set, set, Array.getD_eq_getD_getElem?, Array.getElem?_setIfInBounds_ne h, get,
    Array.getD_eq_getD_getElem?]

theorem holds_nil (w : Window) : w.Holds [] := by
  intro age h
  exact absurd h (Nat.not_lt_zero age)

theorem Holds.set {xs : List Float} (h : w.Holds xs) (hcapacity : 0 < w.capacity) (x : Float) :
    (w.set xs.length x).Holds (xs ++ [x]) := by
  intro age hage hnear
  rw [capacity_set, List.length_append, List.length_singleton] at hnear
  rw [List.length_append, List.length_singleton] at hage
  rcases Nat.lt_succ_iff_lt_or_eq.1 hage with hlt | rfl
  -- what is still held is less than a turn behind, so the new number goes to another slot
  · rw [List.getElem_append_left hlt, get_set_of_slot_ne (slot_ne_of_lt hlt (by omega)).symm]
    exact h age hlt (by omega)
  · rw [get_set_self hcapacity, List.getElem_concat_length rfl]

end Window

end SignalEngine
