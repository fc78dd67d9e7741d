import Mathlib.Data.Prod.Lex
import SignalEngine.Proofs.Number.Finite

namespace SignalEngine.Number

open Float.Model (UnpackedFloat)
open Float.Model.UnpackedFloat (Sign)

/-- The place of an unpacked number: first by its kind, then by its exponent and by its mantissa. -/
def rank : UnpackedFloat → Int ×ₗ Int ×ₗ Int
  | .infinity .negative => toLex (-2, toLex (0, 0))
  | .finite .negative m e _ => toLex (-1, toLex (-e, -m))
  | .zero _ => toLex (0, toLex (0, 0))
  | .finite .positive m e _ => toLex (1, toLex (e, m))
  | .infinity .positive => toLex (2, toLex (0, 0))
  -- NaN is not compared, and any place will do
  | .notANumber => toLex (0, toLex (0, 0))

def place (x : Float) : Int ×ₗ Int ×ₗ Int :=
  rank (unpacked x)

theorem compare_then_eq_lt (e k : Int) (m n : Nat) :
    (compare e k).then (compare m n) = .lt ↔ e < k ∨ e = k ∧ m < n := by
  rw [Ordering.then_eq_lt, compare_lt_iff_lt, compare_eq_iff_eq, compare_lt_iff_lt]

theorem compare_then_eq_gt (e k : Int) (m n : Nat) :
    (compare e k).then (compare m n) = .gt ↔ k < e ∨ e = k ∧ n < m := by
  rw [Ordering.then_eq_gt, compare_gt_iff_gt, compare_eq_iff_eq, compare_gt_iff_gt]

section Unpacked

variable {u v : UnpackedFloat} (hu : u.isNaN = false) (hv : v.isNaN = false)

include hu hv

theorem compare_eq_lt_iff : u.compare v = some .lt ↔ rank u < rank v := by
  have hsign : compare Sign.negative Sign.positive = .lt := rfl
  rcases u with (_ | _) | _ | _ | ⟨(_ | _), m, e, hm⟩ <;>
    rcases v with (_ | _) | _ | _ | ⟨(_ | _), n, k, hn⟩ <;>
    simp [UnpackedFloat.isNaN, UnpackedFloat.compare, rank, Prod.Lex.lt_iff, hsign,
      compare_then_eq_lt, compare_then_eq_gt] at hu hv ⊢

theorem compare_eq_eq_iff : u.compare v = some .eq ↔ rank u = rank v := by
  have hsign : ∀ s : Sign, compare s s = .eq := by
    intro s
    cases s with
    | negative => rfl
    | positive => rfl
  rcases u with (_ | _) | _ | _ | ⟨(_ | _), m, e, hm⟩ <;>
    rcases v with (_ | _) | _ | _ | ⟨(_ | _), n, k, hn⟩ <;>
    simp [UnpackedFloat.isNaN, UnpackedFloat.compare, rank, hsign] at hu hv ⊢

end Unpacked

section Order

variable {x y : Float} (hx : x.isNaN = false) (hy : y.isNaN = false)

include hx hy

theorem lt_iff_place : x < y ↔ place x < place y := by
  rw [lt_iff, UnpackedFloat.lt, beq_iff_eq]
  exact compare_eq_lt_iff hx hy

theorem beq_iff_place : (x == y) = true ↔ place x = place y := by
  rw [beq_eq, UnpackedFloat.beq, beq_iff_eq]
  exact compare_eq_eq_iff hx hy

theorem le_iff_place : x ≤ y ↔ place x ≤ place y := by
  have hle : x ≤ y ↔ (unpacked x).compare (unpacked y) = some .lt ∨
      (unpacked x).compare (unpacked y) = some .eq := by
    rw [le_iff, UnpackedFloat.le]
    rcases (unpacked x).compare (unpacked y) with _ | (_ | _ | _) <;> decide
  rw [hle, le_iff_lt_or_eq]
  exact or_congr (compare_eq_lt_iff hx hy) (compare_eq_eq_iff hx hy)

theorem beq_iff_le : (x == y) = true ↔ x ≤ y ∧ y ≤ x := by
  rw [beq_iff_place hx hy, le_iff_place hx hy, le_iff_place hy hx]
  exact le_antisymm_iff

end Order

theorem beq_self {x : Float} (h : x.isNaN = false) : (x == x) = true :=
  (beq_iff_place h h).2 rfl

theorem le_self {x : Float} (h : x.isNaN = false) : x ≤ x :=
  (le_iff_place h h).2 le_rfl

theorem compare_nan {u v : UnpackedFloat} (h : u.isNaN = true ∨ v.isNaN = true) :
    u.compare v = none := by
  rcases u with (_ | _) | _ | _ | ⟨(_ | _), m, e, hm⟩ <;>
    rcases v with (_ | _) | _ | _ | ⟨(_ | _), n, k, hn⟩ <;>
    simp [UnpackedFloat.isNaN, UnpackedFloat.compare] at h ⊢

theorem not_lt_of_isNaN {x y : Float} (h : x.isNaN = true ∨ y.isNaN = true) : ¬ x < y := by
  have hnone : (unpacked x).compare (unpacked y) = none := compare_nan h
  rw [lt_iff, UnpackedFloat.lt, hnone]
  decide

theorem not_le_of_isNaN {x y : Float} (h : x.isNaN = true ∨ y.isNaN = true) : ¬ x ≤ y := by
  have hnone : (unpacked x).compare (unpacked y) = none := compare_nan h
  rw [le_iff, UnpackedFloat.le, hnone]
  decide

section Transitivity

variable {x y z : Float}

theorem isNaN_of_lt (h : x < y) : x.isNaN = false ∧ y.isNaN = false := by
  have hnumbers : ¬ (x.isNaN = true ∨ y.isNaN = true) := fun hnan => not_lt_of_isNaN hnan h
  simpa using hnumbers

theorem isNaN_of_le (h : x ≤ y) : x.isNaN = false ∧ y.isNaN = false := by
  have hnumbers : ¬ (x.isNaN = true ∨ y.isNaN = true) := fun hnan => not_le_of_isNaN hnan h
  simpa using hnumbers

theorem le_of_lt (h : x < y) : x ≤ y := by
  obtain ⟨hx, hy⟩ := isNaN_of_lt h
  exact (le_iff_place hx hy).2 ((lt_iff_place hx hy).1 h).le

theorem not_lt_of_lt (h : x < y) : ¬ y < x := by
  obtain ⟨hx, hy⟩ := isNaN_of_lt h
  rw [lt_iff_place hy hx, not_lt]
  exact ((lt_iff_place hx hy).1 h).le

theorem le_of_not_lt (hx : x.isNaN = false) (hy : y.isNaN = false) (h : ¬ x < y) : y ≤ x := by
  rw [lt_iff_place hx hy, not_lt] at h
  exact (le_iff_place hy hx).2 h

theorem le_or_le (hx : x.isNaN = false) (hy : y.isNaN = false) : x ≤ y ∨ y ≤ x := by
  rw [le_iff_place hx hy, le_iff_place hy hx]
  exact le_total _ _

theorem lt_of_lt_of_le (h : x < y) (h' : y ≤ z) : x < z := by
  obtain ⟨hx, hy⟩ := isNaN_of_lt h
  have hz := (isNaN_of_le h').2
  exact (lt_iff_place hx hz).2 (((lt_iff_place hx hy).1 h).trans_le ((le_iff_place hy hz).1 h'))

theorem lt_of_le_of_lt (h : x ≤ y) (h' : y < z) : x < z := by
  obtain ⟨hx, hy⟩ := isNaN_of_le h
  have hz := (isNaN_of_lt h').2
  exact (lt_iff_place hx hz).2 (((le_iff_place hx hy).1 h).trans_lt ((lt_iff_place hy hz).1 h'))

end Transitivity

theorem unpacked_infinity : unpacked infinity = .infinity .positive := by
  have h : infinity = ofUnpacked (.infinity .positive) := by decide
  rw [h]
  exact unpack_infinity .positive

theorem neg_infinity_le {x : Float} (h : x.isNaN = false) : -infinity ≤ x := by
  rw [le_iff_place (by decide) h, place, unpacked_neg_infinity, place]
  rcases unpacked x with (_ | _) | _ | _ | ⟨(_ | _), m, e, hm⟩ <;> simp [rank, Prod.Lex.le_iff]

theorem le_infinity {x : Float} (h : x.isNaN = false) : x ≤ infinity := by
  rw [le_iff_place h (by decide), place, place, unpacked_infinity]
  rcases unpacked x with (_ | _) | _ | _ | ⟨(_ | _), m, e, hm⟩ <;> simp [rank, Prod.Lex.le_iff]

theorem isNaN_smaller_one (x : Float) : (smaller x 1.0).isNaN = false := by
  unfold smaller
  split
  · decide
  split
  · decide
  · simpa using ‹¬ x.isNaN = true›

/-- What is cut off at one is at most one, also if there was no number to cut. -/
theorem smaller_le_one (x : Float) : smaller x 1.0 ≤ 1.0 := by
  unfold smaller
  split
  · decide
  split
  · decide
  · exact le_of_not_lt (by decide) (by simpa using ‹¬ x.isNaN = true›) ‹_›

/-- Of two numbers the one is picked that both are related to, and NaN is never preferred. -/
structure Picks (pick : Float → Float → Float) (R : Float → Float → Prop) : Prop where
  pick_eq_or (x y : Float) : pick x y = x ∨ pick x y = y
  pick_iff {x y z : Float} (hx : x.isNaN = false) (hy : y.isNaN = false) (hz : z.isNaN = false) :
    R (pick x y) z ↔ R x z ∧ R y z
  pick_nan {x y : Float} (hx : x.isNaN = false) (hy : y.isNaN = true) : pick x y = x

theorem picks_larger : Picks larger (· ≤ ·) where
  pick_eq_or x y := by
    rw [larger]
    split
    · exact .inr rfl
    · split
      · exact .inr rfl
      · exact .inl rfl
  pick_iff {x y z} hx hy hz := by
    rw [larger, hx, if_neg Bool.false_ne_true, le_iff_place hx hz, le_iff_place hy hz]
    split
    · rename_i hlt
      have hxy := (lt_iff_place hx hy).1 hlt
      rw [le_iff_place hy hz]
      exact ⟨fun h => ⟨hxy.le.trans h, h⟩, And.right⟩
    · rename_i hnot
      have hyx := not_lt.1 (mt (lt_iff_place hx hy).2 hnot)
      rw [le_iff_place hx hz]
      exact ⟨fun h => ⟨h, hyx.trans h⟩, And.left⟩
  pick_nan {x y} hx hy := by
    rw [larger, hx, if_neg Bool.false_ne_true, if_neg (not_lt_of_isNaN (.inr hy))]

theorem picks_smaller : Picks smaller fun x y => y ≤ x where
  pick_eq_or x y := by
    rw [smaller]
    split
    · exact .inr rfl
    · split
      · exact .inr rfl
      · exact .inl rfl
  pick_iff {x y z} hx hy hz := by
    rw [smaller, hx, if_neg Bool.false_ne_true, le_iff_place hz hx, le_iff_place hz hy]
    split
    · rename_i hlt
      have hyx := (lt_iff_place hy hx).1 hlt
      rw [le_iff_place hz hy]
      exact ⟨fun h => ⟨h.trans hyx.le, h⟩, And.right⟩
    · rename_i hnot
      have hxy := not_lt.1 (mt (lt_iff_place hy hx).2 hnot)
      rw [le_iff_place hz hx]
      exact ⟨fun h => ⟨h, h.trans hxy⟩, And.left⟩
  pick_nan {x y} hx hy := by
    rw [smaller, hx, if_neg Bool.false_ne_true, if_neg (not_lt_of_isNaN (.inl hy))]

namespace Picks

variable {pick : Float → Float → Float} {R : Float → Float → Prop}

theorem isNaN_pick (h : Picks pick R) {x y : Float} (hx : x.isNaN = false) (hy : y.isNaN = false) :
    (pick x y).isNaN = false := by
  rcases h.pick_eq_or x y with heq | heq
  · rwa [heq]
  · rwa [heq]

theorem foldl_eq_or_mem (h : Picks pick R) (xs : List Float) (start : Float) :
    xs.foldl pick start = start ∨ xs.foldl pick start ∈ xs := by
  induction xs generalizing start with
  | nil => exact .inl rfl
  | cons x xs ih =>
      rcases ih (pick start x) with hfold | hmem
      · rw [List.foldl_cons, hfold, List.mem_cons]
        exact (h.pick_eq_or start x).imp_right .inl
      · exact .inr (List.mem_cons_of_mem x hmem)

theorem foldl_of_nan (h : Picks pick R) {xs : List Float} {start : Float}
    (hstart : start.isNaN = false) (hxs : ∀ x ∈ xs, x.isNaN = true) : xs.foldl pick start = start := by
  induction xs with
  | nil => rfl
  | cons x xs ih =>
      obtain ⟨hx, hxs⟩ := List.forall_mem_cons.1 hxs
      rw [List.foldl_cons, h.pick_nan hstart hx]
      exact ih hxs

/-- What is picked from a list is related to the same numbers as the start and all numbers of the list
together. -/
theorem foldl (h : Picks pick R) (xs : List Float) {start : Float} (hstart : start.isNaN = false) :
    (xs.foldl pick start).isNaN = false ∧
      ∀ z : Float, z.isNaN = false →
        (R (xs.foldl pick start) z ↔ R start z ∧ ∀ x ∈ xs, x.isNaN = false → R x z) := by
  induction xs generalizing start with
  | nil => exact ⟨hstart, fun z _ => by simp⟩
  | cons x xs ih =>
      rw [List.foldl_cons]
      simp only [List.forall_mem_cons]
      cases hx : x.isNaN with
      | false =>
          obtain ⟨hnumber, hrelated⟩ := ih (h.isNaN_pick hstart hx)
          refine ⟨hnumber, fun z hz => ?_⟩
          rw [hrelated z hz, h.pick_iff hstart hx hz, and_assoc, forall_prop_of_true rfl]
      | true =>
          rw [h.pick_nan hstart hx]
          obtain ⟨hnumber, hrelated⟩ := ih hstart
          refine ⟨hnumber, fun z hz => ?_⟩
          simp [hrelated z hz]

section Extreme

variable (h : Picks pick R) {start : Float} (hnumber : start.isNaN = false)
  (hstart : ∀ {z : Float}, z.isNaN = false → R start z)
  (hself : ∀ {z : Float}, z.isNaN = false → R z z)
  (hbeq : ∀ {x y : Float}, x.isNaN = false → y.isNaN = false → ((x == y) = true ↔ R x y ∧ R y x))

include h hnumber hstart hself hbeq

theorem beq_foldl_iff {xs : List Float} (hxs : ∀ x ∈ xs, x.isNaN = false) {y : Float} (hy : y ∈ xs) :
    (y == xs.foldl pick start) = true ↔ ∀ x ∈ xs, R x y := by
  obtain ⟨hpicked, hrelated⟩ := h.foldl xs hnumber
  have habove : R y (xs.foldl pick start) :=
    ((hrelated _ hpicked).1 (hself hpicked)).2 y hy (hxs y hy)
  rw [hbeq (hxs y hy) hpicked, hrelated y (hxs y hy)]
  constructor
  · rintro ⟨-, -, hall⟩ x hx
    exact hall x hx (hxs x hx)
  · intro hall
    exact ⟨habove, hstart (hxs y hy), fun x hx _ => hall x hx⟩

theorem exists_beq_foldl {xs : List Float} (hxs : ∃ x ∈ xs, x.isNaN = false) :
    (∃ x ∈ xs, (x == xs.foldl pick start) = true) ∧
      ∀ x ∈ xs, x.isNaN = false → R x (xs.foldl pick start) := by
  obtain ⟨hpicked, hrelated⟩ := h.foldl xs hnumber
  have hall := ((hrelated _ hpicked).1 (hself hpicked)).2
  refine ⟨?_, hall⟩
  rcases h.foldl_eq_or_mem xs start with hfold | hmem
  -- where nothing is better than the start, each number of the list is as good
  · obtain ⟨x, hx, hnan⟩ := hxs
    have habove := hall x hx hnan
    rw [hfold] at habove ⊢
    exact ⟨x, hx, (hbeq hnan hnumber).2 ⟨habove, hstart hnan⟩⟩
  · exact ⟨_, hmem, beq_self hpicked⟩

end Extreme

end Picks

section List

variable {xs : List Float} (hxs : ∀ x ∈ xs, x.isNaN = false) {y : Float} (hy : y ∈ xs)

include hxs hy

/-- A number of a list equals the maximum just when no other is above it. -/
theorem beq_maximum_iff : (y == maximum xs) = true ↔ ∀ x ∈ xs, x ≤ y :=
  picks_larger.beq_foldl_iff (by decide) neg_infinity_le le_self beq_iff_le hxs hy

theorem beq_minimum_iff : (y == minimum xs) = true ↔ ∀ x ∈ xs, y ≤ x :=
  picks_smaller.beq_foldl_iff (by decide) le_infinity le_self
    (fun hx hy => (beq_iff_le hx hy).trans and_comm) hxs hy

end List

section Bounds

variable {xs : List Float} {z : Float} (h : z.isNaN = false)

include h

theorem maximum_le_iff : maximum xs ≤ z ↔ ∀ x ∈ xs, x.isNaN = false → x ≤ z := by
  have hfold := picks_larger.foldl xs (show (-infinity).isNaN = false by decide)
  rw [maximum, hfold.2 z h, and_iff_right (neg_infinity_le h)]

theorem le_minimum_iff : z ≤ minimum xs ↔ ∀ x ∈ xs, x.isNaN = false → z ≤ x := by
  have hfold := picks_smaller.foldl xs (show infinity.isNaN = false by decide)
  rw [minimum, hfold.2 z h, and_iff_right (le_infinity h)]

end Bounds

/-- The number equals one of a list and is at least all numbers of the list. -/
def IsLargest (xs : List Float) (y : Float) : Prop :=
  (∃ x ∈ xs, (x == y) = true) ∧ ∀ x ∈ xs, x.isNaN = false → x ≤ y

/-- The number equals one of a list and is at most all numbers of the list. -/
def IsSmallest (xs : List Float) (y : Float) : Prop :=
  (∃ x ∈ xs, (x == y) = true) ∧ ∀ x ∈ xs, x.isNaN = false → y ≤ x

section Extremes

variable {xs : List Float}

theorem isLargest_maximum (h : ∃ x ∈ xs, x.isNaN = false) : IsLargest xs (maximum xs) :=
  picks_larger.exists_beq_foldl (by decide) neg_infinity_le le_self beq_iff_le h

theorem isSmallest_minimum (h : ∃ x ∈ xs, x.isNaN = false) : IsSmallest xs (minimum xs) :=
  picks_smaller.exists_beq_foldl (by decide) le_infinity le_self
    (fun hx hy => (beq_iff_le hx hy).trans and_comm) h

theorem maximum_of_nan (h : ∀ x ∈ xs, x.isNaN = true) : maximum xs = -infinity :=
  picks_larger.foldl_of_nan (by decide) h

theorem minimum_of_nan (h : ∀ x ∈ xs, x.isNaN = true) : minimum xs = infinity :=
  picks_smaller.foldl_of_nan (by decide) h

end Extremes

end SignalEngine.Number
