import Mathlib.Data.List.Induction
import SignalEngine.Proofs.Window.Ring

namespace SignalEngine

theorem foldl_history {σ : Type} {step : σ → α → σ} {start : σ} (Inv : σ → List α → Prop)
    (hstart : Inv start []) (hstep : ∀ {s xs}, Inv s xs → ∀ x, Inv (step s x) (xs ++ [x]))
    (xs : List α) : Inv (xs.foldl step start) xs := by
  induction xs using List.reverseRecOn with
  | nil => exact hstart
  | append_singleton xs x ih =>
      rw [List.foldl_append]
      exact hstep ih x

def neighbours (f : α → α → β) (xs : List α) : List β :=
  xs.zipWith f xs.tail

theorem neighbours_concat (f : α → α → β) (xs : List α) (x y : α) :
    neighbours f (xs ++ [x] ++ [y]) = neighbours f (xs ++ [x]) ++ [f x y] := by
  induction xs with
  | nil => rfl
  | cons a xs ih =>
      cases xs with
      | nil => rfl
      | cons b rest => exact congrArg (f a b :: ·) ih

theorem neighbours_congr {f g : α → α → β} {xs : List α} (h : ∀ x, ∀ y ∈ xs, f x y = g x y) :
    neighbours f xs = neighbours g xs := by
  apply List.ext_getElem
  · rw [neighbours, neighbours, List.length_zipWith, List.length_zipWith]
  · intro i _ _
    simp only [neighbours, List.getElem_zipWith]
    exact h _ _ (List.mem_of_mem_tail (List.getElem_mem _))

/-- The last numbers of a series, oldest first, with zeros for those that are missing. -/
def rolling (count : Nat) (xs : List Float) : List Float :=
  (List.replicate count 0.0 ++ xs).drop xs.length

section Rolling

variable {count : Nat} {xs : List Float}

@[simp] theorem length_rolling (count : Nat) (xs : List Float) : (rolling count xs).length = count := by
  simp [rolling]

theorem rolling_nil (count : Nat) : rolling count [] = List.replicate count 0.0 := by
  simp [rolling]

theorem rolling_concat (h : 0 < count) (xs : List Float) (x : Float) :
    rolling count (xs ++ [x]) = (rolling count xs).tail ++ [x] := by
  rw [rolling, rolling, List.tail_drop, ← List.append_assoc, List.length_append,
    List.length_singleton, List.drop_append_of_le_length]
  rw [List.length_append, List.length_replicate]
  omega

theorem rolling_of_le (h : count ≤ xs.length) : rolling count xs = latest count xs := by
  rw [rolling, List.drop_append, List.length_replicate, List.drop_of_length_le, List.nil_append,
    latest]
  rwa [List.length_replicate]

theorem rolling_of_ge (h : xs.length ≤ count) :
    rolling count xs = List.replicate (count - xs.length) 0.0 ++ xs := by
  rw [rolling, List.drop_append_of_le_length, List.drop_replicate]
  rwa [List.length_replicate]

theorem mem_rolling {x : Float} (h : x ∈ rolling count xs) : x = 0.0 ∨ x ∈ xs :=
  (List.mem_append.1 (List.mem_of_mem_drop h)).imp_left List.eq_of_mem_replicate

theorem rolling_append (xs : List Float) {ys : List Float} (h : ys.length = count) :
    rolling count (xs ++ ys) = ys := by
  have hdrop : xs.length + ys.length - count = xs.length := by omega
  rw [rolling_of_le, latest, List.length_append, hdrop, List.drop_left]
  rw [List.length_append]
  omega

end Rolling

namespace Window

/-- The numbers from the slot of an age on, once round. -/
def readFrom (w : Window) (age : Int) : List Float :=
  (List.range w.capacity).map fun (i : Nat) => w.get (age + i)

variable {w : Window}

@[simp] theorem length_readFrom (w : Window) (age : Int) : (w.readFrom age).length = w.capacity := by
  simp [readFrom]

theorem getElem_readFrom (w : Window) (age : Int) {i : Nat} (h : i < (w.readFrom age).length) :
    (w.readFrom age)[i] = w.get (age + i) := by
  simp [readFrom]

theorem readFrom_eq_cons (h : 0 < w.capacity) (age : Int) :
    w.readFrom age = w.get age :: (w.readFrom age).tail := by
  rw [readFrom, ← Nat.succ_pred_eq_of_pos h, List.range_succ_eq_map, List.map_cons, List.tail_cons,
    Int.natCast_zero, Int.add_zero]

theorem get_blank (count : Nat) (age : Int) : (blank count).get age = 0.0 := by
  rw [get, blank, Array.getD_eq_getD_getElem?, Array.getElem?_replicate]
  split
  · rfl
  · rfl

theorem readFrom_blank (count : Nat) (age : Int) :
    (blank count).readFrom age = List.replicate count 0.0 := by
  simp only [readFrom, get_blank, capacity_blank, List.map_const', List.length_range]

theorem slot_add_capacity (w : Window) (age : Int) : w.slot (age + w.capacity) = w.slot age := by
  rw [slot, Int.add_emod_right, slot]

theorem readFrom_set (h : 0 < w.capacity) (age : Nat) (x : Float) :
    (w.set age x).readFrom (age + 1 : Nat) = (w.readFrom age).tail ++ [x] := by
  apply List.ext_getElem
  · rw [length_readFrom, capacity_set, List.length_append, List.length_tail, length_readFrom,
      List.length_singleton]
    omega
  · intro i hi _
    rw [length_readFrom, capacity_set] at hi
    have hage : ((age + 1 : Nat) : Int) + (i : Nat) = ((age + (i + 1) : Nat) : Int) := by omega
    rw [getElem_readFrom, hage]
    rcases Nat.lt_or_eq_of_le (Nat.succ_le_of_lt hi) with hlt | hlast
    -- all slots but the last one read are those of before
    · rw [get_set_of_slot_ne (slot_ne_of_lt (by omega) (by omega)),
        List.getElem_append_left (by rw [List.length_tail, length_readFrom]; omega),
        List.getElem_tail, getElem_readFrom]
      rfl
    · rw [Nat.succ_eq_add_one] at hlast
      rw [List.getElem_append_right (by rw [List.length_tail, length_readFrom]; omega),
        List.getElem_singleton, hlast, get, slot_set, Int.natCast_add, slot_add_capacity, ← slot_set,
        ← get, get_set_self h]

theorem get_of_readFrom_eq {age : Int} {xs : List Float} (h : w.readFrom age = xs) {i : Nat}
    (hi : i < xs.length) : w.get (age + i) = xs[i] := by
  subst h
  exact (getElem_readFrom w age hi).symm

/-- The ring has so many slots and, from the one that comes next, reads as the last numbers of a
series. -/
structure Rolls (w : Window) (count : Nat) (xs : List Float) : Prop where
  capacity : w.capacity = count
  read : w.readFrom xs.length = rolling count xs

namespace Rolls

variable {count : Nat} {xs : List Float}

theorem blank (count : Nat) : (Window.blank count).Rolls count [] where
  capacity := capacity_blank count
  read := by
    rw [rolling_nil]
    exact readFrom_blank count 0

theorem set (h : w.Rolls count xs) (hpos : 0 < count) (x : Float) :
    (w.set xs.length x).Rolls count (xs ++ [x]) where
  capacity := (capacity_set _ _ _).trans h.capacity
  read := by
    have hcapacity : 0 < w.capacity := h.capacity.symm ▸ hpos
    rw [List.length_append, List.length_singleton, readFrom_set hcapacity, h.read,
      rolling_concat hpos]

theorem set_map {series : List α} {f : α → Float} (h : w.Rolls count (series.map f))
    (hpos : 0 < count) {age : Nat} (hage : age = series.length) (a : α) :
    (w.set age (f a)).Rolls count ((series ++ [a]).map f) := by
  have hset := h.set hpos (f a)
  rwa [List.length_map, ← hage, ← List.map_singleton, ← List.map_append] at hset

theorem read_map {series : List α} {f : α → Float} (h : w.Rolls count (series.map f))
    (hle : count ≤ series.length) : w.readFrom series.length = (latest count series).map f := by
  have hread := h.read
  rw [rolling_of_le (by rwa [List.length_map]), latest, List.length_map, ← List.map_drop] at hread
  exact hread

theorem eq_cons (h : w.Rolls count xs) (hpos : 0 < count) :
    rolling count xs = w.get xs.length :: (rolling count xs).tail := by
  rw [← h.read]
  exact readFrom_eq_cons (h.capacity.symm ▸ hpos) _

end Rolls

end Window

end SignalEngine
