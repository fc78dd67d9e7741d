import Mathlib.Data.Int.ModEq
import SignalEngine.Proofs.Window.Extremes
import SignalEngine.Proofs.Window.Rolling

/-!
A ring under any writes. Ages share a slot just when they differ by whole turns, negative ages
included, so what a ring gives for an age is the number that was last written at an age of the same
slot. Writes at the ages from zero on leave nothing of what was there before them once they have gone
round.
-/

namespace SignalEngine.Window

/-- A write to a ring. The one kind gives the number that it evicts, the other does not. -/
inductive Write where
  | set (age : Int) (x : Float)
  | replace (age : Int) (x : Float)

namespace Write

def age : Write → Int
  | set age _ => age
  | replace age _ => age

def number : Write → Float
  | set _ x => x
  | replace _ x => x

def apply (w : Window) : Write → Window
  | set age x => w.set age x
  | replace age x => (w.replace age x).2

theorem apply_eq (w : Window) (write : Write) : apply w write = w.set write.age write.number := by
  cases write with
  | set age x => rfl
  | replace age x => rfl

end Write

/-- The ring after some writes. -/
def after (w : Window) (writes : List Write) : Window :=
  writes.foldl Write.apply w

/-- The number that was last written at the given age, give or take whole turns; zero if there is none. -/
def lastWritten (count : Nat) (writes : List Write) (age : Int) : Float :=
  ((writes.filter fun write => write.age ≡ age [ZMOD count]).getLast?.map Write.number).getD 0.0

/-- The writes go to the ages from zero on, one after the other. -/
def InTurn (writes : List Write) : Prop :=
  writes.map Write.age = (List.range writes.length).map Nat.cast

variable {w : Window}

theorem slot_eq_iff (h : 0 < w.capacity) {a b : Int} :
    w.slot a = w.slot b ↔ a ≡ b [ZMOD w.capacity] := by
  have ha := Int.emod_nonneg a (b := w.capacity) (by omega)
  have hb := Int.emod_nonneg b (b := w.capacity) (by omega)
  rw [slot, slot, Int.ModEq]
  omega

theorem get_set (h : 0 < w.capacity) (a b : Int) (x : Float) :
    (w.set a x).get b = if a ≡ b [ZMOD w.capacity] then x else w.get b := by
  split
  case isTrue hsame =>
    rw [get, slot_set, ← (slot_eq_iff h).2 hsame, ← slot_set w a a x, ← get, get_set_self h]
  case isFalse hother => exact get_set_of_slot_ne (mt (slot_eq_iff h).1 hother) x

theorem after_concat (w : Window) (writes : List Write) (write : Write) :
    w.after (writes ++ [write]) = (w.after writes).set write.age write.number := by
  rw [after, List.foldl_append, ← after]
  exact Write.apply_eq _ write

@[simp] theorem capacity_after (w : Window) (writes : List Write) :
    (w.after writes).capacity = w.capacity := by
  induction writes using List.reverseRecOn with
  | nil => rfl
  | append_singleton writes write ih => rw [after_concat, capacity_set, ih]

theorem lastWritten_concat (count : Nat) (writes : List Write) (write : Write) (age : Int) :
    lastWritten count (writes ++ [write]) age =
      if write.age ≡ age [ZMOD count] then write.number else lastWritten count writes age := by
  rw [lastWritten, List.filter_append]
  split
  case isTrue hsame => simp [hsame]
  case isFalse hother => simp [hother, lastWritten]

theorem get_after {count : Nat} (h : 0 < count) (writes : List Write) (age : Int) :
    ((blank count).after writes).get age = lastWritten count writes age := by
  induction writes using List.reverseRecOn with
  | nil => exact get_blank count age
  | append_singleton writes write ih =>
      rw [after_concat, get_set (by simpa using h), ih, lastWritten_concat, capacity_after,
        capacity_blank]

theorem inTurn_concat {writes : List Write} {write : Write} (h : InTurn (writes ++ [write])) :
    InTurn writes ∧ write.age = writes.length := by
  rw [InTurn, List.length_append, List.length_singleton, List.range_succ, List.map_append,
    List.map_append, List.map_singleton, List.map_singleton] at h
  obtain ⟨hbefore, hlast⟩ := List.append_inj' h rfl
  exact ⟨hbefore, List.singleton_inj.1 hlast⟩

theorem holds_after (h : 0 < w.capacity) {writes : List Write} (hturn : InTurn writes) :
    (w.after writes).Holds (writes.map Write.number) := by
  induction writes using List.reverseRecOn with
  | nil => exact holds_nil w
  | append_singleton writes write ih =>
      obtain ⟨hbefore, hage⟩ := inTurn_concat hturn
      have hset := (ih hbefore).set (by rwa [capacity_after]) write.number
      rw [after_concat, hage, List.map_append, List.map_singleton]
      rwa [List.length_map] at hset

/-- A full ring, read backwards from the newest number on, gives the latest numbers. -/
theorem Holds.readBack {xs : List Float} (h : w.Holds xs) (hfull : w.capacity ≤ xs.length) :
    (List.range w.capacity).map (fun (i : Nat) => w.get ((xs.length : Int) - 1 - i)) =
      (latest w.capacity xs).reverse := by
  apply List.ext_getElem
  · rw [List.length_map, List.length_range, List.length_reverse, latest, List.length_drop]
    omega
  · intro i hi _
    rw [List.length_map, List.length_range] at hi
    have hage : (xs.length : Int) - 1 - (i : Nat) = ((xs.length - 1 - i : Nat) : Int) := by omega
    simp only [latest, List.getElem_map, List.getElem_range, List.getElem_reverse,
      List.getElem_drop, List.length_drop, hage, h _ (show xs.length - 1 - i < _ by omega)
      (by omega)]
    congr 1
    omega

theorem Holds.isLargest_max {xs : List Float} (h : w.Holds xs) (hfull : w.capacity ≤ xs.length)
    (hsome : ∃ x ∈ latest w.capacity xs, x.isNaN = false) :
    Number.IsLargest (latest w.capacity xs) w.max ∧
      Number.IsSmallest (latest w.capacity xs) w.min := by
  simp only [← h.mem_toList_iff hfull, Number.IsLargest, Number.IsSmallest] at hsome ⊢
  exact ⟨Number.isLargest_maximum hsome, Number.isSmallest_minimum hsome⟩

theorem Holds.max_of_nan {xs : List Float} (h : w.Holds xs) (hfull : w.capacity ≤ xs.length)
    (hnan : ∀ x ∈ latest w.capacity xs, x.isNaN = true) :
    w.max = -Number.infinity ∧ w.min = Number.infinity := by
  simp only [← h.mem_toList_iff hfull] at hnan
  exact ⟨Number.maximum_of_nan hnan, Number.minimum_of_nan hnan⟩

/-- A new ring under any writes, at any ages: its capacity stays, it gives for each age the number that
was last written to its slot, and a replacement gives what was to be read before it. Once writes in turn
have gone round, the latest of their numbers are read backwards from the newest, and the extremes of the
slots are those of these numbers, NaN apart; if all are NaN, they are the infinities. -/
theorem after_remembers {count : Nat} (hcount : 0 < count) :
    ∃ w, ofCapacity count = .ok w ∧ ∀ writes : List Write,
      let now := w.after writes
      now.capacity = count ∧
      (∀ age, now.get age = lastWritten count writes age) ∧
      (∀ age x, (now.replace age x).1 = now.get age ∧ (now.replace age x).2 = now.set age x) ∧
      ∀ turn, InTurn turn → count ≤ turn.length →
        let full := now.after turn
        let last := latest count (turn.map Write.number)
        (List.range count).map (fun (i : Nat) => full.get ((turn.length : Int) - 1 - i)) =
            last.reverse ∧
          ((∃ x ∈ last, x.isNaN = false) →
            Number.IsLargest last full.max ∧ Number.IsSmallest last full.min) ∧
          ((∀ x ∈ last, x.isNaN = true) →
            full.max = -Number.infinity ∧ full.min = Number.infinity) := by
  refine ⟨blank count, if_neg hcount.ne', fun writes => ?_⟩
  intro now
  have hcapacity : now.capacity = count := by
    rw [capacity_after, capacity_blank]
  refine ⟨hcapacity, get_after hcount writes, fun _ _ => ⟨rfl, rfl⟩, fun turn hturn hround => ?_⟩
  intro full last
  have hfull : full.capacity = count := by
    rw [capacity_after, hcapacity]
  have hholds : full.Holds (turn.map Write.number) := holds_after (hcapacity ▸ hcount) hturn
  rw [← List.length_map Write.number, ← hfull] at hround
  simp only [last, ← hfull]
  refine ⟨?_, hholds.isLargest_max hround, hholds.max_of_nan hround⟩
  rw [← List.length_map Write.number]
  exact hholds.readBack hround

/-- An age below zero has the slot of an age above it, and what has left the ring does not count for its
extremes. -/
theorem after_remembers_negative :
    let writes : List Write := [.set (-1) 7.0, .replace 5 8.0, .set 0 9.0]
    let turn : List Write := [.set 0 1.0, .replace 1 Number.nan, .set 2 Number.nan]
    0 < 2 ∧ InTurn turn ∧ 2 ≤ turn.length ∧
      ∃ w, ofCapacity 2 = .ok w ∧ (w.after writes).get (-3) = 8.0 ∧
        ((w.after writes).after turn).max = -Number.infinity := by
  intro writes turn
  have hturn : InTurn turn := rfl
  obtain ⟨w, hw, hlaw⟩ := after_remembers (show 0 < 2 by decide)
  obtain ⟨-, hget, -, hround⟩ := hlaw writes
  obtain ⟨-, -, hnan⟩ := hround turn hturn (by decide)
  exact ⟨by decide, hturn, by decide, w, hw, (hget (-3)).trans rfl, (hnan (by decide +kernel)).1⟩

end SignalEngine.Window
