import Mathlib.Data.List.Sort
import SignalEngine.Proofs.Window.Ring

namespace SignalEngine

/-- The latest members of a series with their ages, in the order of the slots of these ages. -/
def placed (count : Nat) (xs : List α) : List (α × Nat) :=
  (latest count xs.zipIdx).insertionSort fun a b => a.2 % count ≤ b.2 % count

/-- The latest members of a series, in the order of the remainders of their ages. -/
def bySlot (count : Nat) (xs : List α) : List α :=
  (placed count xs).map Prod.fst

section Placed

variable {count : Nat} {xs : List α}

theorem placed_perm (count : Nat) (xs : List α) : (placed count xs).Perm (latest count xs.zipIdx) :=
  List.perm_insertionSort _ _

theorem bySlot_perm (count : Nat) (xs : List α) : (bySlot count xs).Perm (latest count xs) := by
  have hlatest : (latest count xs.zipIdx).map Prod.fst = latest count xs := by
    rw [latest, List.map_drop, List.zipIdx_map_fst, List.length_zipIdx, latest]
  rw [← hlatest]
  exact (placed_perm count xs).map Prod.fst

theorem length_latest (h : count ≤ xs.length) : (latest count xs).length = count := by
  rw [latest, List.length_drop]
  omega

theorem getLastD_mem_latest (hpos : 0 < count) (h : count ≤ xs.length) (a : α) :
    xs.getLastD a ∈ latest count xs := by
  have hne : xs ≠ [] := List.length_pos_iff.1 (hpos.trans_le h)
  obtain ⟨before, last, rfl⟩ := (List.eq_nil_or_concat xs).resolve_left hne
  rw [List.concat_eq_append, List.getLastD_concat, latest, List.drop_append_of_le_length]
  · exact List.mem_append_right _ (List.mem_singleton_self last)
  · rw [List.length_append, List.length_singleton]
    omega

theorem length_placed (h : count ≤ xs.length) : (placed count xs).length = count := by
  rw [(placed_perm count xs).length_eq, length_latest (by rwa [List.length_zipIdx])]

theorem length_bySlot (h : count ≤ xs.length) : (bySlot count xs).length = count := by
  rw [bySlot, List.length_map, length_placed h]

theorem mem_placed {p : α × Nat} (h : p ∈ placed count xs) :
    xs.length ≤ p.2 + count ∧ ∃ hage : p.2 < xs.length, p.1 = xs[p.2] := by
  obtain ⟨i, hi, rfl⟩ := List.getElem_of_mem ((placed_perm count xs).mem_iff.1 h)
  rw [latest, List.length_drop, List.length_zipIdx] at hi
  simp only [latest, List.getElem_drop, List.getElem_zipIdx, List.length_zipIdx, Nat.zero_add]
  exact ⟨by omega, by omega, trivial⟩

theorem nodup_remainders (count : Nat) (xs : List α) :
    ((placed count xs).map fun p => p.2 % count).Nodup := by
  apply ((placed_perm count xs).map _).nodup_iff.2
  rw [List.Nodup, List.pairwise_map, List.pairwise_iff_getElem]
  intro i j hi hj hij
  rw [latest, List.length_drop, List.length_zipIdx] at hi hj
  simp only [latest, List.getElem_drop, List.getElem_zipIdx, List.length_zipIdx]
  have hslot := Window.slot_ne_of_lt (w := .blank count) (a := 0 + (xs.length - count + i))
    (b := 0 + (xs.length - count + j)) (by omega) (by rw [Window.capacity_blank]; omega)
  rwa [Window.slot_natCast, Window.slot_natCast, Window.capacity_blank] at hslot

theorem remainders_eq_range (hpos : 0 < count) (h : count ≤ xs.length) :
    (placed count xs).map (fun p => p.2 % count) = List.range count := by
  have hsubset : (placed count xs).map (fun p => p.2 % count) ⊆ List.range count := by
    intro r hr
    obtain ⟨p, -, rfl⟩ := List.mem_map.1 hr
    exact List.mem_range.2 (Nat.mod_lt _ hpos)
  have hperm : ((placed count xs).map fun p => p.2 % count).Perm (List.range count) := by
    apply (List.subperm_of_subset (nodup_remainders count xs) hsubset).perm_of_length_le
    rw [List.length_range, List.length_map, length_placed h]
  have htotal : Std.Total fun a b : α × Nat => a.2 % count ≤ b.2 % count :=
    ⟨fun a b => Nat.le_total _ _⟩
  have htrans : IsTrans (α × Nat) fun a b => a.2 % count ≤ b.2 % count :=
    ⟨fun _ _ _ => Nat.le_trans⟩
  have hsorted : ((placed count xs).map fun p => p.2 % count).Pairwise (· ≤ ·) :=
    List.pairwise_map.2 (List.pairwise_insertionSort _ _)
  exact hperm.eq_of_pairwise (fun _ _ _ _ => Nat.le_antisymm) hsorted List.pairwise_le_range

end Placed

namespace Window

variable {w : Window} {xs : List Float}

/-- A full ring lists the latest numbers in the order of their slots. -/
theorem Holds.toList_eq (h : w.Holds xs) (hpos : 0 < w.capacity) (hfull : w.capacity ≤ xs.length) :
    w.toList = bySlot w.capacity xs := by
  apply List.ext_getElem
  · exact (length_bySlot hfull).symm
  · intro i hi hi'
    rw [bySlot, List.length_map] at hi'
    obtain ⟨hnear, hage, hvalue⟩ := mem_placed (List.getElem_mem hi')
    have hslot : w.slot (placed w.capacity xs)[i].2 = i := by
      have hremainder := List.getElem_of_eq (remainders_eq_range hpos hfull)
        (show i < _ by rwa [List.length_map])
      rw [slot_natCast]
      rwa [List.getElem_map, List.getElem_range] at hremainder
    calc w.toList[i] = w.get (placed w.capacity xs)[i].2 := by
          rw [get, hslot, Array.getD_eq_getD_getElem?, Array.getElem?_eq_getElem hi,
            Option.getD_some]
          rfl
      _ = (placed w.capacity xs)[i].1 := by rw [h _ hage hnear, hvalue]
      _ = (bySlot w.capacity xs)[i] := by simp only [bySlot, List.getElem_map]

end Window

end SignalEngine
