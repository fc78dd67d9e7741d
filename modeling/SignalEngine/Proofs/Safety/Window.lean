import SignalEngine.Window

namespace SignalEngine

/-- What stops the program. -/
inductive Panic where
  | fault (fault : Fault)
  | remainderByZero
  | slotOutOfRange (slot : Nat)
  | belowZero
  deriving DecidableEq, Repr

def tryPred (n : Nat) : Except Panic Nat :=
  if n = 0 then .error .belowZero else .ok (n - 1)

theorem tryPred_eq {n : Nat} (h : 0 < n) : tryPred n = .ok (n - 1) :=
  if_neg (Nat.ne_of_gt h)

namespace Window

def tryOfCapacity (capacity : Nat) : Except Panic Window :=
  (ofCapacity capacity).mapError .fault

def trySlot (w : Window) (age : Int) : Except Panic Nat :=
  if w.capacity = 0 then .error .remainderByZero else .ok (w.slot age)

def tryGet (w : Window) (age : Int) : Except Panic Float := do
  let slot ← w.trySlot age
  match w.slots[slot]? with
  | some x => return x
  | none => throw (.slotOutOfRange slot)

def tryReplace (w : Window) (age : Int) (x : Float) : Except Panic (Float × Window) := do
  let slot ← w.trySlot age
  match w.slots[slot]? with
  | some evicted => return (evicted, ⟨w.slots.setIfInBounds slot x⟩)
  | none => throw (.slotOutOfRange slot)

def trySet (w : Window) (age : Int) (x : Float) : Except Panic Window := do
  return (← w.tryReplace age x).2

theorem tryOfCapacity_eq {capacity : Nat} (h : 0 < capacity) :
    tryOfCapacity capacity = .ok (blank capacity) := by
  rw [tryOfCapacity, ofCapacity, if_neg (Nat.ne_of_gt h)]
  rfl

variable {w : Window}

theorem trySlot_eq (h : 0 < w.capacity) (age : Int) : w.trySlot age = .ok (w.slot age) :=
  if_neg (Nat.ne_of_gt h)

theorem getElem?_slot (h : 0 < w.capacity) (age : Int) :
    w.slots[w.slot age]? = some (w.get age) := by
  have hslot : w.slot age < w.slots.size := slot_lt h age
  rw [get, Array.getElem?_eq_getElem hslot, Array.getElem_eq_getD]

theorem tryGet_eq (h : 0 < w.capacity) (age : Int) : w.tryGet age = .ok (w.get age) := by
  simp only [tryGet, trySlot_eq h, bind, Except.bind, getElem?_slot h]
  rfl

/-- A window without slots can only come from a text, and no text is read as one. -/
example (age : Int) : (Window.mk #[]).tryGet age = .error .remainderByZero := rfl

theorem tryReplace_eq (h : 0 < w.capacity) (age : Int) (x : Float) :
    w.tryReplace age x = .ok (w.replace age x) := by
  simp only [tryReplace, trySlot_eq h, bind, Except.bind, getElem?_slot h]
  rfl

theorem trySet_eq (h : 0 < w.capacity) (age : Int) (x : Float) :
    w.trySet age x = .ok (w.set age x) := by
  rw [trySet, tryReplace_eq h]
  rfl

end Window

end SignalEngine
