import SignalEngine.Fault
import SignalEngine.Json.Codec

/-!
Rolling windows: a ring of numbers addressed by age. An age that grows without end goes round the
ring, and the slot of an age is its remainder, so negative ages name earlier slots.

Ages, periods and counters are numbers without a bound throughout, where a machine has words of 64
bits. The two are the same below `2 ^ 63`, which counting up from zero does not reach in practice. A
state that is restored may hold any age or period below `2 ^ 64`, and from `2 ^ 63` on the machine
takes it for a negative age, or its counter runs over: what is said here of such a state is said of
the numbers and not of the words.
-/

namespace SignalEngine

open Json (Codec)

/-- A ring of numbers. -/
structure Window where
  slots : Array Float
  deriving Repr

namespace Window

def blank (capacity : Nat) : Window :=
  ⟨Array.replicate capacity 0.0⟩

def ofCapacity (capacity : Nat) : Except Fault Window :=
  if capacity = 0 then .error .zeroCapacity else .ok (blank capacity)

def capacity (w : Window) : Nat :=
  w.slots.size

def toList (w : Window) : List Float :=
  w.slots.toList

def slot (w : Window) (age : Int) : Nat :=
  (age % (w.capacity : Int)).toNat

def get (w : Window) (age : Int) : Float :=
  w.slots.getD (w.slot age) 0.0

def set (w : Window) (age : Int) (x : Float) : Window :=
  ⟨w.slots.setIfInBounds (w.slot age) x⟩

/-- Stores a number for an age, and gives the one that it evicts. -/
def replace (w : Window) (age : Int) (x : Float) : Float × Window :=
  (w.get age, w.set age x)

def sum (w : Window) : Float :=
  Number.sum w.toList

def mean (w : Window) : Float :=
  w.sum / Float.ofNat w.capacity

def max (w : Window) : Float :=
  Number.maximum w.toList

def min (w : Window) : Float :=
  Number.minimum w.toList

/-- Windows are written as the list of their slots, of which there is at least one. -/
def codec : Codec Window where
  write w := (Codec.list .lossless).write w.toList
  read depth cs := do
    let (xs, rest) ← (Codec.list .lossless).read depth cs
    if xs.isEmpty then .error .emptyWindow else return (⟨xs.toArray⟩, rest)

@[simp] theorem capacity_blank (n : Nat) : (blank n).capacity = n := by
  simp [blank, capacity]

@[simp] theorem capacity_set (w : Window) (age : Int) (x : Float) :
    (w.set age x).capacity = w.capacity := by
  simp [set, capacity]

@[simp] theorem slot_set (w : Window) (age b : Int) (x : Float) :
    (w.set age x).slot b = w.slot b := by
  simp [slot]

theorem slot_lt {w : Window} (h : 0 < w.capacity) (age : Int) : w.slot age < w.capacity := by
  have h₀ := Int.emod_nonneg age (b := w.capacity) (by omega)
  have h₁ := Int.emod_lt_of_pos age (b := w.capacity) (by omega)
  unfold slot
  omega

end Window

end SignalEngine
