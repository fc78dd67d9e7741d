import SignalEngine.Number.Word

/-!
The exact value of a binary64 number. A finite number without its sign is `significand * 2 ^ exponent`;
everything written about numbers in this library is computed from that pair in `Nat` arithmetic.
-/

namespace SignalEngine.Number

/-- A finite number without its sign: `significand * 2 ^ exponent`. -/
structure Magnitude where
  significand : Nat
  exponent : Int
  /-- The number below is only half as far away as the number above. -/
  narrowBelow : Bool
  deriving DecidableEq, Repr

/-- The sign bit, which also tells `-0.0` from `0.0`. -/
def isNegative (x : Float) : Bool :=
  x.toBits.toNat / wordValues 63 == 1

def magnitude (x : Float) : Magnitude :=
  let bits := x.toBits.toNat
  let fraction := bits % wordValues 52
  let biased : Nat := bits / wordValues 52 % wordValues 11
  if biased = 0 then
    ⟨fraction, -1074, false⟩
  else
    ⟨fraction + wordValues 52, Int.ofNat biased - 1075, fraction == 0 && decide (1 < biased)⟩

/-- A positive rational as two naturals. -/
structure Ratio where
  num : Nat
  den : Nat
  deriving DecidableEq, Repr

def Ratio.scaled (n : Nat) (e : Int) : Ratio :=
  if 0 ≤ e then ⟨n * Nat.pow 2 e.toNat, 1⟩ else ⟨n, Nat.pow 2 (-e).toNat⟩

def Ratio.shift (r : Ratio) (e : Int) : Ratio :=
  if 0 ≤ e then ⟨r.num * Nat.pow 10 e.toNat, r.den⟩ else ⟨r.num, r.den * Nat.pow 10 (-e).toNat⟩

theorem Ratio.den_scaled_pos (n : Nat) (e : Int) : 0 < (Ratio.scaled n e).den := by
  unfold Ratio.scaled
  split
  · exact Nat.one_pos
  · exact Nat.pow_pos (by decide)

def Magnitude.ratio (m : Magnitude) : Ratio :=
  Ratio.scaled m.significand m.exponent

/-- Rounds a quotient to the nearest natural, and a half to the even neighbour. -/
def roundHalfEven (r : Ratio) : Nat :=
  let q := r.num / r.den
  let twice := 2 * (r.num % r.den)
  if twice < r.den then q
  else if twice = r.den then q + q % 2
  else q + 1

end SignalEngine.Number
