import SignalEngine.Number.Binary

/-!
The shortest decimal that reads back to a given binary64 number. Of several decimals of that length
the one nearest to the number is taken, and of two equally near ones the one with the even last digit.
-/

namespace SignalEngine.Number

/-- A decimal `0.d₁…dₙ * 10 ^ point`, with its digits as characters. -/
structure Decimal where
  digits : List Char
  point : Int
  deriving DecidableEq, Repr

/-- The decimal `n * 10 ^ e`, without the trailing zeros of `n`. -/
def Decimal.ofNat (n : Nat) (e : Int) : Decimal :=
  let digits := Nat.toDigits 10 n
  ⟨(digits.reverse.dropWhile (· == '0')).reverse, e + digits.length⟩

def decimalPointFrom (r : Ratio) (low : Int) : Nat → Int
  | 0 => low
  | fuel + 1 =>
      let bound := (Ratio.mk 1 1).shift low
      if r.num * bound.den < bound.num * r.den then low
      else decimalPointFrom r (low + 1) fuel

/-- The position of the decimal point: the least `k` with `r < 10 ^ k`. The search starts at an
estimate from the binary length, which is never too large and at most two too small. -/
def decimalPoint (m : Magnitude) : Int :=
  let top := m.exponent + Nat.log2 m.significand
  decimalPointFrom m.ratio (top * 30103 / 100000) 3

/-- Tests the two neighbours of `value` on the grid of width `10 ^ unit` against the interval from
`low` to `high`. -/
def gridHit? (value low high : Ratio) (closed : Bool) (unit : Int) : Option Nat :=
  let v := value.shift (-unit)
  let l := low.shift (-unit)
  let h := high.shift (-unit)
  let below := v.num / v.den
  let belowIn :=
    if closed then decide (l.num ≤ below * l.den) else decide (l.num < below * l.den)
  let aboveIn :=
    if closed then decide ((below + 1) * h.den ≤ h.num) else decide ((below + 1) * h.den < h.num)
  match belowIn, aboveIn with
  | true, true => some (roundHalfEven v)
  | true, false => some below
  | false, true => some (below + 1)
  | false, false => none

/-- Tries grids from coarse to fine, starting with `count` digits. Seventeen digits always suffice. -/
def shortestFrom (value low high : Ratio) (closed : Bool) (point : Int) (count : Nat) :
    Nat → Decimal
  | 0 => Decimal.ofNat (roundHalfEven (value.shift (17 - point))) (point - 17)
  | fuel + 1 =>
      match gridHit? value low high closed (point - count) with
      | some n => Decimal.ofNat n (point - count)
      | none => shortestFrom value low high closed point (count + 1) fuel

/-- The shortest decimal of a positive magnitude. The numbers that round to it lie between the
midpoints to its two neighbours, the midpoints included when the significand is even. -/
def shortest (m : Magnitude) : Decimal :=
  -- in quarters of the last place the midpoints are whole
  let unit := m.exponent - 2
  let value := Ratio.scaled (4 * m.significand) unit
  let low := Ratio.scaled (4 * m.significand - (if m.narrowBelow then 1 else 2)) unit
  let high := Ratio.scaled (4 * m.significand + 2) unit
  shortestFrom value low high (m.significand % 2 == 0) (decimalPoint m) 1 17

end SignalEngine.Number
