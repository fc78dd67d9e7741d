import SignalEngine.Number.Shortest

namespace SignalEngine.Number

def zeros (count : Nat) : List Char :=
  List.replicate count '0'

def signed (negative : Bool) (digits : List Char) : List Char :=
  if negative then '-' :: digits else digits

/-- The decimal digits of an integer, with a sign when it is negative. -/
def intText (n : Int) : List Char :=
  signed (decide (n < 0)) (Nat.toDigits 10 n.natAbs)

/-- The form `d₁.d₂…dₙe±x`, whose exponent always has a sign and no leading zeros. -/
def Decimal.scientific (d : Decimal) : List Char :=
  let exponent := d.point - 1
  let mark := if exponent < 0 then ['e', '-'] else ['e', '+']
  let tail := mark ++ Nat.toDigits 10 exponent.natAbs
  match d.digits with
  | [] => '0' :: tail
  | [first] => first :: tail
  | first :: rest => first :: '.' :: rest ++ tail

/-- Positional form; `whole` is what follows the digits of a whole number. -/
def Decimal.positional (whole : List Char) (d : Decimal) : List Char :=
  if d.point ≤ 0 then
    '0' :: '.' :: zeros (-d.point).toNat ++ d.digits
  else
    let point := d.point.toNat
    if point < d.digits.length then
      d.digits.take point ++ '.' :: d.digits.drop point
    else
      d.digits ++ zeros (point - d.digits.length) ++ whole

/-- Positional from `10 ^ -5` on and below `10 ^ 16`, scientific elsewhere. -/
def Decimal.wire (d : Decimal) : List Char :=
  if -5 < d.point ∧ d.point ≤ 16 then d.positional ['.', '0'] else d.scientific

/-- The wire form of a finite number: always a point or an exponent, the sign of zero kept. -/
def wireText (x : Float) : List Char :=
  let m := magnitude x
  signed (isNegative x)
    (if m.significand = 0 then ['0', '.', '0'] else (shortest m).wire)

def specialText (x : Float) : List Char :=
  if x.isNaN then ['N', 'a', 'N'] else signed (isNegative x) ['i', 'n', 'f']

/-- Shortest digits without an exponent; whole numbers have no point. -/
def plainText (x : Float) : List Char :=
  if x.isFinite then
    let m := magnitude x
    signed (isNegative x)
      (if m.significand = 0 then ['0'] else (shortest m).positional [])
  else specialText x

def placesText (places units : Nat) : List Char :=
  let digits := Nat.toDigits 10 units
  let padded := zeros (places + 1 - digits.length) ++ digits
  let point := padded.length - places
  padded.take point ++ '.' :: padded.drop point

def fixedText (places : Nat) (x : Float) : List Char :=
  if x.isFinite then
    signed (isNegative x) (placesText places (roundHalfEven ((magnitude x).ratio.shift places)))
  else specialText x

end SignalEngine.Number
