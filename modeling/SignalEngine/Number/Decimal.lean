namespace SignalEngine.Number

def digitValue (c : Char) : Nat :=
  c.toNat - '0'.toNat

/-- The natural number that a list of digits stands for. -/
def natOfDigits (digits : List Char) : Nat :=
  digits.foldl (fun n c => 10 * n + digitValue c) 0

/-- The number nearest to `coefficient * 10 ^ exponent`. Exponents far outside the range are answered
without computing the power. -/
def ofDecimal (coefficient : Nat) (exponent : Int) : Float :=
  let top := exponent + (Nat.toDigits 10 coefficient).length
  if coefficient = 0 ∨ top < -330 then 0.0
  else if 330 < top then 1.0 / 0.0
  else if 0 ≤ exponent then Float.ofScientific coefficient false exponent.toNat
  else Float.ofScientific coefficient true (-exponent).toNat

structure Numeral where
  whole : List Char
  fraction : List Char
  exponent : Int
  deriving DecidableEq, Repr

def Numeral.value (n : Numeral) : Float :=
  ofDecimal (natOfDigits (n.whole ++ n.fraction)) (n.exponent - n.fraction.length)

/-- A signed numeral: the sign is kept on zero. -/
def withSign (negative : Bool) (x : Float) : Float :=
  if negative then -x else x

def takeDigits (cs : List Char) : List Char × List Char :=
  cs.span Char.isDigit

def takeSign : List Char → Bool × List Char
  | '-' :: rest => (true, rest)
  | '+' :: rest => (false, rest)
  | rest => (false, rest)

def readInt? (cs : List Char) : Option Int :=
  let (negative, digits) := takeSign cs
  if digits.isEmpty || !digits.all Char.isDigit then none
  else
    let n := Int.ofNat (natOfDigits digits)
    some (if negative then -n else n)

def readNat? (cs : List Char) : Option Nat :=
  let digits := match cs with
    | '+' :: rest => rest
    | rest => rest
  if digits.isEmpty || !digits.all Char.isDigit then none else some (natOfDigits digits)

def readExponent? : List Char → Option Int
  | [] => some 0
  | c :: rest => if c = 'e' ∨ c = 'E' then readInt? rest else none

/-- An unsigned numeral with digits before or after the point, and an optional exponent. -/
def readUnsigned? (cs : List Char) : Option Float :=
  let (whole, rest) := takeDigits cs
  let (fraction, rest) := match rest with
    | '.' :: rest => takeDigits rest
    | rest => ([], rest)
  if whole.isEmpty && fraction.isEmpty then none
  else (readExponent? rest).map fun e => (Numeral.mk whole fraction e).value

/-- Reads a number in full: decimals, `inf`, `infinity` and `nan` in any case, with an optional sign. -/
def readFloat? (cs : List Char) : Option Float :=
  let (negative, body) := takeSign cs
  let word := String.ofList (body.map Char.toLower)
  if word = "inf" ∨ word = "infinity" then some (withSign negative (1.0 / 0.0))
  else if word = "nan" then some (0.0 / 0.0)
  else (readUnsigned? body).map (withSign negative)

end SignalEngine.Number
