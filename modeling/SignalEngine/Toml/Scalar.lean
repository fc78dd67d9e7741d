import SignalEngine.Config.Setting
import SignalEngine.Json.Scan
import SignalEngine.Number.Fold
import SignalEngine.Number.Word
import SignalEngine.Toml.Moment

namespace SignalEngine.Toml

/-- The digits of a group after a digit: an underscore may stand between two digits. -/
def digitsAfter (isDigit : Char → Bool) : List Char → Option (List Char)
  | [] => some []
  | '_' :: c :: rest => if isDigit c then (digitsAfter isDigit rest).map (c :: ·) else none
  | c :: rest => if isDigit c then (digitsAfter isDigit rest).map (c :: ·) else none

def digitGroup? (isDigit : Char → Bool) : List Char → Option (List Char)
  | [] => none
  | c :: rest => if isDigit c then (digitsAfter isDigit rest).map (c :: ·) else none

/-- The digits of a decimal number, which begins with zero only if it is zero. -/
def wholeDigits? (cs : List Char) : Option (List Char) :=
  match cs with
  | '0' :: _ :: _ => none
  | _ => digitGroup? Char.isDigit cs

def word64? (n : Int) : Option Int :=
  if Number.fitsSigned 63 n then some n else none

def natOfBase (base : Nat) (digits : List Char) : Nat :=
  digits.foldl (fun n c => n * base + (Json.hexValue? c).getD 0) 0

def isDigitOf (base : Nat) (c : Char) : Bool :=
  match Json.hexValue? c with
  | some n => n < base
  | none => false

def basedInteger? (base : Nat) (cs : List Char) : Option Int :=
  (digitGroup? (isDigitOf base) cs).bind fun digits => word64? (natOfBase base digits)

/-- An integer. Only decimal ones have a sign. -/
def integer? : List Char → Option Int
  | '0' :: 'x' :: rest => basedInteger? 16 rest
  | '0' :: 'o' :: rest => basedInteger? 8 rest
  | '0' :: 'b' :: rest => basedInteger? 2 rest
  | cs =>
      let (negative, rest) := Number.takeSign cs
      (wholeDigits? rest).bind fun digits =>
        let n := Int.ofNat (Number.natOfDigits digits)
        word64? (if negative then -n else n)

def isGrouped (c : Char) : Bool :=
  c.isDigit || c == '_'

def numberFraction? : Reader (Option (List Char))
  | '.' :: rest =>
      (digitGroup? Char.isDigit (rest.takeWhile isGrouped)).map fun digits =>
        (some digits, rest.dropWhile isGrouped)
  | rest => some (none, rest)

def numberExponent? : List Char → Option (Option Int)
  | [] => some none
  | c :: rest =>
      if c = 'e' ∨ c = 'E' then
        let (negative, rest) := Number.takeSign rest
        (digitGroup? Char.isDigit rest).map fun digits =>
          let n := Int.ofNat (Number.natOfDigits digits)
          some (if negative then -n else n)
      else none

/-- A number with a fraction or an exponent, or one of the words for infinity and NaN. A number that is
too large counts as negative infinity, but not as positive infinity. -/
def real? (cs : List Char) : Option Float := do
  let (negative, rest) := Number.takeSign cs
  if rest = ['i', 'n', 'f'] then return Number.withSign negative Number.infinity
  if rest = ['n', 'a', 'n'] then return Number.nan
  let whole ← wholeDigits? (rest.takeWhile isGrouped)
  let (fraction, rest) ← numberFraction? (rest.dropWhile isGrouped)
  let exponent ← numberExponent? rest
  if fraction.isNone && exponent.isNone then none
  else
    let numeral : Number.Numeral := ⟨whole, fraction.getD [], exponent.getD 0⟩
    let x := Number.withSign negative numeral.value
    if x == Number.infinity then none else some x

def scalar? (cs : List Char) : Option Setting :=
  if cs = ['t', 'r', 'u', 'e'] then some (.boolean true)
  else if cs = ['f', 'a', 'l', 's', 'e'] then some (.boolean false)
  else
    ((integer? cs).map Setting.integer).or <|
      ((real? cs).map Setting.real).or <|
        (Moment.parse? cs).map fun m => .moment (String.ofList m.text)

def isWordChar (c : Char) : Bool :=
  c.isAlphanum || c == '_' || c == '+' || c == '-' || c == '.' || c == ':'

/-- Splits off the word at the start of a text. A date and a time with one space between them are one
word. -/
def takeWord (cs : List Char) : List Char × List Char :=
  let word := cs.takeWhile isWordChar
  match date? word, cs.dropWhile isWordChar with
  | some (_, []), ' ' :: c :: rest =>
      if c.isDigit then
        (word ++ ' ' :: (c :: rest).takeWhile isWordChar, (c :: rest).dropWhile isWordChar)
      else (word, ' ' :: c :: rest)
  | _, rest => (word, rest)

end SignalEngine.Toml
