import SignalEngine.Market.Calendar
import SignalEngine.Number.Decimal
import SignalEngine.Number.Word
import SignalEngine.Text.Blank

namespace SignalEngine.Timestamp

inductive Part where
  | year
  | month
  | day
  | hour
  | minute
  | second
  deriving DecidableEq, Repr

/-- An item of a format: a part, a character, or any amount of white space. -/
inductive Item where
  | part (p : Part)
  | char (c : Char)
  | space
  deriving DecidableEq, Repr

/-- The parts that have been read. A date alone begins its day. -/
structure Moment where
  year : Int
  month : Nat
  day : Nat
  hour : Nat
  minute : Nat
  second : Nat
  deriving DecidableEq, Repr

namespace Moment

def blank : Moment :=
  ⟨0, 1, 1, 0, 0, 0⟩

/-- The milliseconds since the start of 1970. The sixtieth second counts as the start of the next
minute. -/
def milliseconds (m : Moment) : Int :=
  let day := Date.dayNumber ⟨m.year, m.month, m.day⟩
  (((day * 24 + m.hour) * 60 + m.minute) * 60 + m.second) * 1000

def isValid (m : Moment) : Bool :=
  let date : Date := ⟨m.year, m.month, m.day⟩
  date.isValid && date.inRange

end Moment

def digits? (width : Nat) (cs : List Char) : Option (Nat × List Char) :=
  let digits := (cs.take width).takeWhile Char.isDigit
  if digits.isEmpty then none else some (Number.natOfDigits digits, cs.drop digits.length)

/-- A year: up to four digits, or any number of them after a sign. -/
def year? : List Char → Option (Int × List Char)
  | '-' :: rest => (digits? rest.length rest).map fun (n, rest) => (-Int.ofNat n, rest)
  | '+' :: rest => (digits? rest.length rest).map fun (n, rest) => (Int.ofNat n, rest)
  | cs => (digits? 4 cs).map fun (n, rest) => (Int.ofNat n, rest)

def ranged? (low high : Nat) (cs : List Char) : Option (Nat × List Char) := do
  let (n, rest) ← digits? 2 cs
  if low ≤ n ∧ n ≤ high then some (n, rest) else none

def Part.read? (p : Part) (m : Moment) (cs : List Char) : Option (Moment × List Char) :=
  match p with
  | .year => (year? cs).map fun (n, rest) => ({ m with year := n }, rest)
  | .month => (ranged? 1 12 cs).map fun (n, rest) => ({ m with month := n }, rest)
  | .day => (ranged? 1 31 cs).map fun (n, rest) => ({ m with day := n }, rest)
  | .hour => (ranged? 0 23 cs).map fun (n, rest) => ({ m with hour := n }, rest)
  | .minute => (ranged? 0 59 cs).map fun (n, rest) => ({ m with minute := n }, rest)
  | .second => (ranged? 0 60 cs).map fun (n, rest) => ({ m with second := n }, rest)

/-- Reads a text by a format. White space may stand before every part. -/
def read? : List Item → Moment → List Char → Option Moment
  | [], m, [] => if m.isValid then some m else none
  | [], _, _ :: _ => none
  | .space :: items, m, cs => read? items m (Text.trimStart cs)
  | .char c :: items, m, cs =>
      match cs with
      | d :: rest => if c = d then read? items m rest else none
      | [] => none
  | .part p :: items, m, cs => do
      let (m, rest) ← p.read? m (Text.trimStart cs)
      read? items m rest

def dateItems (separator : Char) (a b c : Part) : List Item :=
  [.part a, .char separator, .part b, .char separator, .part c]

def timeItems : List Item :=
  [.part .hour, .char ':', .part .minute, .char ':', .part .second]

/-- All formats, in the order in which they are tried. -/
def formats : List (List Item) :=
  [dateItems '-' .year .month .day ++ .space :: timeItems,
    dateItems '-' .year .month .day ++ .char 'T' :: timeItems,
    dateItems '/' .year .month .day ++ .space :: timeItems,
    dateItems '-' .year .month .day,
    dateItems '/' .year .month .day,
    dateItems '/' .month .day .year,
    dateItems '-' .day .month .year]

/-- A count of seconds; above ten thousand millions, a count of milliseconds. The milliseconds of the
least counts overflow the word that times are kept in. -/
def ofCount? (cs : List Char) : Option Int := do
  let n ← Number.readInt? cs
  if !Number.fitsSigned 63 n then none
  else if 10000000000 < n then some n
  else some (Number.wrapSigned 63 (n * 1000))

def parse? (cs : List Char) : Option Int :=
  match formats.findSome? fun items => read? items .blank cs with
  | some m => some m.milliseconds
  | none => ofCount? cs

end SignalEngine.Timestamp
