import SignalEngine.Market.Calendar
import SignalEngine.Number.Decimal
import SignalEngine.Toml.Blank

namespace SignalEngine.Toml

/-- A time of day. The digits of the fraction have no zeros at their end. -/
structure Time where
  hour : Nat
  minute : Nat
  second : Nat
  fraction : List Char
  deriving DecidableEq, Repr

/-- How far a time is from universal time, in minutes; `none` stands for the letter `Z`. -/
structure Offset where
  minutes : Option Int
  deriving DecidableEq, Repr

inductive Moment where
  | date (date : Date)
  | time (time : Time)
  | both (date : Date) (time : Time) (offset : Option Offset)
  deriving DecidableEq, Repr

def dateText (d : Date) : List Char :=
  Calendar.padded 4 d.year.toNat ++ '-' :: Calendar.padded 2 d.month ++
    '-' :: Calendar.padded 2 d.day

def Time.text (t : Time) : List Char :=
  Calendar.padded 2 t.hour ++ ':' :: Calendar.padded 2 t.minute ++
    ':' :: Calendar.padded 2 t.second ++ (if t.fraction.isEmpty then [] else '.' :: t.fraction)

def Offset.text (o : Offset) : List Char :=
  match o.minutes with
  | none => ['Z']
  | some m =>
      (if m < 0 then '-' else '+') :: Calendar.padded 2 (m.natAbs / 60) ++
        ':' :: Calendar.padded 2 (m.natAbs % 60)

def Moment.text : Moment → List Char
  | date d => dateText d
  | time t => t.text
  | both d t offset =>
      dateText d ++ 'T' :: t.text ++ (match offset with
        | some o => o.text
        | none => [])

def digits? (width : Nat) : Reader Nat := fun cs =>
  let digits := (cs.take width).takeWhile Char.isDigit
  if digits.length = width then some (Number.natOfDigits digits, cs.drop width) else none

def pair? (low high : Nat) : Reader Nat := fun cs => do
  let (n, rest) ← digits? 2 cs
  if low ≤ n ∧ n ≤ high then some (n, rest) else none

def date? : Reader Date := fun cs => do
  let (year, rest) ← digits? 4 cs
  let (month, rest) ← pair? 1 12 (← char? '-' rest)
  let (day, rest) ← pair? 1 31 (← char? '-' rest)
  let date : Date := ⟨year, month, day⟩
  if date.isValid then some (date, rest) else none

def dropTrailingZeros (digits : List Char) : List Char :=
  (digits.reverse.dropWhile (· == '0')).reverse

/-- The fraction of a second, if there is one. Of its digits nine count. -/
def fraction? : Reader (List Char)
  | '.' :: rest =>
      let (digits, rest) := Number.takeDigits rest
      if digits.isEmpty then none else some (dropTrailingZeros (digits.take 9), rest)
  | rest => some ([], rest)

def time? : Reader Time := fun cs => do
  let (hour, rest) ← pair? 0 23 cs
  let (minute, rest) ← pair? 0 59 (← char? ':' rest)
  let (second, rest) ← pair? 0 60 (← char? ':' rest)
  let (fraction, rest) ← fraction? rest
  return (⟨hour, minute, second, fraction⟩, rest)

def offset? : List Char → Option (Option Offset)
  | [] => some none
  | [c] => if c = 'Z' ∨ c = 'z' then some (some ⟨none⟩) else none
  | sign :: rest => do
      let (hour, rest) ← pair? 0 23 rest
      let (minute, rest) ← pair? 0 59 (← char? ':' rest)
      let minutes := Int.ofNat (hour * 60 + minute)
      match sign, rest with
      | '+', [] => some (some ⟨some minutes⟩)
      | '-', [] => some (some ⟨some (-minutes)⟩)
      | _, _ => none

/-- Reads a text that is a moment. Between a date and a time stands a letter `T` or a space. -/
def Moment.parse? (cs : List Char) : Option Moment :=
  match date? cs with
  | none => do
      match ← time? cs with
      | (t, []) => some (.time t)
      | _ => none
  | some (d, []) => some (.date d)
  | some (d, separator :: rest) =>
      if separator = 'T' ∨ separator = 't' ∨ separator = ' ' then do
        let (t, rest) ← time? rest
        some (.both d t (← offset? rest))
      else none

end SignalEngine.Toml
