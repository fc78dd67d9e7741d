import SignalEngine.Json.Value
import SignalEngine.Number.Fold

namespace SignalEngine.Json

/-- How the values of a type are written, and how they are read when at most the given number of
further brackets may be open. -/
structure Codec (α : Type) where
  write : α → List Char
  read : Nat → Reader α

def Codec.encode (c : Codec α) (a : α) : String :=
  String.ofList (c.write a)

/-- Reads a text that holds one value and nothing else. -/
def Codec.decode (c : Codec α) (s : String) : Except Error α := do
  let (a, rest) ← c.read maxDepth s.toList
  match skipSpaces rest with
  | [] => return a
  | _ => .error .trailingCharacters

def Codec.map (c : Codec α) (wrap : α → β) (unwrap : β → α) : Codec β where
  write b := c.write (unwrap b)
  read depth cs := (c.read depth cs).map fun (a, rest) => (wrap a, rest)

def misfit (expected : String) (cs : List Char) : Except Error α := do
  let (head, _) ← lead cs
  .error (.wrongType head expected)

def scalar (accept : Lead → Except Error α) : Reader α := fun cs => do
  let (head, rest) ← lead cs
  return (← accept head, rest)

def acceptInteger (low high : Int) (expected : String) : Lead → Except Error Int
  | .integer n =>
      if low ≤ n ∧ n < high then .ok n else .error (.wrongValue (.integer n) expected)
  | head => .error (.wrongType head expected)

def acceptReal : Lead → Except Error Float
  | .integer n => .ok (Float.ofInt n)
  | .real x => .ok x
  | head => .error (.wrongType head "f64")

def acceptBoolean : Lead → Except Error Bool
  | .boolean b => .ok b
  | head => .error (.wrongType head "a boolean")

def acceptText : Lead → Except Error String
  | .text s => .ok s
  | head => .error (.wrongType head "a string")

def Codec.integer (low high : Int) (name : String) : Codec Int where
  write := Number.intText
  read _ := scalar (acceptInteger low high name)

def Codec.natural (bound : Nat) (name : String) : Codec Nat :=
  (Codec.integer 0 bound name).map Int.toNat Int.ofNat

/-- Integers of a word with the given number of bits beside the sign. -/
def Codec.signed (bits : Nat) (name : String) : Codec Int :=
  .integer (-Int.ofNat (Number.wordValues bits)) (Int.ofNat (Number.wordValues bits)) name

def Codec.count : Codec Nat := .natural (Number.wordValues 64) "usize"

def Codec.identifier : Codec Nat := .natural (Number.wordValues 32) "u32"

def Codec.time : Codec Int := .signed 63 "i64"

def Codec.small : Codec Int := .signed 31 "i32"

/-- Numbers that are finite when all goes well: any other is written as `null`, which does not read
back. -/
def Codec.real : Codec Float where
  write x := if x.isFinite then Number.wireText x else ['n', 'u', 'l', 'l']
  read _ := scalar acceptReal

def Codec.boolean : Codec Bool where
  write b := if b then ['t', 'r', 'u', 'e'] else ['f', 'a', 'l', 's', 'e']
  read _ := scalar acceptBoolean

/-- One character inside a written string. Quotes, backslashes and control characters are escaped and
all else stands for itself. -/
def escapedChar (c : Char) : List Char :=
  if c = '"' ∨ c = '\\' then ['\\', c]
  else if c = '\n' then ['\\', 'n']
  else if c = '\r' then ['\\', 'r']
  else if c = '\t' then ['\\', 't']
  else if c = '\x08' then ['\\', 'b']
  else if c = '\x0c' then ['\\', 'f']
  else if c.toNat < 0x20 then
    ['\\', 'u', '0', '0', Nat.digitChar (c.toNat / 16), Nat.digitChar (c.toNat % 16)]
  else [c]

def stringText (s : String) : List Char :=
  '"' :: s.toList.flatMap escapedChar ++ ['"']

def Codec.text : Codec String where
  write := stringText
  read _ := scalar acceptText

def losslessForm : String :=
  "a number or one of \"NaN\", \"Infinity\", \"-Infinity\""

def special? : String → Option Float
  | "NaN" => some Number.nan
  | "Infinity" => some Number.infinity
  | "-Infinity" => some (-Number.infinity)
  | _ => none

def specialWord (x : Float) : String :=
  if x.isNaN then "NaN" else if 0.0 < x then "Infinity" else "-Infinity"

def acceptLossless (depth : Nat) : Lead → Except Error Float
  | .integer n => .ok (Float.ofInt n)
  | .real x => .ok x
  | .text s =>
      match special? s with
      | some x => .ok x
      | none => .error (.wrongValue (.text s) losslessForm)
  | .list => .error (if depth = 0 then .nestedTooDeep else .wrongType .list losslessForm)
  | .object => .error (if depth = 0 then .nestedTooDeep else .wrongType .object losslessForm)
  | head => .error (.wrongType head losslessForm)

/-- Numbers of every kind: those that are not finite are written as words. -/
def Codec.lossless : Codec Float where
  write x := if x.isFinite then Number.wireText x else stringText (specialWord x)
  read depth := scalar (acceptLossless depth)

def Codec.option (c : Codec α) : Codec (Option α) where
  write
    | none => ['n', 'u', 'l', 'l']
    | some a => c.write a
  read depth cs :=
    match skipSpaces cs with
    | 'n' :: rest => (word ['u', 'l', 'l'] rest).map fun rest => (none, rest)
    | cs => (c.read depth cs).map fun (a, rest) => (some a, rest)

def separated : List (List Char) → List Char
  | [] => []
  | [item] => item
  | item :: items => item ++ ',' :: separated items

def Codec.list (c : Codec α) : Codec (List α) where
  write items := '[' :: separated (items.map c.write) ++ [']']
  read depth cs :=
    match skipSpaces cs with
    | '[' :: rest =>
        match depth with
        | 0 => .error .nestedTooDeep
        | depth + 1 => elements (c.read depth) rest
    | cs => misfit "a sequence" cs

end SignalEngine.Json
