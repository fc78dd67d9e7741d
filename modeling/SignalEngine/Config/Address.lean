import SignalEngine.Json.Scan
import SignalEngine.Number.Decimal
import SignalEngine.Number.Word

namespace SignalEngine

inductive Host where
  | v4 (bytes : List Nat)
  | v6 (groups : List Nat) (scope : Option Nat)
  deriving DecidableEq, Repr

structure SocketAddress where
  host : Host
  service : Nat
  deriving DecidableEq, Repr

namespace SocketAddress

abbrev Reader (α : Type) := List Char → Option (α × List Char)

def mark? (c : Char) : List Char → Option (List Char)
  | [] => none
  | d :: rest => if c = d then some rest else none

def number? (bound : Nat) : Reader Nat := fun cs =>
  let (digits, rest) := Number.takeDigits cs
  let n := Number.natOfDigits digits
  if digits.isEmpty ∨ bound ≤ n then none else some (n, rest)

/-- A byte: up to three digits, and no zero in front of others. -/
def byte? : Reader Nat := fun cs =>
  let digits := (Number.takeDigits cs).1
  if 3 < digits.length ∨ (1 < digits.length ∧ digits.head? = some '0') then none
  else number? 256 cs

def group? : Reader Nat := fun cs =>
  let digits := cs.takeWhile fun c => (Json.hexValue? c).isSome
  if digits.isEmpty ∨ 4 < digits.length then none
  else
    some (digits.foldl (fun n c => n * 16 + (Json.hexValue? c).getD 0) 0, cs.drop digits.length)

def bytes? : Reader (List Nat) := fun cs => do
  let (a, rest) ← byte? cs
  let (b, rest) ← byte? (← mark? '.' rest)
  let (c, rest) ← byte? (← mark? '.' rest)
  let (d, rest) ← byte? (← mark? '.' rest)
  return ([a, b, c, d], rest)

def pairBytes : List Nat → List Nat
  | a :: b :: rest => (a * 256 + b) :: pairBytes rest
  | _ => []

/-- Groups with colons between them, as many as there are but at most `room`. Four bytes may stand for
the last two groups; whether they did is the second part of the result. -/
def groupsFrom (first : Bool) : Nat → List Char → (List Nat × Bool) × List Char
  | 0, cs => (([], false), cs)
  | room + 1, cs =>
      match if first then some cs else mark? ':' cs with
      | none => (([], false), cs)
      | some next =>
          match if 0 < room then bytes? next else none with
          | some (bytes, rest) => ((pairBytes bytes, true), rest)
          | none =>
              match group? next with
              | none => (([], false), cs)
              | some (g, rest) =>
                  let ((gs, bytes), rest) := groupsFrom false room rest
                  ((g :: gs, bytes), rest)

/-- Eight groups. Two colons stand for one or more groups of zeros, with nothing but groups in front of
them. -/
def groups? : Reader (List Nat) := fun cs =>
  let ((front, bytes), rest) := groupsFrom true 8 cs
  if front.length = 8 then some (front, rest)
  else if bytes then none
  else
    match rest with
    | ':' :: ':' :: rest =>
        let ((back, _), rest) := groupsFrom true (7 - front.length) rest
        some (front ++ List.replicate (8 - front.length - back.length) 0 ++ back, rest)
    | _ => none

def scope? : Reader (Option Nat)
  | '%' :: rest => (number? (Number.wordValues 32) rest).map fun (n, rest) => (some n, rest)
  | rest => some (none, rest)

def service? (cs : List Char) : Option Nat := do
  match ← number? (Number.wordValues 16) (← mark? ':' cs) with
  | (service, []) => some service
  | _ => none

def parse? (text : String) : Option SocketAddress :=
  match text.toList with
  | '[' :: rest => do
      let (groups, rest) ← groups? rest
      let (scope, rest) ← scope? rest
      return ⟨.v6 groups scope, ← service? (← mark? ']' rest)⟩
  | cs => do
      let (bytes, rest) ← bytes? cs
      return ⟨.v4 bytes, ← service? rest⟩

end SocketAddress

end SignalEngine
