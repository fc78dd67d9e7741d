import SignalEngine.Json.Scan

/-!
Passing over a value that is not wanted. Only the form of the text is checked: numbers may be too
large, surrogates may stand alone, and there is no limit to the nesting, because the open brackets are
kept on a list.
-/

namespace SignalEngine.Json

/-- An open bracket. -/
inductive Bracket where
  | list
  | object
  deriving DecidableEq, Repr

def Bracket.close : Bracket → Char
  | .list => ']'
  | .object => '\x7d'

def Bracket.unfinished : Bracket → Error
  | .list => .endOfList
  | .object => .endOfObject

/-- The fault of an element that is followed by neither a comma nor the end. -/
def Bracket.unseparated : Bracket → Error
  | .list => .expectedListEnd
  | .object => .expectedObjectEnd

/-- Passes over a number after its sign. However it fails, it is an invalid number. -/
def skipNumber (cs : List Char) : Except Error (List Char) :=
  let parts : Except Error (List Char) := do
    let (_, rest) ← wholePart cs
    let (_, rest) ← fractionPart rest
    let (_, rest) ← optionalExponent rest
    return rest
  parts.mapError fun _ => .invalidNumber

/-- Passes over a scalar, or over an opening bracket, which is returned. -/
def skipHead (cs : List Char) : Except Error (Option Bracket × List Char) :=
  let scalar := Except.map fun (rest : List Char) => ((none : Option Bracket), rest)
  match skipSpaces cs with
  | [] => .error .endOfValue
  | 'n' :: rest => scalar (word ['u', 'l', 'l'] rest)
  | 't' :: rest => scalar (word ['r', 'u', 'e'] rest)
  | 'f' :: rest => scalar (word ['a', 'l', 's', 'e'] rest)
  | '-' :: rest => scalar (skipNumber rest)
  | '"' :: rest => scalar (skipString rest)
  | '[' :: rest => .ok (some .list, rest)
  | '\x7b' :: rest => .ok (some .object, rest)
  | c :: rest => if c.isDigit then scalar (skipNumber (c :: rest)) else .error .expectedValue

/-- Closes brackets after a finished value until another element is due. What remains open is
returned; nothing, when the outermost value is finished. -/
def settle : List Bracket → List Char → Except Error (List Bracket × List Char)
  | [], cs => .ok ([], cs)
  | b :: outer, cs =>
      match skipSpaces cs with
      | [] => .error b.unfinished
      | c :: rest =>
          if c = ',' then .ok (b :: outer, rest)
          else if c = b.close then settle outer rest
          else .error b.unseparated

/-- Opens a bracket, which may be closed at once. -/
def openBracket (b : Bracket) (outer : List Bracket) (cs : List Char) :
    Except Error (List Bracket × List Char) :=
  match skipSpaces cs with
  | [] => .error b.unfinished
  | c :: rest => if c = b.close then settle outer rest else .ok (b :: outer, c :: rest)

/-- Passes over the key of a member, up to its value. Elements of lists have none. -/
def skipKey : Bracket → List Char → Except Error (List Char)
  | .list, cs => .ok cs
  | .object, cs =>
      match skipSpaces cs with
      | [] => .error .endOfObject
      | '"' :: rest => do colon (← skipString rest)
      | _ => .error .keyNotString

/-- Passes over a value inside the given open brackets, and then over the rest of those. Each step
reads at least one character, so a text longer than the one read bounds their number. -/
def skipWithin : List Char → List Bracket → List Char → Except Error (List Char)
  | [], _, _ => .error .endOfValue
  | _ :: bound, stack, cs => do
      let (opened, rest) ← skipHead cs
      let (stack, rest) ← match opened with
        | none => settle stack rest
        | some b => openBracket b stack rest
      match stack with
      | [] => return rest
      | b :: _ => skipWithin bound stack (← skipKey b rest)

def skipValue (cs : List Char) : Except Error (List Char) :=
  skipWithin (' ' :: cs) [] cs

end SignalEngine.Json
