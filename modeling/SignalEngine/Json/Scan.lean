import SignalEngine.Json.Error
import SignalEngine.Number.Decimal
import SignalEngine.Number.Word

namespace SignalEngine.Json

/-- A step of reading: the result and the rest of the text, or the first fault. -/
abbrev Reader (α : Type) := List Char → Except Error (α × List Char)

def isSpace (c : Char) : Bool :=
  c == ' ' || c == '\t' || c == '\n' || c == '\r'

def skipSpaces (cs : List Char) : List Char :=
  cs.dropWhile isSpace

def word : List Char → List Char → Except Error (List Char)
  | [], rest => .ok rest
  | _ :: _, [] => .error .endOfValue
  | e :: es, c :: rest => if c = e then word es rest else .error .expectedWord

def exponentPart (cs : List Char) : Except Error (Int × List Char) :=
  let (negative, rest) := Number.takeSign cs
  match Number.takeDigits rest with
  | ([], []) => .error .endOfValue
  | ([], _ :: _) => .error .invalidNumber
  | (digits, rest) =>
      let n := Int.ofNat (Number.natOfDigits digits)
      .ok (if negative then -n else n, rest)

def optionalExponent : List Char → Except Error (Option Int × List Char)
  | [] => .ok (none, [])
  | c :: rest =>
      if c = 'e' ∨ c = 'E' then (exponentPart rest).map fun (e, rest) => (some e, rest)
      else .ok (none, c :: rest)

/-- The digits of the whole part: one zero, or digits that do not start with one. -/
def wholePart (cs : List Char) : Except Error (List Char × List Char) :=
  match cs with
  | [] => .error .endOfValue
  | '0' :: rest =>
      match rest with
      | [] => .ok (['0'], [])
      | c :: _ => if c.isDigit then .error .invalidNumber else .ok (['0'], rest)
  | c :: rest => if c.isDigit then .ok (Number.takeDigits (c :: rest)) else .error .invalidNumber

def fractionPart : List Char → Except Error (Option (List Char) × List Char)
  | '.' :: rest =>
      match Number.takeDigits rest with
      | ([], []) => .error .endOfValue
      | ([], _ :: _) => .error .invalidNumber
      | (digits, rest) => .ok (some digits, rest)
  | rest => .ok (none, rest)

def realNumber (negative : Bool) (n : Number.Numeral) : Except Error Lead :=
  let x := n.value
  if x.isInf then .error .numberTooLarge else .ok (.real (Number.withSign negative x))

/-- A number without point and exponent: an integer if it fits in 64 bits, and a real otherwise. Minus
zero is a real. -/
def wholeNumber (negative : Bool) (digits : List Char) : Except Error Lead :=
  let n := Number.natOfDigits digits
  if negative then
    if n = 0 ∨ Number.wordValues 63 < n then realNumber true ⟨digits, [], 0⟩ else .ok (.integer (-Int.ofNat n))
  else
    if Number.fits 64 n then .ok (.integer n) else realNumber false ⟨digits, [], 0⟩

def number (negative : Bool) : Reader Lead := fun cs => do
  let (whole, rest) ← wholePart cs
  let (fraction, rest) ← fractionPart rest
  let (exponent, rest) ← optionalExponent rest
  let lead ←
    if fraction.isNone && exponent.isNone then wholeNumber negative whole
    else realNumber negative ⟨whole, fraction.getD [], exponent.getD 0⟩
  return (lead, rest)

/-- Where a string scanner stands. The characters of an unfinished `\u` escape are kept newest first,
together with the leading surrogate before them, if there is one. -/
inductive StringState where
  | plain
  | escape
  | hex (surrogate : Option Nat) (seen : List Char)
  | surrogateSlash (leading : Nat)
  | surrogateMark (leading : Nat)
  deriving Repr

def hexValue? (c : Char) : Option Nat :=
  if c.isDigit then some (c.toNat - 48)
  else if 'a' ≤ c ∧ c ≤ 'f' then some (c.toNat - 87)
  else if 'A' ≤ c ∧ c ≤ 'F' then some (c.toNat - 55)
  else none

def hexCode? : List Char → Option Nat
  | [d, c, b, a] => do
      let a ← hexValue? a
      let b ← hexValue? b
      let c ← hexValue? c
      let d ← hexValue? d
      return ((a * 16 + b) * 16 + c) * 16 + d
  | _ => none

def simpleEscape? : Char → Option Char
  | '"' => some '"'
  | '\\' => some '\\'
  | '/' => some '/'
  | 'b' => some '\x08'
  | 'f' => some '\x0c'
  | 'n' => some '\n'
  | 'r' => some '\r'
  | 't' => some '\t'
  | _ => none

/-- A leading surrogate, which must be followed by a trailing one. -/
def isLeadingSurrogate (n : Nat) : Bool :=
  0xD800 ≤ n && n ≤ 0xDBFF

def isTrailingSurrogate (n : Nat) : Bool :=
  0xDC00 ≤ n && n ≤ 0xDFFF

/-- The state after a complete `\u` escape, and the character that it completes. -/
def endOfHex (strict : Bool) (surrogate : Option Nat) (code : Nat) :
    Except Error (StringState × Option Char) :=
  -- a lenient scanner takes any four digits
  if !strict then .ok (.plain, none)
  else
    match surrogate with
    | none =>
        if isTrailingSurrogate code then .error .loneSurrogate
        else if isLeadingSurrogate code then .ok (.surrogateSlash code, none)
        else .ok (.plain, some (Char.ofNat code))
    | some leading =>
        if isTrailingSurrogate code then
          .ok (.plain, some (Char.ofNat ((leading - 0xD800) * 0x400 + (code - 0xDC00) + 0x10000)))
        else .error .loneSurrogate

def byteLength (cs : List Char) : Nat :=
  cs.foldl (fun n c => n + c.utf8Size) 0

/-- One character inside a string; `none` in place of a state means that the string has ended. -/
def StringState.step (strict : Bool) (state : StringState) (c : Char) :
    Except Error (Option StringState × Option Char) :=
  match state with
  | .plain =>
      if c = '"' then .ok (none, none)
      else if c = '\\' then .ok (some .escape, none)
      else if c.toNat < 0x20 then .error .controlCharacter
      else .ok (some .plain, some c)
  | .escape =>
      if c = 'u' then .ok (some (.hex none []), none)
      else
        match simpleEscape? c with
        | some d => .ok (some .plain, some d)
        | none => .error .invalidEscape
  | .hex surrogate seen =>
      -- the escape takes the next four bytes, whatever they are
      let seen := c :: seen
      if byteLength seen < 4 then .ok (some (.hex surrogate seen), none)
      else
        match hexCode? seen with
        | none => .error .invalidEscape
        | some code => (endOfHex strict surrogate code).map fun (state, d) => (some state, d)
  | .surrogateSlash leading =>
      if c = '\\' then .ok (some (.surrogateMark leading), none) else .error .brokenSurrogate
  | .surrogateMark leading =>
      if c = 'u' then .ok (some (.hex (some leading) []), none) else .error .brokenSurrogate

/-- The characters of a string up to its closing quote, in front of those already read. -/
def stringFrom (strict : Bool) (state : StringState) (read : List Char) : Reader (List Char)
  | [] => .error .endOfString
  | c :: rest =>
      match state.step strict c with
      | .error e => .error e
      | .ok (none, _) => .ok (read.reverse, rest)
      | .ok (some state, none) => stringFrom strict state read rest
      | .ok (some state, some d) => stringFrom strict state (d :: read) rest

def stringBody : Reader String := fun cs =>
  (stringFrom true .plain [] cs).map fun (chars, rest) => (String.ofList chars, rest)

def skipString (cs : List Char) : Except Error (List Char) :=
  (stringFrom false .plain [] cs).map Prod.snd

/-- The head of the next value. Of a list or an object only the opening bracket is read. -/
def lead : Reader Lead := fun cs =>
  match skipSpaces cs with
  | [] => .error .endOfValue
  | 'n' :: rest => (word ['u', 'l', 'l'] rest).map fun rest => (.null, rest)
  | 't' :: rest => (word ['r', 'u', 'e'] rest).map fun rest => (.boolean true, rest)
  | 'f' :: rest => (word ['a', 'l', 's', 'e'] rest).map fun rest => (.boolean false, rest)
  | '-' :: rest => number true rest
  | '"' :: rest => (stringBody rest).map fun (s, rest) => (.text s, rest)
  | '[' :: rest => .ok (.list, rest)
  | '\x7b' :: rest => .ok (.object, rest)
  | c :: rest => if c.isDigit then number false (c :: rest) else .error .expectedValue

def colon (cs : List Char) : Except Error (List Char) :=
  match skipSpaces cs with
  | [] => .error .endOfObject
  | ':' :: rest => .ok rest
  | _ => .error .expectedColon

/-- Steps to the next element of a list: the text at that element, or `none` with the text after the
closing bracket. -/
def nextElement (first : Bool) (cs : List Char) : Except Error (Bool × List Char) :=
  match skipSpaces cs with
  | [] => .error .endOfList
  | ']' :: rest => .ok (false, rest)
  | c :: rest =>
      if first then .ok (true, c :: rest)
      else if c = ',' then
        match skipSpaces rest with
        | [] => .error .endOfValue
        | ']' :: _ => .error .trailingComma
        | rest => .ok (true, rest)
      else .error .expectedListEnd

/-- What must follow the last element that is read of a list. -/
def closeList (cs : List Char) : Except Error (List Char) :=
  match skipSpaces cs with
  | [] => .error .endOfList
  | ']' :: rest => .ok rest
  | ',' :: rest =>
      match skipSpaces rest with
      | ']' :: _ => .error .trailingComma
      | _ => .error .trailingCharacters
  | _ => .error .trailingCharacters

/-- Steps to the next member of an object: its key and the text after the key, or `none` with the
text after the closing bracket. -/
def nextKey (first : Bool) (cs : List Char) : Except Error (Option String × List Char) :=
  match skipSpaces cs with
  | [] => .error .endOfObject
  | '\x7d' :: rest => .ok (none, rest)
  | '"' :: rest =>
      if first then (stringBody rest).map fun (key, rest) => (some key, rest)
      else .error .expectedObjectEnd
  | ',' :: rest =>
      if first then .error .keyNotString
      else
        match skipSpaces rest with
        | [] => .error .endOfValue
        | '"' :: rest => (stringBody rest).map fun (key, rest) => (some key, rest)
        | '\x7d' :: _ => .error .trailingComma
        | _ => .error .keyNotString
  | _ => if first then .error .keyNotString else .error .expectedObjectEnd

end SignalEngine.Json
