import SignalEngine.Json.Scan
import SignalEngine.Toml.Blank

namespace SignalEngine.Toml

structure Quoting where
  quote : Char
  escapes : Bool
  multiline : Bool
  deriving DecidableEq, Repr

inductive Place where
  | plain
  /-- After a run of quotes, which may close the string or belong to it. -/
  | quotes (count : Nat)
  | escape
  /-- In an escape that gives a code point. -/
  | code (missing value : Nat)
  /-- After a backslash that breaks the line; everything blank after it is passed over. -/
  | broken (seen : Bool)
  /-- After a carriage return, in a broken line or elsewhere. -/
  | carriage (inBroken : Bool)
  deriving DecidableEq, Repr

def simpleEscape? : Char → Option Char
  | '"' => some '"'
  | '\\' => some '\\'
  | 'b' => some '\x08'
  | 'f' => some '\x0c'
  | 'n' => some '\n'
  | 'r' => some '\r'
  | 't' => some '\t'
  | _ => none

def charOfCode? (code : Nat) : Option Char :=
  if code.isValidChar then some (Char.ofNat code) else none

def stepPlain (q : Quoting) (c : Char) : Option (Place × List Char) :=
  if q.escapes ∧ c = '\\' then some (.escape, [])
  else if isVisible c then some (.plain, [c])
  else if q.multiline ∧ c = '\n' then some (.plain, [c])
  else if q.multiline ∧ c = '\r' then some (.carriage false, [])
  else none

def stepEscape (q : Quoting) (c : Char) : Option (Place × List Char) :=
  if c = 'u' then some (.code 4 0, [])
  else if c = 'U' then some (.code 8 0, [])
  else if q.multiline ∧ isSpace c then some (.broken false, [])
  else if q.multiline ∧ c = '\n' then some (.broken true, [])
  else if q.multiline ∧ c = '\r' then some (.carriage true, [])
  else (simpleEscape? c).map fun d => (.plain, [d])

def stepBroken (q : Quoting) (seen : Bool) (c : Char) : Option (Place × List Char) :=
  if isSpace c then some (.broken seen, [])
  else if c = '\n' then some (.broken true, [])
  else if c = '\r' then some (.carriage true, [])
  else if seen then stepPlain q c
  else none

def stepCode (missing value : Nat) (c : Char) : Option (Place × List Char) := do
  let value := value * 16 + (← Json.hexValue? c)
  if missing ≤ 1 then return (.plain, [← charOfCode? value])
  else return (.code (missing - 1) value, [])

/-- The place after a character that is no closing quote, and the characters that it adds. -/
def Place.step (q : Quoting) (c : Char) : Place → Option (Place × List Char)
  | .plain => stepPlain q c
  | .quotes count => (stepPlain q c).map fun (place, added) =>
      (place, List.replicate count q.quote ++ added)
  | .escape => stepEscape q c
  | .code missing value => stepCode missing value c
  | .broken seen => stepBroken q seen c
  | .carriage inBroken =>
      if c = '\n' then some (if inBroken then (.broken true, []) else (.plain, [c])) else none

def Place.takesQuotes : Place → Bool
  | .plain | .quotes _ | .broken true => true
  | _ => false

def Place.quoteCount : Place → Nat
  | .quotes count => count
  | _ => 0

def closeText (q : Quoting) (read : List Char) (quotes : Nat) : String :=
  String.ofList (read.reverse ++ List.replicate (quotes - 3) q.quote)

/-- A string after its opening quotes. The characters read so far are newest first. A run of quotes
closes a string over several lines as soon as five have been seen, or three and another character. -/
def textFrom (q : Quoting) (place : Place) (read : List Char) : Reader String
  | [] => if 3 ≤ place.quoteCount then some (closeText q read place.quoteCount, []) else none
  | c :: rest =>
      if c = q.quote ∧ place.takesQuotes then
        if !q.multiline then some (String.ofList read.reverse, rest)
        else if place.quoteCount = 4 then some (closeText q read 5, rest)
        else textFrom q (.quotes (place.quoteCount + 1)) read rest
      else if 3 ≤ place.quoteCount then some (closeText q read place.quoteCount, c :: rest)
      else
        match place.step q c with
        | none => none
        | some (place, added) => textFrom q place (added.reverse ++ read) rest

def line? : Reader String
  | '"' :: rest => textFrom ⟨'"', true, false⟩ .plain [] rest
  | '\x27' :: rest => textFrom ⟨'\x27', false, false⟩ .plain [] rest
  | _ => none

def dropLineBreak (cs : List Char) : List Char :=
  (lineBreak? cs).getD cs

def text? : Reader String
  | '"' :: '"' :: '"' :: rest => textFrom ⟨'"', true, true⟩ .plain [] (dropLineBreak rest)
  | '\x27' :: '\x27' :: '\x27' :: rest =>
      textFrom ⟨'\x27', false, true⟩ .plain [] (dropLineBreak rest)
  | cs => line? cs

end SignalEngine.Toml
