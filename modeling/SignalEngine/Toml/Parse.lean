import SignalEngine.Toml.Quoted
import SignalEngine.Toml.Scalar
import SignalEngine.Toml.Tree

namespace SignalEngine.Toml

/-- The most names in one key, and the most brackets around a value. -/
def maxDepth : Nat := 79

def isBare (c : Char) : Bool :=
  c.isAlphanum || c == '_' || c == '-'

def name? : Reader String := fun cs =>
  match cs.takeWhile isBare with
  | [] => line? cs
  | name => some (String.ofList name, cs.dropWhile isBare)

def namesFrom : Nat → Reader (List String)
  | 0, _ => none
  | count + 1, cs => do
      let (name, rest) ← name? (skipSpaces cs)
      match skipSpaces rest with
      | '.' :: rest =>
          let (names, rest) ← namesFrom count rest
          return (name :: names, rest)
      | rest => return ([name], rest)

def key? : Reader Key := fun cs => do
  let (names, rest) ← namesFrom maxDepth cs
  return (⟨names.dropLast, names.getLastD ""⟩, rest)

/-- The rest of an array: values with commas between them, and perhaps one after the last. Every value
takes at least one character. -/
def itemsFrom (item : Reader α) : Nat → Reader (List α)
  | 0, _ => none
  | fuel + 1, cs =>
      match skipBlank cs with
      | ']' :: rest => some ([], rest)
      | cs => do
          let (a, rest) ← item cs
          match skipBlank rest with
          | ']' :: rest => return ([a], rest)
          | ',' :: rest =>
              let (as, rest) ← itemsFrom item fuel rest
              return (a :: as, rest)
          | _ => none

def pairOf? (value : Reader Setting) : Reader (Key × Setting) := fun cs => do
  let (key, rest) ← key? cs
  let (v, rest) ← value (skipSpaces (← char? '=' rest))
  return ((key, v), skipSpaces rest)

def pairsFrom (value : Reader Setting) : Nat → Reader (List (Key × Setting))
  | 0, _ => none
  | fuel + 1, cs => do
      let (p, rest) ← pairOf? value cs
      match rest with
      | '\x7d' :: rest => return ([p], rest)
      | ',' :: rest =>
          let (ps, rest) ← pairsFrom value fuel rest
          return (p :: ps, rest)
      | _ => none

def inline? (value : Reader Setting) : Reader Setting := fun cs =>
  match skipSpaces cs with
  | '\x7d' :: rest => some (.empty, rest)
  | cs => do
      let (assignments, rest) ← pairsFrom value cs.length cs
      return (← inlineTable? assignments, rest)

def word? : Reader Setting := fun cs =>
  let (word, rest) := takeWord cs
  (scalar? word).map fun v => (v, rest)

def value? : Nat → Reader Setting
  | depth, cs =>
      match cs, depth with
      | '[' :: _, 0 | '\x7b' :: _, 0 => none
      | '[' :: rest, depth + 1 =>
          (itemsFrom (value? depth) (rest.length + 1) rest).map fun (vs, rest) => (.list vs, rest)
      | '\x7b' :: rest, depth + 1 => inline? (value? depth) rest
      | cs, _ =>
          ((text? cs).map fun (s, rest) => (Setting.text s, rest)).or (word? cs)

def header? : Reader Statement
  | '[' :: '[' :: rest => do
      let (key, rest) ← key? rest
      return (.append key, ← char? ']' (← char? ']' rest))
  | '[' :: rest => do
      let (key, rest) ← key? rest
      return (.table key, ← char? ']' rest)
  | _ => none

/-- What a line says, if it says anything; its end is not read. -/
def statement? : Reader (Option Statement) := fun cs =>
  match skipSpaces cs with
  | [] => some (none, [])
  | c :: rest =>
      if c = '#' ∨ c = '\n' ∨ c = '\r' then some (none, c :: rest)
      else if c = '[' then (header? (c :: rest)).map fun (s, rest) => (some s, rest)
      else
        (pairOf? (value? maxDepth) (c :: rest)).map fun ((key, v), rest) =>
          (some (.assign key v), rest)

def statementsFrom : Nat → List Char → Option (List Statement)
  | 0, _ => none
  | _ + 1, [] => some []
  | fuel + 1, cs => do
      let (statement, rest) ← statement? cs
      let statements ← statementsFrom fuel (← endLine? rest)
      return statement.toList ++ statements

def dropMark : List Char → List Char
  | '\uFEFF' :: rest => rest
  | cs => cs

def parse? (text : String) : Option Setting := do
  let cs := dropMark text.toList
  Document.ofStatements (← statementsFrom (cs.length + 1) cs)

end SignalEngine.Toml
