import SignalEngine.Json.Scan

namespace SignalEngine.Json

/-- The most brackets that may be open at once around a value that is decoded. -/
def maxDepth : Nat := 127

/-- The elements of a list after its bracket or after an element, up to the closing bracket. Each step
reads at least one character, so a text longer than the one read bounds their number. -/
def elementsFrom (item : Reader α) : List Char → Bool → List α → Reader (List α)
  | [], _, _, _ => .error .endOfList
  | _ :: bound, first, read, cs => do
      let (more, rest) ← nextElement first cs
      if more then
        let (a, rest) ← item rest
        elementsFrom item bound false (a :: read) rest
      else return (read.reverse, rest)

def elements (item : Reader α) : Reader (List α) := fun cs =>
  elementsFrom item ('[' :: cs) true [] cs

/-- The members of an object after its bracket or after a member, up to the closing bracket. What is
known so far decides, with the key, how a member is read. The steps are bounded as for a list. -/
def membersFrom (member : String → σ → Except Error (Reader σ)) : List Char → Bool → σ → Reader σ
  | [], _, _, _ => .error .endOfObject
  | _ :: bound, first, known, cs => do
      let (key, rest) ← nextKey first cs
      match key with
      | none => return (known, rest)
      | some key =>
          let read ← member key known
          let (known, rest) ← read (← colon rest)
          membersFrom member bound false known rest

def members (member : String → σ → Except Error (Reader σ)) (known : σ) : Reader σ := fun cs =>
  membersFrom member ('\x7b' :: cs) true known cs

/-- A value of any kind. Members keep their order, and a name may occur more than once. -/
inductive Value where
  | null
  | boolean (value : Bool)
  | integer (value : Int)
  | real (value : Float)
  | text (value : String)
  | list (elements : List Value)
  | object (members : List (String × Value))
  deriving Repr

def Value.read : Nat → Reader Value
  | depth, cs => do
      let (head, rest) ← lead cs
      match head with
      | .null => return (.null, rest)
      | .boolean b => return (.boolean b, rest)
      | .integer n => return (.integer n, rest)
      | .real x => return (.real x, rest)
      | .text s => return (.text s, rest)
      | .list =>
          match depth with
          | 0 => .error .nestedTooDeep
          | depth + 1 =>
              let (vs, rest) ← elements (Value.read depth) rest
              return (.list vs, rest)
      | .object =>
          match depth with
          | 0 => .error .nestedTooDeep
          | depth + 1 =>
              let member := fun key (known : List (String × Value)) =>
                .ok fun cs => do
                  let (v, rest) ← Value.read depth cs
                  return ((key, v) :: known, rest)
              let (ms, rest) ← members member [] rest
              return (.object ms.reverse, rest)

def Value.get? (name : String) : Value → Option Value
  | .object members => (members.find? fun m => m.1 == name).map Prod.snd
  | _ => none

end SignalEngine.Json
