import SignalEngine.Json.Record

namespace SignalEngine.Json

/-- A case of a tagged union: its name, what the bare name stands for, and how content is read. -/
structure Variant (β : Type) where
  name : String
  bare : Except Error β
  content : Nat → Reader β

namespace Variant

def unit (name : String) (value : β) : Variant β where
  name := name
  bare := .ok value
  content _ := scalar fun
    | .null => .ok value
    | head => .error (.wrongType head "unit")

def around (name : String) (codec : Codec α) (wrap : α → β) : Variant β where
  name := name
  bare := .error (.bareVariant "newtype variant")
  content depth cs := (codec.read depth cs).map fun (a, rest) => (wrap a, rest)

def withFields (name what : String) (fields : Fields α δ) (make : α → β) : Variant β where
  name := name
  bare := .error (.bareVariant "struct variant")
  content depth cs :=
    (fields.read ("struct variant " ++ what) depth cs).map fun (a, rest) => (make a, rest)

def named (variants : List (Variant β)) (name : String) : Except Error (Variant β) :=
  match variants.find? fun v => v.name == name with
  | some v => .ok v
  | none => .error (.unknownVariant name (variants.map Variant.name))

/-- Reads a bare name, or an object with exactly one member. -/
def read (variants : List (Variant β)) : Nat → Reader β
  | depth, cs =>
      match skipSpaces cs with
      | [] => .error .endOfValue
      | '"' :: rest => do
          let (name, rest) ← stringBody rest
          let v ← named variants name
          return (← v.bare, rest)
      | '\x7b' :: rest =>
          match depth with
          | 0 => .error .nestedTooDeep
          | depth + 1 =>
              match skipSpaces rest with
              | [] => .error .endOfObject
              | '"' :: rest => do
                  let (name, rest) ← stringBody rest
                  let v ← named variants name
                  let (b, rest) ← v.content depth (← colon rest)
                  match skipSpaces rest with
                  | [] => .error .endOfObject
                  | '\x7d' :: rest => return (b, rest)
                  | _ => .error .expectedValue
              | _ => .error .expectedValue
      | _ => .error .expectedValue

end Variant

def taggedText (name : String) (content : List Char) : List Char :=
  objectText [stringText name ++ ':' :: content]

/-- The codec of an enumeration: every value is written as its name. -/
def Codec.enumeration (values : List β) (name : β → String) : Codec β where
  write b := stringText (name b)
  read := Variant.read (values.map fun b => Variant.unit (name b) b)

def Codec.tagged (variants : List (Variant β)) (write : β → List Char) : Codec β where
  write := write
  read := Variant.read variants

end SignalEngine.Json
