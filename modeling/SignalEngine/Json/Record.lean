import SignalEngine.Json.Codec
import SignalEngine.Json.Skip

namespace SignalEngine.Json

/-- What a field is when the text does not give it. -/
inductive Absence (β : Type) where
  /-- The field has to be there. -/
  | forbidden
  /-- A member may be left out of an object, but not out of a list. -/
  | allowed (value : β)
  /-- The field may always be left out. -/
  | defaulted (value : β)

/-- A named field of a record. -/
structure Field (β : Type) where
  name : String
  codec : Codec β
  absence : Absence β

def Field.missing (f : Field β) : Except Error β :=
  match f.absence with
  | .forbidden => .error (.missingField f.name)
  | .allowed b | .defaulted b => .ok b

/-- The value of an element that a list ends before. -/
def Field.beyond (f : Field β) (position : Nat) (expected : String) : Except Error β :=
  match f.absence with
  | .forbidden | .allowed _ => .error (.wrongLength position expected)
  | .defaulted b => .ok b

/-- The fields of a record in order. The first index is the nest of pairs of their values; the second
is that of a partly read record, in which every value may still be absent. -/
inductive Fields : Type → Type → Type 1 where
  | nil : Fields Unit Unit
  | cons {β γ δ : Type} (field : Field β) (rest : Fields γ δ) : Fields (β × γ) (Option β × δ)

namespace Fields

def required (name : String) (codec : Codec β) (rest : Fields γ δ) :
    Fields (β × γ) (Option β × δ) :=
  .cons ⟨name, codec, .forbidden⟩ rest

def defaulted (name : String) (codec : Codec β) (value : β) (rest : Fields γ δ) :
    Fields (β × γ) (Option β × δ) :=
  .cons ⟨name, codec, .defaulted value⟩ rest

def optional (name : String) (codec : Codec β) (rest : Fields γ δ) :
    Fields (Option β × γ) (Option (Option β) × δ) :=
  .cons ⟨name, codec.option, .allowed none⟩ rest

def length : Fields α δ → Nat
  | .nil => 0
  | .cons _ rest => rest.length + 1

def names : Fields α δ → List String
  | .nil => []
  | .cons f rest => f.name :: rest.names

def memberTexts : Fields α δ → α → List (List Char)
  | .nil, _ => []
  | .cons f rest, (b, c) => (stringText f.name ++ ':' :: f.codec.write b) :: rest.memberTexts c

def blank : Fields α δ → δ
  | .nil => ()
  | .cons _ rest => (none, rest.blank)

/-- How the member with this name goes into the draft: `none` for a name that is no field. A field may
be given once. -/
def member (depth : Nat) : Fields α δ → String → δ → Except Error (Option (Reader δ))
  | .nil, _, _ => .ok none
  | .cons f rest, name, (b, draft) =>
      if name = f.name then
        if b.isSome then .error (.duplicateField name)
        else .ok (some fun cs => (f.codec.read depth cs).map fun (b, cs) => ((some b, draft), cs))
      else
        (rest.member depth name draft).map (Option.map fun read cs =>
          (read cs).map fun (draft, cs) => ((b, draft), cs))

/-- The record of a draft: fields that were not there take their value for that case. -/
def complete : Fields α δ → δ → Except Error α
  | .nil, _ => .ok ()
  | .cons f rest, (b, draft) => do
      let b ← match b with
        | some b => pure b
        | none => f.missing
      return (b, ← rest.complete draft)

def beyond (expected : String) : Fields α δ → Nat → Except Error α
  | .nil, _ => .ok ()
  | .cons f rest, position => do
      let b ← f.beyond position expected
      return (b, ← rest.beyond expected (position + 1))

/-- Reads the fields from the elements of a list, which must then end. -/
def fromElements (depth : Nat) (expected : String) : Fields α δ → Nat → Reader α
  | .nil, _, cs => return ((), ← closeList cs)
  | .cons f rest, position, cs => do
      let (more, cs) ← nextElement (position == 0) cs
      if more then
        let (b, cs) ← f.codec.read depth cs
        let (c, cs) ← rest.fromElements depth expected (position + 1) cs
        return ((b, c), cs)
      else
        let b ← f.beyond position expected
        return ((b, ← rest.beyond expected (position + 1)), cs)

/-- Reads a member into the draft, or passes over one that is no field. -/
def memberOrSkip (depth : Nat) (fields : Fields α δ) (name : String) (draft : δ) :
    Except Error (Reader δ) := do
  match ← fields.member depth name draft with
  | some read => return read
  | none => return fun cs => (skipValue cs).map fun rest => (draft, rest)

def lengthForm (what : String) (fields : Fields α δ) : String :=
  what ++ " with " ++ String.ofList (Nat.toDigits 10 fields.length) ++
    (if fields.length = 1 then " element" else " elements")

/-- Reads a record from an object with its fields in any order, or from a list with its fields in
their order. -/
def read (what : String) (fields : Fields α δ) : Nat → Reader α
  | depth, cs =>
      match skipSpaces cs with
      | '[' :: rest =>
          match depth with
          | 0 => .error .nestedTooDeep
          | depth + 1 => fields.fromElements depth (fields.lengthForm what) 0 rest
      | '\x7b' :: rest =>
          match depth with
          | 0 => .error .nestedTooDeep
          | depth + 1 => do
              let (draft, rest) ← members (fields.memberOrSkip depth) fields.blank rest
              return (← fields.complete draft, rest)
      | cs => misfit what cs

end Fields

/-- The written form of an object with these members. -/
def objectText (members : List (List Char)) : List Char :=
  '\x7b' :: separated members ++ ['\x7d']

/-- The codec of a record type: what it is called in messages, its fields, and how the values of the
fields make a record. -/
def Codec.record (what : String) (fields : Fields α δ) (make : α → β) (parts : β → α) : Codec β where
  write b := objectText (fields.memberTexts (parts b))
  read depth cs := (fields.read what depth cs).map fun (a, rest) => (make a, rest)

end SignalEngine.Json
