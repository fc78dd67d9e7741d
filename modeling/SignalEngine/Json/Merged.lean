import SignalEngine.Json.Record

/-!
Objects that hold the fields of several records side by side. The members are read in one pass. Those
that are not the object's own are kept until its end, and then each record takes the members with its
names. Such an object has no list form.
-/

namespace SignalEngine.Json

/-- A member that is still to be read: its name, and the text from its value on. -/
structure Kept where
  name : String
  text : List Char

namespace Fields

/-- Takes the members that are fields of the record into its draft. -/
def takeKept (depth : Nat) (fields : Fields α δ) : List Kept → δ → Except Error δ
  | [], draft => .ok draft
  | k :: ks, draft => do
      match ← fields.member depth k.name draft with
      | none => fields.takeKept depth ks draft
      | some read =>
          let (draft, _) ← read k.text
          fields.takeKept depth ks draft

def ofKept (depth : Nat) (fields : Fields α δ) (kept : List Kept) : Except Error α := do
  fields.complete (← fields.takeKept depth kept fields.blank)

/-- Reads a member that is one of the fields, or keeps it after checking its text. The kept members are
newest first. -/
def memberOrKeep (depth : Nat) (fields : Fields α δ) (name : String) (known : δ × List Kept) :
    Except Error (Reader (δ × List Kept)) := do
  match ← fields.member depth name known.1 with
  | some read => return fun cs => (read cs).map fun (draft, rest) => ((draft, known.2), rest)
  | none => return fun cs => (Value.read depth cs).map fun (_, rest) =>
      ((known.1, ⟨name, cs⟩ :: known.2), rest)

end Fields

/-- The codec of an object with the fields of two records and some of its own. -/
def Codec.merged (what : String) (first : Fields α δ) (second : Fields β ε) (own : Fields γ ζ) :
    Codec (α × β × γ) where
  write := fun (a, b, c) =>
    objectText (first.memberTexts a ++ second.memberTexts b ++ own.memberTexts c)
  read depth cs :=
    match skipSpaces cs with
    | '\x7b' :: rest =>
        match depth with
        | 0 => .error .nestedTooDeep
        | depth + 1 => do
            let ((draft, kept), rest) ← members (own.memberOrKeep depth) (own.blank, []) rest
            let a ← first.ofKept depth kept.reverse
            let b ← second.ofKept depth kept.reverse
            let c ← own.complete draft
            return ((a, b, c), rest)
    | cs => misfit what cs

end SignalEngine.Json
