import SignalEngine.Number.Layout

/-!
UTF-8. Characters are encoded one by one. Bytes are decoded from left to right by a machine whose
state says which continuation bytes must follow; the first byte that does not fit is reported with the
start of its sequence.
-/

namespace SignalEngine.Text

def toUtf8 (chars : List Char) : List UInt8 :=
  chars.flatMap String.utf8EncodeChar

/-- Why bytes are not a text. A sequence is broken off by a byte that does not fit, after `length`
bytes that did, or by the end of the bytes. -/
inductive Utf8Error where
  | invalid (start length : Nat)
  | incomplete (start : Nat)
  deriving DecidableEq, Repr

def Utf8Error.message : Utf8Error → String
  | .invalid start length =>
      "invalid utf-8 sequence of " ++ String.ofList (Nat.toDigits 10 length) ++
        " bytes from index " ++ String.ofList (Nat.toDigits 10 start)
  | .incomplete start =>
      "incomplete utf-8 byte sequence from index " ++ String.ofList (Nat.toDigits 10 start)

/-- A byte that begins a sequence: its value so far, how many bytes follow, and the range of the
first of them. Overlong forms, surrogates and values beyond the last code point are ruled out by that
range. -/
structure Opening where
  value : Nat
  missing : Nat
  low : Nat
  high : Nat
  deriving DecidableEq, Repr

def opening? (b : Nat) : Option Opening :=
  if b < 0x80 then some ⟨b, 0, 0x80, 0xBF⟩
  else if b < 0xC2 then none
  else if b < 0xE0 then some ⟨b - 0xC0, 1, 0x80, 0xBF⟩
  else if b < 0xF0 then
    some ⟨b - 0xE0, 2, if b = 0xE0 then 0xA0 else 0x80, if b = 0xED then 0x9F else 0xBF⟩
  else if b < 0xF5 then
    some ⟨b - 0xF0, 3, if b = 0xF0 then 0x90 else 0x80, if b = 0xF4 then 0x8F else 0xBF⟩
  else none

structure Partial where
  start : Nat
  length : Nat
  rest : Opening
  deriving Repr

/-- The decoder: the current sequence, if one is open, and the characters so far, newest first. -/
structure Decoder where
  position : Nat
  current : Option Partial
  chars : List Char
  deriving Repr

def Decoder.start : Decoder :=
  ⟨0, none, []⟩

def Decoder.step (d : Decoder) (byte : UInt8) : Except Utf8Error Decoder :=
  let b := byte.toNat
  match d.current with
  | none =>
      match opening? b with
      | none => .error (.invalid d.position 1)
      | some o =>
          if o.missing = 0 then
            .ok ⟨d.position + 1, none, Char.ofNat o.value :: d.chars⟩
          else .ok ⟨d.position + 1, some ⟨d.position, 1, o⟩, d.chars⟩
  | some p =>
      if p.rest.low ≤ b ∧ b ≤ p.rest.high then
        let value := p.rest.value * 64 + (b - 0x80)
        if p.rest.missing ≤ 1 then .ok ⟨d.position + 1, none, Char.ofNat value :: d.chars⟩
        else
          .ok ⟨d.position + 1,
            some ⟨p.start, p.length + 1, ⟨value, p.rest.missing - 1, 0x80, 0xBF⟩⟩, d.chars⟩
      else .error (.invalid p.start p.length)

def ofUtf8 (bytes : List UInt8) : Except Utf8Error (List Char) := do
  let d ← bytes.foldlM Decoder.step Decoder.start
  match d.current with
  | some p => .error (.incomplete p.start)
  | none => return d.chars.reverse

end SignalEngine.Text
