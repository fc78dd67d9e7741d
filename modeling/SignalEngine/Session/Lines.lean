import SignalEngine.Session.Wire
import SignalEngine.Text.Utf8

namespace SignalEngine

open Json (Codec)

namespace Lines

def addByte (b : UInt8) (lines : List (List UInt8)) : List (List UInt8) :=
  if b = 10 then [b] :: lines
  else
    match lines with
    | [] => [[b]]
    | line :: rest => (b :: line) :: rest

/-- The lines of a text with their line ends. The last line may have none. -/
def split (bytes : List UInt8) : List (List UInt8) :=
  bytes.foldr addByte []

/-- A line without its line end, which may include a carriage return. -/
def content (line : List Char) : List Char :=
  match line.reverse with
  | '\n' :: '\r' :: rest => rest.reverse
  | '\n' :: rest => rest.reverse
  | _ => line

/-- What a line brings in; a blank line brings nothing. -/
def item? (codec : Codec ι) (line : List UInt8) : Option (Inbound ι) :=
  match Text.ofUtf8 line with
  | .error e => some (.broken e.message)
  | .ok chars =>
      let text := content chars
      if text.all Text.isBlankChar then none
      else
        match codec.decode (String.ofList text) with
        | .ok m => some (.message m)
        | .error fault => some (.undecodable fault)

def items (codec : Codec ι) (bytes : List UInt8) : List (Inbound ι) :=
  (split bytes).filterMap (item? codec)

def texts (codec : Codec ο) (messages : List ο) : List String :=
  messages.map codec.encode

def written (lines : List String) : List UInt8 :=
  lines.flatMap fun line => Text.toUtf8 line.toList ++ [10]

end Lines

structure LinesOutcome where
  lines : List String
  result : Except SessionError SessionSummary

def SessionOutcome.toLines (codec : Codec ο) (o : SessionOutcome ο) : LinesOutcome :=
  ⟨Lines.texts codec o.sent, o.result⟩

end SignalEngine
