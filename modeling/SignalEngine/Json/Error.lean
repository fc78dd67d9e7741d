import SignalEngine.Number.Layout
import SignalEngine.Text.Quoted

namespace SignalEngine.Json

/-- What stands at the head of a value: a scalar with its content, or the opening of a list or an
object. Integers outside the signed and unsigned 64-bit ranges are read as real numbers. -/
inductive Lead where
  | null
  | boolean (value : Bool)
  | integer (value : Int)
  | real (value : Float)
  | text (value : String)
  | list
  | object
  deriving Repr

def Lead.describe : Lead → String
  | .null => "null"
  | .boolean b => "boolean `" ++ toString b ++ "`"
  | .integer n => "integer `" ++ String.ofList (Number.intText n) ++ "`"
  | .real x => "floating point `" ++ String.ofList (Number.wireText x) ++ "`"
  | .text s => "string " ++ Text.quoted s
  | .list => "sequence"
  | .object => "map"

/-- A fault of a text, or of a value that does not have the expected form. -/
inductive Error where
  | endOfValue
  | endOfList
  | endOfObject
  | endOfString
  | expectedValue
  | expectedWord
  | expectedColon
  | expectedListEnd
  | expectedObjectEnd
  | keyNotString
  | trailingComma
  | trailingCharacters
  | invalidNumber
  | numberTooLarge
  | invalidEscape
  | brokenSurrogate
  | loneSurrogate
  | controlCharacter
  | nestedTooDeep
  | missingField (name : String)
  | duplicateField (name : String)
  | unknownVariant (name : String) (known : List String)
  | wrongType (found : Lead) (expected : String)
  | bareVariant (expected : String)
  | wrongValue (found : Lead) (expected : String)
  | wrongLength (found : Nat) (expected : String)
  | emptyWindow
  deriving Repr

def tick (name : String) : String :=
  "`" ++ name ++ "`"

def oneOf : List String → String
  | [] => "there are no variants"
  | [a] => "expected " ++ tick a
  | [a, b] => "expected " ++ tick a ++ " or " ++ tick b
  | names => "expected one of " ++ ", ".intercalate (names.map tick)

/-- What is said about a fault. The line and the column that stand behind it are left out. -/
def Error.message : Error → String
  | .endOfValue => "EOF while parsing a value"
  | .endOfList => "EOF while parsing a list"
  | .endOfObject => "EOF while parsing an object"
  | .endOfString => "EOF while parsing a string"
  | .expectedValue => "expected value"
  | .expectedWord => "expected ident"
  | .expectedColon => "expected `:`"
  | .expectedListEnd => "expected `,` or `]`"
  | .expectedObjectEnd => "expected `,` or `\x7d`"
  | .keyNotString => "key must be a string"
  | .trailingComma => "trailing comma"
  | .trailingCharacters => "trailing characters"
  | .invalidNumber => "invalid number"
  | .numberTooLarge => "number out of range"
  | .invalidEscape => "invalid escape"
  | .brokenSurrogate => "unexpected end of hex escape"
  | .loneSurrogate => "lone leading surrogate in hex escape"
  | .controlCharacter => "control character (\\u0000-\\u001F) found while parsing a string"
  | .nestedTooDeep => "recursion limit exceeded"
  | .missingField name => "missing field " ++ tick name
  | .duplicateField name => "duplicate field " ++ tick name
  | .unknownVariant name known => "unknown variant " ++ tick name ++ ", " ++ oneOf known
  | .wrongType found expected => "invalid type: " ++ found.describe ++ ", expected " ++ expected
  | .bareVariant expected => "invalid type: unit variant, expected " ++ expected
  | .wrongValue found expected => "invalid value: " ++ found.describe ++ ", expected " ++ expected
  | .wrongLength found expected =>
      "invalid length " ++ String.ofList (Nat.toDigits 10 found) ++ ", expected " ++ expected
  | .emptyWindow => "ring window must have at least one slot"

end SignalEngine.Json
