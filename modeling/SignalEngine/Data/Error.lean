import SignalEngine.Json.Error

namespace SignalEngine

/-- Why a row of a table is not a candle. Fields are counted from zero. -/
inductive RowFault where
  | endOfRow
  | missingField (name : String)
  | duplicateField (name : String)
  | invalidNumber (field : Nat)
  | emptyNumber (field : Nat)
  deriving DecidableEq, Repr

def RowFault.message : RowFault → String
  | .endOfRow => "expected field, but got end of row"
  | .missingField name => "missing field " ++ Json.tick name
  | .duplicateField name => "duplicate field " ++ Json.tick name
  | .invalidNumber field =>
      "field " ++ String.ofList (Nat.toDigits 10 field) ++ ": invalid float literal"
  | .emptyNumber field =>
      "field " ++ String.ofList (Nat.toDigits 10 field) ++ ": cannot parse float from empty string"

/-- A fault with the number of its row, counted from one. The line and the byte at which the row begins
stand behind that number in the message of a file, and are left out here. -/
def RowFault.report (row : Nat) (fault : RowFault) : String :=
  let number := String.ofList (Nat.toDigits 10 row)
  "row " ++ number ++ ": CSV deserialize error: record " ++ number ++ ": " ++ fault.message

/-- Why there are no candles. -/
inductive DataError where
  | noData
  | invalidInterval (text : String)
  | badRow (row : Nat) (fault : RowFault)
  | badDate (text : String)
  deriving DecidableEq, Repr

def DataError.message : DataError → String
  | .noData => "No data available for the requested range"
  | .invalidInterval text => "Invalid interval: " ++ text
  | .badRow row fault => "Parse error: " ++ fault.report row
  | .badDate text => "Parse error: " ++ ("Could not parse date: " ++ text)

end SignalEngine
