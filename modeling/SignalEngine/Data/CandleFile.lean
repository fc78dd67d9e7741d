import SignalEngine.Data.Error
import SignalEngine.Data.Table
import SignalEngine.Data.Timestamp
import SignalEngine.Market.Candle

namespace SignalEngine.CandleFile

inductive Column where
  | date
  | opening
  | high
  | low
  | close
  | volume
  deriving DecidableEq, Repr

def Column.name : Column → String
  | date => "date"
  | opening => "open"
  | high => "high"
  | low => "low"
  | close => "close"
  | volume => "volume"

def Column.ofHeading? : String → Option Column
  | "Date" | "date" | "timestamp" | "Timestamp" | "time" | "open_time" => some date
  | "Open" | "open" => some opening
  | "High" | "high" => some high
  | "Low" | "low" => some low
  | "Close" | "close" | "Adj Close" => some close
  | "Volume" | "volume" => some volume
  | _ => none

structure Draft where
  date : Option (List Char)
  opening : Option Float
  high : Option Float
  low : Option Float
  close : Option Float
  volume : Option Float

def Draft.blank : Draft :=
  ⟨none, none, none, none, none, none⟩

def Draft.has (d : Draft) : Column → Bool
  | .date => d.date.isSome
  | .opening => d.opening.isSome
  | .high => d.high.isSome
  | .low => d.low.isSome
  | .close => d.close.isSome
  | .volume => d.volume.isSome

def number (position : Nat) (field : List Char) : Except RowFault Float :=
  match Number.readFloat? field with
  | some x => .ok x
  | none => .error (if field.isEmpty then .emptyNumber position else .invalidNumber position)

def Draft.put (d : Draft) (column : Column) (position : Nat) (field : List Char) :
    Except RowFault Draft :=
  match column with
  | .date => .ok { d with date := some field }
  | .opening => (number position field).map fun x => { d with opening := some x }
  | .high => (number position field).map fun x => { d with high := some x }
  | .low => (number position field).map fun x => { d with low := some x }
  | .close => (number position field).map fun x => { d with close := some x }
  | .volume => (number position field).map fun x => { d with volume := some x }

structure Row where
  date : List Char
  opening : Float
  high : Float
  low : Float
  close : Float
  volume : Float

def need (column : Column) : Option α → Except RowFault α
  | some a => .ok a
  | none => .error (.missingField column.name)

/-- The row of a draft. Only the volume may be missing. -/
def Draft.complete (d : Draft) : Except RowFault Row := do
  let date ← need .date d.date
  let opening ← need .opening d.opening
  let high ← need .high d.high
  let low ← need .low d.low
  let close ← need .close d.close
  return ⟨date, opening, high, low, close, d.volume.getD 0.0⟩

/-- Reads the fields of a row by the headings. Every heading needs a field; fields beyond the last
heading are passed over. -/
def readFields : List String → List (List Char) → Nat → Draft → Except RowFault Row
  | [], _, _, d => d.complete
  | heading :: headings, fields, position, d => do
      let column := Column.ofHeading? heading
      if let some c := column then
        if d.has c then throw (.duplicateField c.name)
      match fields with
      | [] => throw .endOfRow
      | field :: fields =>
          let d ← match column with
            | some c => d.put c position field
            | none => pure d
          readFields headings fields (position + 1) d

/-- The candle of a row, at its place among the rows. -/
def readRow (headings : List String) (position : Nat) (fields : List (List Char)) :
    Except DataError Candle := do
  let row ← (readFields headings fields 0 .blank).mapError (.badRow position)
  match Timestamp.parse? row.date with
  | some time => return .ofPrices time row.opening row.high row.low row.close row.volume
  | none => throw (.badDate (String.ofList row.date))

/-- The candles of rows, in the order of the rows, up to the first that is none. -/
def readRows (headings : List String) : Nat → List (List (List Char)) →
    Except DataError (List Candle)
  | _, [] => .ok []
  | position, fields :: rest => do
      let candle ← readRow headings position fields
      return candle :: (← readRows headings (position + 1) rest)

/-- The candles in the order of their times; candles of one time keep their order. -/
def sortByTime (candles : List Candle) : List Candle :=
  candles.mergeSort fun a b => a.timestamp ≤ b.timestamp

/-- The candles of a table. There must be at least one. -/
def load (text : String) (market symbol : Nat) (interval : Interval) :
    Except DataError (List Candle) := do
  let candles ← match Table.rows text with
    | [] => pure []
    | headings :: rows => readRows (headings.map String.ofList) 1 rows
  if candles.isEmpty then throw .noData
  return sortByTime (candles.map (Candle.withSource market symbol interval))

def loadFile (text : Option String) (market symbol : Nat) (interval : Interval) :
    Except DataError (List Candle) :=
  match text with
  | some text => load text market symbol interval
  | none => .error .noData

end SignalEngine.CandleFile
