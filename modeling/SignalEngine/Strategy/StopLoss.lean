import SignalEngine.Checkpoint
import SignalEngine.Json.Record

namespace SignalEngine

open Json (Codec Fields)

structure StopLoss where
  percentage : Float
  reference : Float
  stopPrice : Float
  active : Bool
  deriving Repr

namespace StopLoss

def fresh (percentage : Float) : StopLoss :=
  ⟨percentage, 0.0, 0.0, false⟩

/-- Places the stop so many per cent below a price. -/
def place (s : StopLoss) (price : Float) : StopLoss :=
  { s with
    reference := price
    stopPrice := (100.0 - s.percentage) / 100.0 * price
    active := true }

def lift (s : StopLoss) : StopLoss :=
  { s with reference := 0.0, stopPrice := 0.0, active := false }

def isTriggered (s : StopLoss) (price : Float) : Bool :=
  s.active && price < s.stopPrice

def fields :=
  Fields.required "percentage" .real <|
  .required "reference_price" .real <|
  .required "stop_price" .real <|
  .required "active" .boolean .nil

def codec : Codec StopLoss :=
  .record "struct TrailingStopLoss" fields
    (fun (percentage, reference, stopPrice, active, ()) =>
      ⟨percentage, reference, stopPrice, active⟩)
    (fun s => (s.percentage, s.reference, s.stopPrice, s.active, ()))

instance : Persistent StopLoss where
  checkpoint := codec.encode
  load _ := readRecord "TrailingStopLoss" codec

end StopLoss

end SignalEngine
