import SignalEngine.Checkpoint
import SignalEngine.Json.Record
import SignalEngine.Market.Candle
import SignalEngine.Window

namespace SignalEngine

open Json (Codec Fields)

structure Sma where
  period : Nat
  age : Nat
  sum : Float
  closes : Window
  ready : Bool
  value : Float
  deriving Repr

namespace Sma

def fresh (period : Nat) : Sma :=
  ⟨period, 0, 0.0, Window.blank period, false, 0.0⟩

/-- The state after a candle. It is ready with the last of the first `period` candles. -/
def update (s : Sma) (c : Candle) : Sma :=
  let (evicted, closes) := s.closes.replace s.age c.close
  let sum := s.sum + (c.close - evicted)
  { s with
    age := s.age + 1
    sum := sum
    closes := closes
    ready := s.ready || s.period ≤ s.age + 1
    value := sum / Float.ofNat s.period }

def fields :=
  Fields.required "period" .count <|
  .required "age" .count <|
  .required "sum" .real <|
  .required "closes" Window.codec <|
  .required "ready" .boolean <|
  .required "value" .real .nil

def codec : Codec Sma :=
  .record "struct Sma" fields
    (fun (period, age, sum, closes, ready, value, ()) => ⟨period, age, sum, closes, ready, value⟩)
    (fun s => (s.period, s.age, s.sum, s.closes, s.ready, s.value, ()))

/-- A malformed text is passed over, and the state stays as it was. -/
instance : Persistent Sma where
  checkpoint := codec.encode
  load s text :=
    match readRecord "SMA" codec text with
    | .ok new => .ok new
    | .error _ => .ok s

end Sma

end SignalEngine
