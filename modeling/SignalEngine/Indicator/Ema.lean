import SignalEngine.Checkpoint
import SignalEngine.Json.Record
import SignalEngine.Market.Candle

namespace SignalEngine

open Json (Codec Fields)

structure Ema where
  period : Nat
  ready : Bool
  value : Float
  deriving Repr

namespace Ema

def fresh (period : Nat) : Ema :=
  ⟨period, false, 0.0⟩

def weight (s : Ema) : Float :=
  2.0 / (Float.ofNat s.period + 1.0)

def update (s : Ema) (c : Candle) : Ema :=
  if s.ready then
    { s with value := c.close * s.weight + s.value * (1.0 - s.weight) }
  else
    { s with ready := true, value := c.close }

def fields :=
  Fields.required "period" .count <|
  .required "ready" .boolean <|
  .required "value" .real .nil

def codec : Codec Ema :=
  .record "struct Ema" fields
    (fun (period, ready, value, ()) => ⟨period, ready, value⟩)
    (fun s => (s.period, s.ready, s.value, ()))

instance : Persistent Ema where
  checkpoint := codec.encode
  load _ := readRecord "EMA" codec

end Ema

end SignalEngine
