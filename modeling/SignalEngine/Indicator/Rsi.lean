import SignalEngine.Indicator.Smma

namespace SignalEngine

open Json (Codec Fields)

structure Rsi where
  period : Nat
  lastPrice : Option Float
  up : Smma
  down : Smma
  ready : Bool
  value : Float
  deriving Repr

namespace Rsi

def fresh (period : Nat) : Rsi :=
  ⟨period, none, Smma.fresh period, Smma.fresh period, false, 0.0⟩

/-- The moves up and down from one price to the next; at least one of them is zero. -/
def moves (last price : Float) : Float × Float :=
  if last < price then (price - last, 0.0)
  else if price < last then (0.0, last - price)
  else (0.0, 0.0)

def strength (up down : Float) : Float :=
  if down == 0.0 then
    if up != 0.0 then 100.0 else 0.0
  else 100.0 - 100.0 / (1.0 + up / down)

def update (s : Rsi) (c : Candle) : Rsi :=
  match s.lastPrice with
  | none => { s with lastPrice := some c.close }
  | some last =>
      let (up, down) := moves last c.close
      let avgUp := s.up.update (Candle.ofClose up)
      let avgDown := s.down.update (Candle.ofClose down)
      { s with
        lastPrice := some c.close
        up := avgUp
        down := avgDown
        -- both averages have to be ready before the candle
        ready := s.ready || (s.up.ready && s.down.ready)
        value := strength avgUp.value avgDown.value }

structure Saved where
  period : Nat
  ready : Bool
  value : Float
  lastPrice : Option Float
  up : String
  down : String

def fields :=
  Fields.required "period" .count <|
  .required "ready" .boolean <|
  .required "value" .real <|
  .optional "last_price" .real <|
  .required "avg_up" .text <|
  .required "avg_down" .text .nil

def savedCodec : Codec Saved :=
  .record "struct RsiRecord" fields
    (fun (period, ready, value, lastPrice, up, down, ()) =>
      ⟨period, ready, value, lastPrice, up, down⟩)
    (fun s => (s.period, s.ready, s.value, s.lastPrice, s.up, s.down, ()))

def saved (s : Rsi) : Saved :=
  ⟨s.period, s.ready, s.value, s.lastPrice, checkpoint s.up, checkpoint s.down⟩

/-- The averages are loaded into those of the component. -/
instance : Persistent Rsi where
  checkpoint s := savedCodec.encode s.saved
  load s text := do
    let r ← readRecord "RSI" savedCodec text
    let up ← Persistent.load s.up r.up
    let down ← Persistent.load s.down r.down
    return ⟨r.period, r.lastPrice, up, down, r.ready, r.value⟩

end Rsi

end SignalEngine
