import SignalEngine.Indicator.Ema

namespace SignalEngine

open Json (Codec Fields)

structure Macd where
  fast : Ema
  slow : Ema
  signal : Ema
  ready : Bool
  value : Float
  deriving Repr

namespace Macd

def fresh (fast slow signal : Nat) : Macd :=
  ⟨Ema.fresh fast, Ema.fresh slow, Ema.fresh signal, false, 0.0⟩

def standard : Macd :=
  fresh 12 26 9

def signalLine (s : Macd) : Float :=
  s.signal.value

def update (s : Macd) (c : Candle) : Macd :=
  let fast := s.fast.update c
  let slow := s.slow.update c
  let line := fast.value - slow.value
  let signal := s.signal.update (Candle.ofClose line)
  ⟨fast, slow, signal, true, line - signal.value⟩

structure Saved where
  ready : Bool
  value : Float
  fast : String
  slow : String
  signal : String

def fields :=
  Fields.required "ready" .boolean <|
  .required "value" .real <|
  .required "fast" .text <|
  .required "slow" .text <|
  .required "signal" .text .nil

def savedCodec : Codec Saved :=
  .record "struct MacdRecord" fields
    (fun (ready, value, fast, slow, signal, ()) => ⟨ready, value, fast, slow, signal⟩)
    (fun s => (s.ready, s.value, s.fast, s.slow, s.signal, ()))

def saved (s : Macd) : Saved :=
  ⟨s.ready, s.value, checkpoint s.fast, checkpoint s.slow, checkpoint s.signal⟩

/-- The averages are loaded into those of the component. -/
instance : Persistent Macd where
  checkpoint s := savedCodec.encode s.saved
  load s text := do
    let r ← readRecord "MACD" savedCodec text
    let fast ← Persistent.load s.fast r.fast
    let slow ← Persistent.load s.slow r.slow
    let signal ← Persistent.load s.signal r.signal
    return ⟨fast, slow, signal, r.ready, r.value⟩

end Macd

end SignalEngine
