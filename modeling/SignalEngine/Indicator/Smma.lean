import SignalEngine.Indicator.Sma

namespace SignalEngine

open Json (Codec Fields)

structure Smma where
  period : Nat
  age : Nat
  sma : Sma
  ready : Bool
  value : Float
  deriving Repr

namespace Smma

def fresh (period : Nat) : Smma :=
  ⟨period, 0, Sma.fresh period, false, 0.0⟩

def update (s : Smma) (c : Candle) : Smma :=
  let age := s.age + 1
  if age ≤ s.period then
    let sma := s.sma.update c
    { s with age := age, sma := sma, value := sma.value }
  else
    -- the simple average sees no more candles
    { s with
      age := age
      ready := true
      value := (s.value * Float.ofNat (s.period - 1) + c.close) / Float.ofNat s.period }

/-- A saved state. The simple average is kept as its own checkpoint. -/
structure Saved where
  period : Nat
  age : Nat
  ready : Bool
  value : Float
  sma : String

def fields :=
  Fields.required "period" .count <|
  .required "age" .count <|
  .required "ready" .boolean <|
  .required "value" .real <|
  .required "sma" .text .nil

def savedCodec : Codec Saved :=
  .record "struct SmmaRecord" fields
    (fun (period, age, ready, value, sma, ()) => ⟨period, age, ready, value, sma⟩)
    (fun s => (s.period, s.age, s.ready, s.value, s.sma, ()))

def saved (s : Smma) : Saved :=
  ⟨s.period, s.age, s.ready, s.value, checkpoint s.sma⟩

/-- The simple average is loaded into a fresh one of the saved period. -/
instance : Persistent Smma where
  checkpoint s := savedCodec.encode s.saved
  load _ text := do
    let r ← readRecord "SMMA" savedCodec text
    if r.period = 0 then
      .error (.invalid "SMMA" "period must be greater than 0")
    else
      let sma ← Persistent.load (Sma.fresh r.period) r.sma
      return ⟨r.period, r.age, sma, r.ready, r.value⟩

end Smma

end SignalEngine
