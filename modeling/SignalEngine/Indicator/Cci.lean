import SignalEngine.Checkpoint
import SignalEngine.Json.Record
import SignalEngine.Market.Candle
import SignalEngine.Window

namespace SignalEngine

open Json (Codec Fields)

structure Cci where
  period : Nat
  constant : Float
  age : Nat
  typicals : Window
  ready : Bool
  value : Float
  deriving Repr

namespace Cci

def standardConstant : Float := 0.015

/-- An index of a given scale that has seen nothing. -/
def withConstant (period : Nat) (constant : Float) : Cci :=
  ⟨period, constant, 0, Window.blank period, false, 0.0⟩

def fresh (period : Nat) : Cci :=
  withConstant period standardConstant

def deviation (xs : List Float) (centre count : Float) : Float :=
  Number.sum (xs.map fun x => (x - centre).abs) / count

/-- The state after a candle. Until the window is full only the typical price is kept. -/
def update (s : Cci) (c : Candle) : Cci :=
  let typicals := s.typicals.set s.age c.typical
  if s.age + 1 < s.period then
    { s with age := s.age + 1, typicals := typicals }
  else
    let mean := typicals.mean
    let spread := deviation typicals.toList mean (Float.ofNat s.period)
    { s with
      age := s.age + 1
      typicals := typicals
      ready := true
      value := (c.typical - mean) / (s.constant * spread) }

def fields :=
  Fields.required "period" .count <|
  .required "constant" .real <|
  .required "age" .count <|
  .required "typicals" Window.codec <|
  .required "ready" .boolean <|
  .required "value" .lossless .nil

def codec : Codec Cci :=
  .record "struct Cci" fields
    (fun (period, constant, age, typicals, ready, value, ()) =>
      ⟨period, constant, age, typicals, ready, value⟩)
    (fun s => (s.period, s.constant, s.age, s.typicals, s.ready, s.value, ()))

instance : Persistent Cci where
  checkpoint := codec.encode
  load _ := readRecord "CCI" codec

end Cci

end SignalEngine
