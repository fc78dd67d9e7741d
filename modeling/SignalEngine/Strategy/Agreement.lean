import SignalEngine.Json.Merged
import SignalEngine.Strategy.SuperTrend
import SignalEngine.Strategy.Turtle

namespace SignalEngine.Agreement

open Json (Codec Fields)

/-- The settings of both strategies, in one object. With `rememberSignal`, every candle replaces the
latest signals, also by none; without it a signal stays until the next one. -/
structure Config where
  superTrend : SuperTrend.Config
  turtle : Turtle.Config
  rememberSignal : Bool
  deriving Repr

namespace Config

def standard : Config :=
  ⟨.standard, .standard, false⟩

def ownFields :=
  Fields.defaulted "rememberSignal" .boolean standard.rememberSignal .nil

def codec : Codec Config :=
  (Codec.merged "struct SuperTrendTurtleConfig" SuperTrend.Config.fields Turtle.Config.fields
      ownFields).map
    (fun (superTrend, turtle, rememberSignal, ()) =>
      ⟨.ofParts superTrend, .ofParts turtle, rememberSignal⟩)
    (fun c => (c.superTrend.parts, c.turtle.parts, c.rememberSignal, ()))

def validate (c : Config) : Except ConfigFault Unit := do
  c.superTrend.validate
  c.turtle.validate

end Config

/-- The state of the strategy: those of its parts, and the latest signal of each. -/
structure State where
  config : Config
  superTrend : SuperTrend.State
  turtle : Turtle.State
  superTrendSignal : Option Signal
  turtleSignal : Option Signal
  deriving Repr

def name : String := "SuperTrendTurtle"

def description : String := "Trades when SuperTrend and Turtle agree"

/-- The latest signal after an update that gave a signal or none. -/
def latch (replace : Bool) (new old : Option Signal) : Option Signal :=
  if replace then new else new <|> old

/-- Both signals open long positions, or both are bearish. -/
def agree (a b : Signal) : Bool :=
  (a.kind == .openLong && b.kind == .openLong) || (a.kind.isBearish && b.kind.isBearish)

namespace State

def fresh (config : Config) : State :=
  ⟨config, .fresh config.superTrend, .fresh config.turtle, none, none⟩

def preload (s : State) (c : Candle) : State :=
  { s with superTrend := s.superTrend.preload c, turtle := s.turtle.preload c }

def agreed? (s : State) : Option Signal :=
  match s.superTrendSignal, s.turtleSignal with
  | some a, some b => if agree a b then some a else none
  | _, _ => none

def update (s : State) (c : Candle) : State × Option Signal :=
  let (superTrend, superTrendSignal) := s.superTrend.update c
  let (turtle, turtleSignal) := s.turtle.update c
  let s := { s with
    superTrend := superTrend
    turtle := turtle
    superTrendSignal := latch s.config.rememberSignal superTrendSignal s.superTrendSignal
    turtleSignal := latch s.config.rememberSignal turtleSignal s.turtleSignal }
  (s, s.agreed?)

def probes (s : State) : List Probe :=
  s.superTrend.probes

end State

structure Saved where
  config : Config
  superTrend : String
  turtle : String
  superTrendSignal : Option Signal
  turtleSignal : Option Signal

def fields :=
  Fields.required "config" Config.codec <|
  .required "super_trend" .text <|
  .required "turtle" .text <|
  .optional "super_trend_signal" Signal.codec <|
  .optional "turtle_signal" Signal.codec .nil

def savedCodec : Codec Saved :=
  .record "struct SuperTrendTurtleRecord" fields
    (fun (config, superTrend, turtle, superTrendSignal, turtleSignal, ()) =>
      ⟨config, superTrend, turtle, superTrendSignal, turtleSignal⟩)
    (fun s => (s.config, s.superTrend, s.turtle, s.superTrendSignal, s.turtleSignal, ()))

def State.saved (s : State) : Saved :=
  ⟨s.config, checkpoint s.superTrend, checkpoint s.turtle, s.superTrendSignal, s.turtleSignal⟩

/-- The parts are loaded into those of a fresh strategy with the saved settings. -/
instance : Persistent State where
  checkpoint s := savedCodec.encode s.saved
  load _ text := do
    let r ← readRecord name savedCodec text
    acceptConfig name r.config.validate
    let fresh := State.fresh r.config
    let superTrend ← Persistent.load fresh.superTrend r.superTrend
    let turtle ← Persistent.load fresh.turtle r.turtle
    return ⟨r.config, superTrend, turtle, r.superTrendSignal, r.turtleSignal⟩

end SignalEngine.Agreement
