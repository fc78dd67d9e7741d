import SignalEngine.Indicator.Sma
import SignalEngine.Market.Signal
import SignalEngine.Strategy.Error

namespace SignalEngine.Turtle

open Json (Codec Fields)

/-- The lengths of the four channels and the period of the filter. -/
structure Config where
  enterFast : Nat
  exitFast : Nat
  enterSlow : Nat
  exitSlow : Nat
  filterPeriod : Nat
  deriving DecidableEq, Repr

namespace Config

def standard : Config :=
  ⟨20, 10, 55, 20, 50⟩

def fields :=
  Fields.defaulted "enterFast" .count standard.enterFast <|
  .defaulted "exitFast" .count standard.exitFast <|
  .defaulted "enterSlow" .count standard.enterSlow <|
  .defaulted "exitSlow" .count standard.exitSlow <|
  .defaulted "bullPeriod" .count standard.filterPeriod .nil

def ofParts : Nat × Nat × Nat × Nat × Nat × Unit → Config :=
  fun (enterFast, exitFast, enterSlow, exitSlow, filterPeriod, ()) =>
    ⟨enterFast, exitFast, enterSlow, exitSlow, filterPeriod⟩

def parts (c : Config) : Nat × Nat × Nat × Nat × Nat × Unit :=
  (c.enterFast, c.exitFast, c.enterSlow, c.exitSlow, c.filterPeriod, ())

def codec : Codec Config :=
  .record "struct TurtleConfig" fields ofParts parts

def longestChannel (c : Config) : Nat :=
  max (max (max c.enterFast c.exitFast) c.enterSlow) c.exitSlow

def validate (c : Config) : Except ConfigFault Unit :=
  if c.enterFast = 0 ∨ c.exitFast = 0 ∨ c.enterSlow = 0 ∨ c.exitSlow = 0 then .error .zeroChannel
  else if c.filterPeriod = 0 then .error .zeroFilterPeriod
  else .ok ()

end Config

inductive Breakout where
  | enterFast
  | exitFast
  | enterSlow
  | exitSlow
  deriving DecidableEq, Repr

def Breakout.isEntry : Breakout → Bool
  | enterFast | enterSlow => true
  | exitFast | exitSlow => false

/-- The state of the strategy. -/
structure State where
  config : Config
  closes : Window
  age : Nat
  filter : Sma
  deriving Repr

def name : String := "Turtle"

def description : String := "Donchian channel breakouts with a bull-market SMA filter"

/-- The latest `count` closes, newest first, when the newest has the given age. -/
def recent (closes : Window) (age : Int) (count : Nat) : List Float :=
  (List.range count).map fun (i : Nat) => closes.get (age - i)

def breakout? (config : Config) (closes : Window) (age : Nat) (close : Float) : Option Breakout :=
  -- a channel counts once there are more closes than it is long
  let high := fun count => count ≤ age && close == Number.maximum (recent closes age count)
  let low := fun count => count ≤ age && close == Number.minimum (recent closes age count)
  -- of several breakouts the last in the order of the settings is taken
  if low config.exitSlow then some .exitSlow
  else if high config.enterSlow then some .enterSlow
  else if low config.exitFast then some .exitFast
  else if high config.enterFast then some .enterFast
  else none

namespace State

def fresh (config : Config) : State :=
  ⟨config, Window.blank config.longestChannel, 0, Sma.fresh config.filterPeriod⟩

def advance (s : State) (c : Candle) : State × Option Breakout :=
  let closes := s.closes.set s.age c.close
  ({ s with closes := closes, age := s.age + 1, filter := s.filter.update c },
    breakout? s.config closes s.age c.close)

def preload (s : State) (c : Candle) : State :=
  (s.advance c).1

/-- The signal of a breakout. Below the filter every breakout closes the position. -/
def signal? (s : State) (close : Float) (b : Breakout) : Option Signal :=
  if !s.filter.ready then none
  else if close < s.filter.value then some (.sure .closeLong)
  else if b.isEntry then some (.sure .openLong)
  else some (.sure .closeLong)

def update (s : State) (c : Candle) : State × Option Signal :=
  let (s, breakout) := s.advance c
  (s, breakout.bind (s.signal? c.close))

end State

structure Saved where
  config : Config
  closes : Window
  age : Nat
  filter : String

def fields :=
  Fields.required "config" Config.codec <|
  .required "closes" Window.codec <|
  .required "age" .count <|
  .required "bull_filter" .text .nil

def savedCodec : Codec Saved :=
  .record "struct TurtleRecord" fields
    (fun (config, closes, age, filter, ()) => ⟨config, closes, age, filter⟩)
    (fun s => (s.config, s.closes, s.age, s.filter, ()))

def State.saved (s : State) : Saved :=
  ⟨s.config, s.closes, s.age, checkpoint s.filter⟩

instance : Persistent State where
  checkpoint s := savedCodec.encode s.saved
  load _ text := do
    let r ← readRecord name savedCodec text
    acceptConfig name r.config.validate
    if r.closes.capacity ≠ r.config.longestChannel then
      .error (.invalid name "close history does not match the longest channel")
    else
      let filter ← Persistent.load (State.fresh r.config).filter r.filter
      return ⟨r.config, r.closes, r.age, filter⟩

end SignalEngine.Turtle
