import SignalEngine.Checkpoint

namespace SignalEngine

/-- A setting that a strategy cannot run with. -/
inductive ConfigFault where
  | zeroRangePeriod
  | stopOutOfRange
  | negativeFactor
  | zeroChannel
  | zeroFilterPeriod
  | zeroDivergencePeriod
  | zeroOscillatorLength
  deriving DecidableEq, Repr

def ConfigFault.message : ConfigFault → String
  | .zeroRangePeriod => "ATR period must be at least 1"
  | .stopOutOfRange => "Trailing stop must be between 0 and 100 percent"
  | .negativeFactor => "Band factor and confidence multiplier must not be negative"
  | .zeroChannel => "Channel lengths must be at least 1"
  | .zeroFilterPeriod => "Bull filter period must be at least 1"
  | .zeroDivergencePeriod => "Divergence period must be at least 1"
  | .zeroOscillatorLength => "Oscillator lengths must be at least 1"

/-- Why there is no strategy, or not in the wanted state. -/
inductive StrategyError where
  | invalidConfig (reason : String)
  | notFound (name : String)
  | checkpoint (error : CheckpointError)
  deriving Repr

def StrategyError.message : StrategyError → String
  | .invalidConfig reason => "Invalid configuration: " ++ reason
  | .notFound name => "Strategy " ++ name ++ " not found"
  | .checkpoint error => "Checkpoint error: " ++ error.message

def ConfigFault.error (fault : ConfigFault) : StrategyError :=
  .invalidConfig fault.message

def acceptConfig (kind : String) (validity : Except ConfigFault Unit) :
    Except CheckpointError Unit :=
  validity.mapError fun fault => .invalid kind fault.error.message

end SignalEngine
