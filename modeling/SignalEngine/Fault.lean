namespace SignalEngine

/-- A size of zero. -/
inductive Fault where
  | zeroCapacity
  | zeroPeriod
  deriving DecidableEq, Repr

def Fault.message : Fault → String
  | .zeroCapacity => "Capacity must be greater than 0"
  | .zeroPeriod => "Period must be greater than 0"

end SignalEngine
