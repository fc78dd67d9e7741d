import SignalEngine.Indicator.Atr
import SignalEngine.Indicator.Cci
import SignalEngine.Indicator.Macd
import SignalEngine.Indicator.Rsi

namespace SignalEngine

/-- An indicator of any kind. -/
inductive Indicator where
  | sma (state : Sma)
  | ema (state : Ema)
  | smma (state : Smma)
  | rsi (state : Rsi)
  | cci (state : Cci)
  | atr (state : Atr)
  | macd (state : Macd)
  deriving Repr

namespace Indicator

def name : Indicator → String
  | sma _ => "SMA"
  | ema _ => "EMA"
  | smma _ => "SMMA"
  | rsi _ => "RSI"
  | cci _ => "CCI"
  | atr _ => "ATR"
  | macd _ => "MACD"

def period? : Indicator → Option Nat
  | sma s => some s.period
  | ema s => some s.period
  | smma s => some s.period
  | rsi s => some s.period
  | cci s => some s.period
  | atr s => some s.period
  | macd _ => none

/-- Enough candles have been seen for the value to mean something. -/
def ready : Indicator → Bool
  | sma s => s.ready
  | ema s => s.ready
  | smma s => s.ready
  | rsi s => s.ready
  | cci s => s.ready
  | atr s => s.ready
  | macd s => s.ready

def value : Indicator → Float
  | sma s => s.value
  | ema s => s.value
  | smma s => s.value
  | rsi s => s.value
  | cci s => s.value
  | atr s => s.value
  | macd s => s.value

def signalLine? : Indicator → Option Float
  | macd s => some s.signalLine
  | _ => none

def update (i : Indicator) (c : Candle) : Indicator :=
  match i with
  | sma s => sma (s.update c)
  | ema s => ema (s.update c)
  | smma s => smma (s.update c)
  | rsi s => rsi (s.update c)
  | cci s => cci (s.update c)
  | atr s => atr (s.update c)
  | macd s => macd (s.update c)

/-- A component with a period, which must not be zero. -/
def ofPeriod (fresh : Nat → Indicator) (period : Nat) : Except Fault Indicator :=
  if period = 0 then .error .zeroPeriod else .ok (fresh period)

def macdOf (fast slow signal : Nat) : Except Fault Indicator :=
  if fast = 0 ∨ slow = 0 ∨ signal = 0 then .error .zeroPeriod
  else .ok (macd (Macd.fresh fast slow signal))

instance : Persistent Indicator where
  checkpoint
    | sma s => checkpoint s
    | ema s => checkpoint s
    | smma s => checkpoint s
    | rsi s => checkpoint s
    | cci s => checkpoint s
    | atr s => checkpoint s
    | macd s => checkpoint s
  load i text :=
    match i with
    | sma s => (Persistent.load s text).map sma
    | ema s => (Persistent.load s text).map ema
    | smma s => (Persistent.load s text).map smma
    | rsi s => (Persistent.load s text).map rsi
    | cci s => (Persistent.load s text).map cci
    | atr s => (Persistent.load s text).map atr
    | macd s => (Persistent.load s text).map macd

end Indicator

end SignalEngine
