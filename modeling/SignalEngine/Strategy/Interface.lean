import SignalEngine.Market.Candle
import SignalEngine.Market.Probe
import SignalEngine.Market.Signal
import SignalEngine.Strategy.Error

/-!
What a session asks of a strategy. The strategies that are built in are one instance of it; another may
fail to save its state.
-/

namespace SignalEngine

/-- The states of a strategy. It takes candles of the past in silence and may answer a candle of the
present with a signal. -/
class Strategic (σ : Type) where
  preload : σ → Candle → σ
  update : σ → Candle → σ × Option Signal
  /-- What is shown about the latest candle. -/
  probes : σ → Candle → List Probe
  save : σ → Except CheckpointError String
  restore : σ → String → Restored σ

/-- A strategy that can save each of its states. -/
class Durable (σ : Type) extends Strategic σ, Persistent σ where
  save_eq (s : σ) : save s = .ok (checkpoint s)
  restore_eq (s : σ) (text : String) : restore s text = SignalEngine.restore s text

/-- What makes a strategy of a name and a text of settings. -/
structure Provider (σ : Type) where
  create : String → String → Except StrategyError σ

end SignalEngine
