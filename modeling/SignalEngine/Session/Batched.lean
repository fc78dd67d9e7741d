import SignalEngine.Session.Collector
import SignalEngine.Session.Limits
import SignalEngine.Session.Wire

namespace SignalEngine

/-- A batched session between two messages. -/
structure BatchedRun (σ : Type) where
  strategy : σ
  records : Array SignalRecord
  collector : Option Collector
  preloaded : Nat
  updated : Nat

namespace BatchedRun

variable {σ : Type} [Strategic σ]

def start (strategy : σ) (debug : Bool) : BatchedRun σ :=
  ⟨strategy, #[], if debug then some .empty else none, 0, 0⟩

def preload (r : BatchedRun σ) (c : Candle) : BatchedRun σ :=
  { r with strategy := Strategic.preload r.strategy c, preloaded := r.preloaded + 1 }

/-- Takes in a candle of the present: its signal is queued, and its probes are collected. -/
def update (r : BatchedRun σ) (c : Candle) : BatchedRun σ :=
  let (strategy, signal) := Strategic.update r.strategy c
  { strategy := strategy
    records := match signal with
      | some s => r.records.push (.ofSignal c s)
      | none => r.records
    collector := r.collector.map fun d => d.record c (Strategic.probes strategy c)
    preloaded := r.preloaded
    updated := r.updated + 1 }

def apply (r : BatchedRun σ) : BatchInput → Except SessionError (BatchedRun σ)
  | .preload candles => .ok (candles.foldl preload r)
  | .update candles => .ok (candles.foldl update r)
  | .create _ => .error .repeatedCreate

/-- Takes in messages until the last, or until the session is cancelled. -/
def process (r : BatchedRun σ) : List (Inbound BatchInput) → Session BatchOutput (BatchedRun σ)
  | [] => pure r
  | item :: rest => do
      if ← Session.isCancelled then pure r
      else
        let m ← Session.receive item
        (← Session.ofExcept (r.apply m)).process rest

def finish (r : BatchedRun σ) (limits : ValidLimits) (name : String) :
    Session BatchOutput SessionSummary := do
  Session.sendAll ((chunks limits.signalChunk r.records.toList).map .signals)
  -- the state goes out even when the chunks around it are cut off
  let text ← Session.ofExcept ((Strategic.save r.strategy).mapError .checkpoint)
  Session.send (.state text)
  let series := match r.collector with
    | some d => d.series
    | none => []
  Session.sendAll ((chunks limits.debugChunk series).map .debug)
  return ⟨name, r.preloaded, r.updated, r.records.size, series.length, ← Session.isCancelled⟩

end BatchedRun

def batchedSession [Strategic σ] (provider : Provider σ) (limits : ValidLimits)
    (items : List (Inbound BatchInput)) : Session BatchOutput SessionSummary := do
  let (request, rest) ← Session.open? BatchInput.create? items
  let strategy ← Session.ofExcept (openStrategy provider request)
  Session.advance .processing
  let r ← (BatchedRun.start strategy request.debug).process rest
  Session.advance .finalizing
  let summary ← r.finish limits request.name
  Session.advance .closed
  return summary

end SignalEngine
