import SignalEngine.Session.Wire

namespace SignalEngine

structure StreamingRun (σ : Type) where
  strategy : σ
  preloaded : Nat
  updated : Nat
  signals : Nat

namespace StreamingRun

variable {σ : Type} [Strategic σ]

def start (strategy : σ) : StreamingRun σ :=
  ⟨strategy, 0, 0, 0⟩

def apply (r : StreamingRun σ) : StreamInput → Session StreamOutput (StreamingRun σ)
  | .preload c =>
      return { r with strategy := Strategic.preload r.strategy c, preloaded := r.preloaded + 1 }
  | .update c => do
      let (strategy, signal) := Strategic.update r.strategy c
      Session.send (.tick signal)
      return ⟨strategy, r.preloaded, r.updated + 1, r.signals + signal.toList.length⟩
  | .create _ => throw .repeatedCreate

def process (r : StreamingRun σ) :
    List (Inbound StreamInput) → Session StreamOutput (StreamingRun σ)
  | [] => pure r
  | item :: rest => do
      if ← Session.isCancelled then pure r
      else
        let m ← Session.receive item
        (← r.apply m).process rest

end StreamingRun

def streamingSession [Strategic σ] (provider : Provider σ) (items : List (Inbound StreamInput)) :
    Session StreamOutput SessionSummary := do
  let (request, rest) ← Session.open? StreamInput.create? items
  let strategy ← Session.ofExcept (openStrategy provider request)
  Session.advance .processing
  let r ← (StreamingRun.start strategy).process rest
  Session.advance .finalizing
  let text ← Session.ofExcept ((Strategic.save r.strategy).mapError .checkpoint)
  Session.send (.state text)
  Session.advance .closed
  return ⟨request.name, r.preloaded, r.updated, r.signals, 0, ← Session.isCancelled⟩

end SignalEngine
