import SignalEngine.Json.Record

namespace SignalEngine

open Json (Codec Fields)

/-- The most signals and the most debug series of one message. -/
structure SessionLimits where
  signalChunk : Nat
  debugChunk : Nat
  deriving DecidableEq, Repr

namespace SessionLimits

def standard : SessionLimits :=
  ⟨200, 2⟩

def fields :=
  Fields.defaulted "signal_chunk_size" .count standard.signalChunk <|
  .defaulted "debug_chunk_size" .count standard.debugChunk .nil

def codec : Codec SessionLimits :=
  .record "struct SessionLimits" fields (fun (signals, debug, ()) => ⟨signals, debug⟩)
    (fun l => (l.signalChunk, l.debugChunk, ()))

def isValid (l : SessionLimits) : Bool :=
  0 < l.signalChunk && 0 < l.debugChunk

def invalidMessage : String :=
  "Session chunk sizes must be at least 1"

end SessionLimits

/-- Limits that a session can be run with: each message can hold something. -/
structure ValidLimits extends SessionLimits where
  valid : toSessionLimits.isValid = true
  deriving DecidableEq, Repr

def ValidLimits.standard : ValidLimits :=
  ⟨.standard, rfl⟩

/-- The limits with one in the place of zero. Limits that are not valid are refused along with the
settings that hold them, and no session is run with them. -/
def SessionLimits.atLeastOne (l : SessionLimits) : ValidLimits where
  signalChunk := max 1 l.signalChunk
  debugChunk := max 1 l.debugChunk
  valid := by
    simp only [isValid, Bool.and_eq_true, decide_eq_true_eq]
    omega

end SignalEngine
