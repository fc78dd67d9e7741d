import SignalEngine.Json.Record
import SignalEngine.Json.Tagged

namespace SignalEngine

open Json (Codec Fields)

/-- What a strategy asks for. -/
inductive SignalKind where
  | openLong
  | openShort
  | closeLong
  | closeShort
  deriving DecidableEq, Repr

namespace SignalKind

def all : List SignalKind :=
  [openLong, openShort, closeLong, closeShort]

def label : SignalKind → String
  | openLong => "openLong"
  | openShort => "openShort"
  | closeLong => "closeLong"
  | closeShort => "closeShort"

/-- The kind reduces a long position or adds to a short one. -/
def isBearish : SignalKind → Bool
  | openShort | closeLong => true
  | openLong | closeShort => false

def codec : Codec SignalKind :=
  .enumeration all label

theorem mem_all (k : SignalKind) : k ∈ all := by
  cases k <;> decide

end SignalKind

/-- A kind and how sure the strategy is of it. -/
structure Signal where
  kind : SignalKind
  confidence : Float
  deriving Repr

namespace Signal

def sure (kind : SignalKind) : Signal :=
  ⟨kind, 1.0⟩

def fields :=
  Fields.required "kind" SignalKind.codec <| .required "confidence" .real .nil

def codec : Codec Signal :=
  .record "struct Signal" fields (fun (kind, confidence, ()) => ⟨kind, confidence⟩)
    (fun s => (s.kind, s.confidence, ()))

end Signal

end SignalEngine
