import SignalEngine.Session.Batched
import SignalEngine.Session.Lines
import SignalEngine.Session.Streaming
import SignalEngine.Strategy.Registry
import SignalEngine.Text.LowerCase

namespace SignalEngine

open Json (Codec)

inductive Protocol where
  | batched
  | streaming
  deriving DecidableEq, Repr

namespace Protocol

def all : List Protocol :=
  [batched, streaming]

def label : Protocol → String
  | batched => "batched"
  | streaming => "streaming"

def parse? (text : String) : Option Protocol :=
  all.find? fun p => p.label == Text.lowerAscii text

def unknownMessage (text : String) : String :=
  "Unknown protocol: " ++ Text.lowerAscii text

def codec : Codec Protocol :=
  .enumeration all label

end Protocol

def runLines (registry : Registry) (limits : SessionLimits) (protocol : Protocol)
    (cancellation : Cancellation) (room : Option Nat) (bytes : List UInt8) : LinesOutcome :=
  match protocol with
  | .batched =>
      ((batchedSession registry.provider limits.atLeastOne (Lines.items BatchInput.codec bytes)).run
        cancellation room).toLines BatchOutput.codec
  | .streaming =>
      ((streamingSession registry.provider (Lines.items StreamInput.codec bytes)).run
        cancellation room).toLines StreamOutput.codec

end SignalEngine
