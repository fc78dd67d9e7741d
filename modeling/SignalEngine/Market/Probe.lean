import SignalEngine.Json.Record

namespace SignalEngine

open Json (Codec Fields)

/-- A named number. Probes with the same index belong on the same chart. -/
structure Probe where
  name : String
  index : Int
  value : Float
  deriving Repr

namespace Probe

def flag (name : String) (index : Int) (value : Bool) : Probe :=
  ⟨name, index, if value then 1.0 else 0.0⟩

def fields :=
  Fields.required "name" .text <| .required "index" .small <| .required "value" .real .nil

def codec : Codec Probe :=
  .record "struct DebugProbe" fields (fun (name, index, value, ()) => ⟨name, index, value⟩)
    (fun p => (p.name, p.index, p.value, ()))

end Probe

end SignalEngine
