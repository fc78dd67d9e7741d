import SignalEngine.Json.Tagged
import SignalEngine.Market.Candle
import SignalEngine.Market.Signal
import SignalEngine.Text.Blank

namespace SignalEngine

open Json (Codec Fields Variant)

structure CreateRequest where
  name : String
  config : String
  state : Option String
  debug : Bool
  deriving DecidableEq, Repr

namespace CreateRequest

def fields :=
  Fields.required "name" .text <|
  .defaulted "config" .text "" <|
  .defaulted "state" (Codec.option .text) none <|
  .defaulted "debug" .boolean false .nil

def codec : Codec CreateRequest :=
  .record "struct CreateRequest" fields
    (fun (name, config, state, debug, ()) => ⟨name, config, state, debug⟩)
    (fun r => (r.name, r.config, r.state, r.debug, ()))

/-- The checkpoint to go on from. A blank one counts as none. -/
def resumeState? (r : CreateRequest) : Option String :=
  r.state.filter fun s => !Text.isBlank s

end CreateRequest

/-- A signal with the candle that gave it. -/
structure SignalRecord where
  candle : Candle
  kind : SignalKind
  confidence : Float
  deriving Repr

namespace SignalRecord

def ofSignal (candle : Candle) (signal : Signal) : SignalRecord :=
  ⟨candle, signal.kind, signal.confidence⟩

def fields :=
  Fields.required "candle" Candle.codec <|
  .required "kind" SignalKind.codec <|
  .required "confidence" .real .nil

def codec : Codec SignalRecord :=
  .record "struct SignalRecord" fields (fun (candle, kind, confidence, ()) =>
      ⟨candle, kind, confidence⟩)
    (fun r => (r.candle, r.kind, r.confidence, ()))

end SignalRecord

/-- One value of a debug series. The time is a whole second, in milliseconds. -/
structure DebugPoint where
  time : Int
  value : Float
  deriving Repr

namespace DebugPoint

def fields :=
  Fields.required "ts" .time <| .required "value" .lossless .nil

def codec : Codec DebugPoint :=
  .record "struct DebugPoint" fields (fun (time, value, ()) => ⟨time, value⟩)
    (fun p => (p.time, p.value, ()))

end DebugPoint

structure DebugSeries where
  name : String
  index : Int
  points : Array DebugPoint
  deriving Repr

namespace DebugSeries

def fields :=
  Fields.required "name" .text <|
  .required "index" .small <|
  .required "values" (Codec.list DebugPoint.codec) .nil

def codec : Codec DebugSeries :=
  .record "struct DebugSeries" fields
    (fun (name, index, points, ()) => ⟨name, index, points.toArray⟩)
    (fun s => (s.name, s.index, s.points.toList, ()))

end DebugSeries

inductive BatchInput where
  | create (request : CreateRequest)
  | preload (candles : List Candle)
  | update (candles : List Candle)
  deriving Repr

namespace BatchInput

def candleFields :=
  Fields.required "candles" (Codec.list Candle.codec) .nil

def codec : Codec BatchInput :=
  .tagged
    [.around "create" CreateRequest.codec create,
      .withFields "preload" "BatchInput::Preload" candleFields fun (candles, ()) => preload candles,
      .withFields "update" "BatchInput::Update" candleFields fun (candles, ()) => update candles]
    fun
      | create request => Json.taggedText "create" (CreateRequest.codec.write request)
      | preload candles =>
          Json.taggedText "preload" (Json.objectText (candleFields.memberTexts (candles, ())))
      | update candles =>
          Json.taggedText "update" (Json.objectText (candleFields.memberTexts (candles, ())))

def create? : BatchInput → Option CreateRequest
  | create request => some request
  | _ => none

end BatchInput

def stateFields :=
  Fields.required "state" .text .nil

inductive BatchOutput where
  | signals (records : List SignalRecord)
  | state (checkpoint : String)
  | debug (series : List DebugSeries)
  deriving Repr

namespace BatchOutput

def codec : Codec BatchOutput :=
  .tagged
    [.around "signals" (Codec.list SignalRecord.codec) signals,
      .withFields "state" "BatchOutput::State" stateFields fun (text, ()) => state text,
      .around "debug" (Codec.list DebugSeries.codec) debug]
    fun
      | signals records =>
          Json.taggedText "signals" ((Codec.list SignalRecord.codec).write records)
      | state text => Json.taggedText "state" (Json.objectText (stateFields.memberTexts (text, ())))
      | debug series => Json.taggedText "debug" ((Codec.list DebugSeries.codec).write series)

end BatchOutput

inductive StreamInput where
  | create (request : CreateRequest)
  | preload (candle : Candle)
  | update (candle : Candle)
  deriving Repr

namespace StreamInput

def candleFields :=
  Fields.required "candle" Candle.codec .nil

def codec : Codec StreamInput :=
  .tagged
    [.around "create" CreateRequest.codec create,
      .withFields "preload" "StreamInput::Preload" candleFields fun (candle, ()) => preload candle,
      .withFields "update" "StreamInput::Update" candleFields fun (candle, ()) => update candle]
    fun
      | create request => Json.taggedText "create" (CreateRequest.codec.write request)
      | preload candle =>
          Json.taggedText "preload" (Json.objectText (candleFields.memberTexts (candle, ())))
      | update candle =>
          Json.taggedText "update" (Json.objectText (candleFields.memberTexts (candle, ())))

def create? : StreamInput → Option CreateRequest
  | create request => some request
  | _ => none

end StreamInput

inductive StreamOutput where
  | tick (signal : Option Signal)
  | state (checkpoint : String)
  deriving Repr

namespace StreamOutput

def tickFields :=
  Fields.optional "signal" Signal.codec .nil

def codec : Codec StreamOutput :=
  .tagged
    [.withFields "tick" "StreamOutput::Tick" tickFields fun (signal, ()) => tick signal,
      .withFields "state" "StreamOutput::State" stateFields fun (text, ()) => state text]
    fun
      | tick signal => Json.taggedText "tick" (Json.objectText (tickFields.memberTexts (signal, ())))
      | state text => Json.taggedText "state" (Json.objectText (stateFields.memberTexts (text, ())))

end StreamOutput

end SignalEngine
