import SignalEngine.Cli.Invocation
import SignalEngine.Cli.Setup
import SignalEngine.Data.CandleFile

namespace SignalEngine.Cli

variable {m : Type → Type} [Monad m] [Host m]

/-- The messages of a replay: the request, then the candles in batches, those of the past first. -/
def replayMessages (create : CreateRequest) (candles : List Candle) (preload batchSize : Nat) :
    List BatchInput :=
  .create create :: (chunks batchSize (candles.take preload)).map .preload ++
    (chunks batchSize (candles.drop preload)).map .update

structure Gathered where
  signals : List SignalRecord
  state : Option String
  debug : List DebugSeries

namespace Gathered

def nothing : Gathered :=
  ⟨[], none, []⟩

def add (g : Gathered) : BatchOutput → Gathered
  | .signals records => { g with signals := g.signals ++ records }
  | .state text => { g with state := some text }
  | .debug series => { g with debug := g.debug ++ series }

def ofMessages (messages : List BatchOutput) : Gathered :=
  messages.foldl add nothing

end Gathered

def signalLine (r : SignalRecord) : String :=
  let time := (Calendar.text? r.candle.timestamp).getD
    (String.ofList (Number.intText r.candle.timestamp))
  "  " ++ time ++ "  " ++ padRight 10 r.kind.label ++
    "  confidence " ++ String.ofList (Number.fixedText 3 r.confidence) ++
    "  close " ++ String.ofList (Number.fixedText 4 r.candle.close)

def seriesLine (s : DebugSeries) : String :=
  let last := (s.points.toList.getLast?.map DebugPoint.value).getD Number.nan
  "  [" ++ String.ofList (Number.intText s.index) ++ "] " ++ padRight 24 s.name ++ " " ++
    natText s.points.size ++ " points, last " ++ String.ofList (Number.fixedText 4 last)

def summaryLines (s : SessionSummary) : List String :=
  ["Replay: " ++ s.strategy, rule '═' 59,
    "Preloaded candles: " ++ natText s.preloaded,
    "Updated candles:   " ++ natText s.updated,
    "Signals:           " ++ natText s.signals] ++
    (if s.cancelled then ["Replay was cancelled; output may be incomplete."] else []) ++ [""]

def debugLines (series : List DebugSeries) : List String :=
  if series.isEmpty then [] else "" :: "Debug series:" :: series.map seriesLine

def stateLines : Option String → List String
  | some text => ["", "Final state: " ++ natText text.utf8ByteSize ++ " bytes"]
  | none => []

def replayReport (s : SessionSummary) (g : Gathered) : List String :=
  summaryLines s ++ g.signals.map signalLine ++ debugLines g.debug ++ stateLines g.state

def replayCandles (request : Replay) : Action m (List Candle) := do
  let interval ← Action.ofExcept Complaint.plain
    (match Interval.parse? request.interval with
      | some i => .ok i
      | none => .error (DataError.invalidInterval request.interval).message)
  let text := (← ExceptT.lift (Host.readFile request.data)).toOption
  Action.ofExcept (fun e => ⟨"Failed to load " ++ request.data, [DataError.message e]⟩)
    (CandleFile.loadFile text request.market request.symbol interval)

def saveState (g : Gathered) : Option String → Action m Unit
  | none => pure ()
  | some path => do
      match g.state with
      | some text => Action.write path text
      | none => throw (.plain "Session ended without a state message")

def replay (request : Replay) (config : String) : Action m Unit := do
  if request.batchSize = 0 then throw (.plain "--batch-size must be at least 1")
  let (s, registry) ← prepare config
  let strategyConfig ← Action.readNamed request.strategyConfig
  let state ← Action.readNamed request.state
  let candles ← replayCandles request
  let create : CreateRequest :=
    ⟨request.strategy, strategyConfig.getD "", state, request.debug⟩
  let messages := replayMessages create candles request.preload request.batchSize
  let outcome :=
    (batchedSession registry.provider s.session (messages.map .message)).run .never none
  if request.output = .json then
    outcome.sent.forM fun message => Action.print (BatchOutput.codec.encode message)
  let summary ← Action.ofExcept (fun e => ⟨SessionError.message e, e.causes⟩) outcome.result
  let gathered := Gathered.ofMessages outcome.sent
  if request.output = .text then
    (replayReport summary gathered).forM Action.print
  saveState gathered request.saveState

end SignalEngine.Cli
