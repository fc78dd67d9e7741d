import SignalEngine.Cli.Arguments
import SignalEngine.Number.Decimal
import SignalEngine.Number.Word
import SignalEngine.Session.Protocol

namespace SignalEngine.Cli

inductive LogLevel where
  | trace
  | debug
  | info
  | warn
  | error
  deriving DecidableEq, Repr

namespace LogLevel

def all : List LogLevel :=
  [trace, debug, info, warn, error]

def label : LogLevel → String
  | trace => "trace"
  | debug => "debug"
  | info => "info"
  | warn => "warn"
  | error => "error"

end LogLevel

inductive OutputFormat where
  | text
  | json
  deriving DecidableEq, Repr

namespace OutputFormat

def all : List OutputFormat :=
  [text, json]

def label : OutputFormat → String
  | text => "text"
  | json => "json"

end OutputFormat

/-- A session that runs over a file of candles: the first candles only warm the strategy up, and the
others go in as batches. -/
structure Replay where
  strategy : String
  data : String
  strategyConfig : Option String
  state : Option String
  preload : Nat
  batchSize : Nat
  interval : String
  market : Nat
  symbol : Nat
  debug : Bool
  saveState : Option String
  output : OutputFormat
  deriving DecidableEq, Repr

structure Serve where
  listen : Option String
  protocol : Option Protocol
  stdio : Bool
  deriving DecidableEq, Repr

inductive Command where
  | serve (request : Serve)
  | replay (request : Replay)
  | strategies
  | validateConfig
  deriving DecidableEq, Repr

structure Invocation where
  config : String
  logLevel : Option LogLevel
  jsonLogs : Bool
  command : Command
  deriving DecidableEq, Repr

def named? (all : List α) (label : α → String) (text : String) : Option α :=
  all.find? fun a => label a == text

def path? (text : String) : Option String :=
  if text.isEmpty then none else some text

def count? (text : String) : Option Nat :=
  (Number.readNat? text.toList).filter (Number.fits 64)

def identifier? (text : String) : Option Nat :=
  ((Number.readInt? text.toList).filter fun n => 0 ≤ n && Number.fits 32 n.toNat).map Int.toNat

def globalSwitches : List Switch :=
  [.lettered "config" 'c', .lettered "log-level" 'l', .flag "json-logs"]

def serveSwitches : List Switch :=
  [.valued "listen", .valued "protocol", .flag "stdio"]

def replaySwitches : List Switch :=
  [.lettered "strategy" 's', .valued "data", .valued "strategy-config", .valued "state",
    .valued "preload", .valued "batch-size", .lettered "interval" 'i', .valued "market",
    .valued "symbol", .flag "debug", .valued "save-state", .valued "output"]

/-- All options of a command, after which nothing may follow. -/
def options? (switches : List Switch) (words : List String) : Option Given :=
  match Arguments.scan switches [] words with
  | some (given, []) => some given
  | _ => none

def Serve.read? (words : List String) : Option Serve := do
  let given ← options? serveSwitches words
  return ⟨given.value? "listen", ← given.read? "protocol" Protocol.parse?, given.has "stdio"⟩

def Replay.read? (words : List String) : Option Replay := do
  let given ← options? replaySwitches words
  return {
    strategy := ← given.value? "strategy"
    data := ← (given.value? "data").bind path?
    strategyConfig := ← given.read? "strategy-config" path?
    state := ← given.read? "state" path?
    preload := ← given.readOr? "preload" count? 0
    batchSize := ← given.readOr? "batch-size" count? 500
    interval := (given.value? "interval").getD "1m"
    market := ← given.readOr? "market" identifier? 0
    symbol := ← given.readOr? "symbol" identifier? 0
    debug := given.has "debug"
    saveState := ← given.read? "save-state" path?
    output := ← given.readOr? "output" (named? OutputFormat.all OutputFormat.label) .text }

def Command.read? : List String → Option Command
  | [] => none
  | name :: words =>
      if name = "serve" then (Serve.read? words).map serve
      else if name = "replay" then (Replay.read? words).map replay
      else if name = "strategies" then (options? [] words).map fun _ => strategies
      else if name = "validate-config" then (options? [] words).map fun _ => validateConfig
      else none

def standardConfig : String :=
  "config/default.toml"

/-- Reads a whole command line. The configuration file may be named by a variable instead of an
option. -/
def Invocation.read? (words : List String) (configVariable : Option String) :
    Option Invocation := do
  let (given, rest) ← Arguments.scan globalSwitches [] words
  let config ← path? (((given.value? "config").or configVariable).getD standardConfig)
  return ⟨config, ← given.read? "log-level" (named? LogLevel.all LogLevel.label),
    given.has "json-logs", ← Command.read? rest⟩

end SignalEngine.Cli
