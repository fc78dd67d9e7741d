import SignalEngine.Cli.Setup

namespace SignalEngine.Cli

variable {m : Type → Type} [Monad m] [Host m]

def strategyLines (s : Registration) : List String :=
  ["  " ++ s.name, "  " ++ rule '─' 55, "  " ++ s.description,
    "  default config: " ++ s.defaultConfig, ""]

def listing (registry : Registry) : List String :=
  ["Available Strategies", rule '═' 59, ""] ++ registry.registrations.flatMap strategyLines ++
    ["Use --strategy <name> with replay, or the name in a create message."]

def listStrategies (config : String) : Action m Unit := do
  let (_, registry) ← prepare config
  (listing registry).forM Action.print

def settingsLines (s : Settings) : List String :=
  ["", s.app.name ++ " (" ++ s.app.environment ++ ")",
    "  server   " ++ s.server.address ++ " [" ++ s.server.protocol.label ++ "]",
    "  session  " ++ natText s.session.signalChunk ++ " signals / " ++
      natText s.session.debugChunk ++ " debug series per message",
    "  logging  " ++ s.log.level ++ " (" ++ s.log.format.title ++ ")"]

/-- Passes a value on. A failure is shown before it ends the command. -/
def orShow (what : String) : Except Complaint α → Action m α
  | .ok a => pure a
  | .error c => do
      Action.print ("  ✗ " ++ what ++ ": " ++ c.line)
      throw c

def validateConfig (config : String) : Action m Unit := do
  Action.print ("Checking " ++ config)
  let loaded ← ExceptT.lift (loadSettings config)
  let s ← orShow "load" (loaded.mapError fun e => .plain (SettingsError.message e))
  Action.print "  ✓ load and value checks"
  let registry ← orShow "strategies" (enabledRegistry s)
  Action.print ("  ✓ strategies: " ++ ", ".intercalate registry.names)
  (settingsLines s).forM Action.print

end SignalEngine.Cli
