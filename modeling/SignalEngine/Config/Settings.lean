import SignalEngine.Config.Address
import SignalEngine.Session.Protocol

namespace SignalEngine

inductive LogFormat where
  | pretty
  | compact
  | json
  deriving DecidableEq, Repr

namespace LogFormat

def all : List LogFormat :=
  [pretty, compact, json]

def label : LogFormat → String
  | pretty => "pretty"
  | compact => "compact"
  | json => "json"

def title : LogFormat → String
  | pretty => "Pretty"
  | compact => "Compact"
  | json => "Json"

end LogFormat

structure AppSettings where
  name : String
  environment : String
  deriving DecidableEq, Repr

structure LogSettings where
  level : String
  format : LogFormat
  deriving DecidableEq, Repr

structure ServerSettings where
  address : String
  protocol : Protocol
  deriving DecidableEq, Repr

/-- Settings as they are read. If no strategies are named, all are enabled. -/
structure SettingsDraft where
  app : AppSettings
  log : LogSettings
  server : ServerSettings
  session : SessionLimits
  enabled : List String
  deriving DecidableEq, Repr

/-- Settings that can be used. -/
structure Settings where
  app : AppSettings
  log : LogSettings
  server : ServerSettings
  session : ValidLimits
  enabled : List String
  deriving DecidableEq, Repr

/-- Why there are no settings. -/
inductive SettingsError where
  /-- There is no file with this name. -/
  | missing (path : String)
  /-- The text is not well formed, or a value is not what it should be. -/
  | unreadable
  | emptyMessages
  | badAddress (text : String)
  deriving DecidableEq, Repr

def SettingsError.message : SettingsError → String
  | .missing path => "configuration file \"" ++ path ++ "\" not found"
  | .unreadable => "configuration is not readable"
  | .emptyMessages => SessionLimits.invalidMessage
  | .badAddress text => "Invalid listen address " ++ text ++ ": invalid socket address syntax"

def Settings.standard : Settings :=
  ⟨⟨"quant-runner", "development"⟩, ⟨"info", .pretty⟩, ⟨"127.0.0.1:7000", .batched⟩, .standard, []⟩

/-- The settings, if messages can hold something and the address is one. -/
def SettingsDraft.check (s : SettingsDraft) : Except SettingsError Settings :=
  if valid : s.session.isValid = true then
    if (SocketAddress.parse? s.server.address).isNone then .error (.badAddress s.server.address)
    else .ok ⟨s.app, s.log, s.server, ⟨s.session, valid⟩, s.enabled⟩
  else .error .emptyMessages

end SignalEngine
