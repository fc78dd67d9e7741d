import SignalEngine.Strategy.Basic
import SignalEngine.Text.Blank

namespace SignalEngine

open Json (Codec Fields)

/-- A strategy that can be made: how it is listed, and how an instance is made from a configuration
text. -/
structure Registration where
  name : String
  description : String
  defaultConfig : String
  make : String → Except StrategyError Strategy

/-- Reads a configuration. A blank text stands for the standard settings. -/
def readConfig (codec : Codec α) (standard : α) (text : String) : Except StrategyError α :=
  if Text.isBlank text then .ok standard
  else (codec.decode text).mapError fun fault => .invalidConfig fault.message

def makeFrom (codec : Codec α) (standard : α) (validate : α → Except ConfigFault Unit)
    (build : α → Strategy) (text : String) : Except StrategyError Strategy := do
  let config ← readConfig codec standard text
  (validate config).mapError ConfigFault.error
  return build config

/-- The kinds of strategies that are built in. -/
inductive StrategyKind where
  | superTrend
  | turtle
  | aldo
  | agreement
  deriving DecidableEq, Repr

namespace StrategyKind

def all : List StrategyKind :=
  [superTrend, turtle, aldo, agreement]

def name : StrategyKind → String
  | superTrend => SuperTrend.name
  | turtle => Turtle.name
  | aldo => Aldo.name
  | agreement => Agreement.name

def description : StrategyKind → String
  | superTrend => SuperTrend.description
  | turtle => Turtle.description
  | aldo => Aldo.description
  | agreement => Agreement.description

def defaultConfig : StrategyKind → String
  | superTrend => SuperTrend.Config.codec.encode .standard
  | turtle => Turtle.Config.codec.encode .standard
  | aldo => Aldo.Config.codec.encode .standard
  | agreement => Agreement.Config.codec.encode .standard

def make : StrategyKind → String → Except StrategyError Strategy
  | superTrend => makeFrom SuperTrend.Config.codec .standard SuperTrend.Config.validate
      fun config => .superTrend (.fresh config)
  | turtle => makeFrom Turtle.Config.codec .standard Turtle.Config.validate
      fun config => .turtle (.fresh config)
  | aldo => makeFrom Aldo.Config.codec .standard Aldo.Config.validate
      fun config => .aldo (.fresh config)
  | agreement => makeFrom Agreement.Config.codec .standard Agreement.Config.validate
      fun config => .agreement (.fresh config)

def registration (kind : StrategyKind) (name description : String) : Registration :=
  ⟨name, description, kind.defaultConfig, kind.make⟩

end StrategyKind

/-- Takes the first wanted member out of a list. The last member moves to its place. -/
def takeOut? (wanted : α → Bool) (xs : List α) : Option (α × List α) := do
  let i ← xs.findIdx? wanted
  let x ← xs[i]?
  return (x, (xs.set i (xs.getLastD x)).dropLast)

/-- The registrations under the names so far, in the order of these, and the others. -/
structure Selection where
  picked : List Registration
  others : List Registration

def Selection.pick (s : Selection) (name : String) : Except StrategyError Selection :=
  if s.picked.any (fun r => r.name == name) then .ok s
  else
    match takeOut? (fun r => r.name == name) s.others with
    | some (r, others) => .ok ⟨s.picked ++ [r], others⟩
    | none => .error (.notFound name)

/-- The strategies that sessions may create. -/
structure Registry where
  registrations : List Registration

namespace Registry

def empty : Registry :=
  ⟨[]⟩

/-- Adds a strategy at the end. It replaces one of the same name. -/
def register (r : Registry) (new : Registration) : Registry :=
  ⟨r.registrations.filter (fun old => old.name != new.name) ++ [new]⟩

def builtIn : Registry :=
  StrategyKind.all.foldl (fun r kind => r.register (kind.registration kind.name kind.description))
    empty

def names (r : Registry) : List String :=
  r.registrations.map Registration.name

def find? (r : Registry) (name : String) : Option Registration :=
  r.registrations.find? fun s => s.name == name

def lookup (r : Registry) (name : String) : Except StrategyError Registration :=
  match r.find? name with
  | some s => .ok s
  | none => .error (.notFound name)

/-- The named strategies, in the order of the names. -/
def restrictTo (r : Registry) (names : List String) : Except StrategyError Registry := do
  let s ← names.foldlM Selection.pick ⟨[], r.registrations⟩
  return ⟨s.picked⟩

def create (r : Registry) (name config : String) : Except StrategyError Strategy := do
  (← r.lookup name).make config

def provider (r : Registry) : Provider Strategy :=
  ⟨r.create⟩

end Registry

structure StrategyEntry where
  name : String
  defaultConfig : String
  deriving DecidableEq, Repr

namespace StrategyEntry

def fields :=
  Fields.required "name" .text <| .required "defaultConfig" .text .nil

def codec : Codec StrategyEntry :=
  .record "struct StrategyEntry" fields (fun (name, config, ()) => ⟨name, config⟩)
    (fun e => (e.name, e.defaultConfig, ()))

end StrategyEntry

def Registry.entries (r : Registry) : List StrategyEntry :=
  r.registrations.map fun s => ⟨s.name, s.defaultConfig⟩

end SignalEngine
