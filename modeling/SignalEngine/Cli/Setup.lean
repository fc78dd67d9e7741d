import SignalEngine.Cli.Host
import SignalEngine.Config.Layers

namespace SignalEngine.Cli

variable {m : Type → Type} [Monad m] [Host m]

def extension (path : String) : String :=
  let name := path.toList.reverse.takeWhile (· != '/')
  match name.dropWhile (· != '.') with
  | '.' :: _ :: _ => String.ofList (name.takeWhile (· != '.')).reverse
  | _ => ""

/-- The settings in a file and in the environment. A file that does not exist is looked for again with
the extension added; one with another extension is not read. -/
def loadSettings (path : String) : m (Except SettingsError Settings) := do
  let environment ← Host.environment
  match ← Host.readFile path with
  | .ok text =>
      if extension path = "toml" then return Settings.load path (some text) environment
      else return .error .unreadable
  | .error .notText => return .error .unreadable
  | .error _ => return Settings.load path (← Host.readFile (path ++ ".toml")).toOption environment

def settingsAt (path : String) : Action m Settings := do
  match ← ExceptT.lift (Host.readFile path) with
  | .error .absent | .error .notDirectory => return .standard
  | _ =>
      Action.ofExcept
        (fun e => ⟨"Failed to load configuration from " ++ path, [SettingsError.message e]⟩)
        (← ExceptT.lift (loadSettings path))

def enabledRegistry (s : Settings) : Except Complaint Registry :=
  if s.enabled.isEmpty then .ok .builtIn
  else
    (Registry.builtIn.restrictTo s.enabled).mapError fun e =>
      ⟨"Invalid strategies.enabled", [e.message]⟩

def prepare (path : String) : Action m (Settings × Registry) := do
  let s ← settingsAt path
  return (s, ← Action.ofExcept id (enabledRegistry s))

def rule (c : Char) (length : Nat) : String :=
  String.ofList (List.replicate length c)

def padRight (width : Nat) (text : String) : String :=
  text ++ String.ofList (List.replicate (width - text.length) ' ')

def natText (n : Nat) : String :=
  String.ofList (Nat.toDigits 10 n)

end SignalEngine.Cli
