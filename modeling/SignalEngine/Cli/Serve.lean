import SignalEngine.Cli.Invocation
import SignalEngine.Cli.Setup

namespace SignalEngine.Cli

variable {m : Type → Type} [Monad m] [Host m]

/-- Why sessions cannot be served at an address. -/
inductive BindFault where
  | noService
  | badService
  | unavailable
  deriving DecidableEq, Repr

def BindFault.message : BindFault → String
  | .noService => "invalid socket address"
  | .badService => "invalid port value"
  | .unavailable => "Cannot assign requested address (os error 99)"

/-- What is wrong with an address. The number of the service stands behind the last
colon. -/
def bindFault (address : String) : BindFault :=
  let cs := address.toList.reverse
  match cs.dropWhile (· != ':') with
  | [] => .noService
  | _ =>
      match (Number.readNat? (cs.takeWhile (· != ':')).reverse).filter (Number.fits 16) with
      | some _ => .unavailable
      | none => .badService

def sessionLines (registry : Registry) (limits : SessionLimits) (protocol : Protocol)
    (bytes : List UInt8) : List String :=
  let outcome := runLines registry limits protocol .never none bytes
  match outcome.result with
  | .ok _ => outcome.lines
  | .error e => outcome.lines ++ [SessionStatus.codec.encode (.ofError e)]

def serve (request : Serve) (config : String) : Action m Unit := do
  let (s, registry) ← prepare config
  if request.stdio then
    let protocol := request.protocol.getD s.server.protocol
    let bytes ← ExceptT.lift Host.input
    (sessionLines registry s.session.toSessionLimits protocol bytes).forM Action.print
  else
    let address := request.listen.getD s.server.address
    throw ⟨"Failed to bind " ++ address, [(bindFault address).message]⟩

end SignalEngine.Cli
