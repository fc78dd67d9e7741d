import SignalEngine.Cli.Overview
import SignalEngine.Cli.Replay
import SignalEngine.Cli.Serve

namespace SignalEngine.Cli

variable {m : Type → Type} [Monad m] [Host m]

def Invocation.run (i : Invocation) : Action m Unit :=
  match i.command with
  | .serve request => Cli.serve request i.config
  | .replay request => Cli.replay request i.config
  | .strategies => listStrategies i.config
  | .validateConfig => Cli.validateConfig i.config

inductive Ending where
  | success
  | failure (complaint : Complaint)
  /-- The command line is not understood. -/
  | misuse
  deriving DecidableEq, Repr

namespace Ending

def status : Ending → Nat
  | success => 0
  | failure _ => 1
  | misuse => 2

def report? : Ending → Option String
  | failure complaint => some complaint.text
  | _ => none

end Ending

def configVariable : String :=
  "QUANT_CONFIG"

def run (words : List String) : m Ending := do
  match Invocation.read? words ((← Host.environment).lookup configVariable) with
  | none => return .misuse
  | some invocation =>
      match ← invocation.run.run with
      | .ok () => return .success
      | .error complaint => return .failure complaint

end SignalEngine.Cli
