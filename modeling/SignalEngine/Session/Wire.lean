import SignalEngine.Session.Error
import SignalEngine.Session.Message
import SignalEngine.Session.Phase
import SignalEngine.Strategy.Interface

/-!
The two ends of a session. Messages come in from a list of items, any of which may be unreadable. They
go out one after another until the other side closes. Cancellation is a moment: a session asks before
it waits for a message and before it sends a chunk.
-/

namespace SignalEngine

/-- What arrives at a session. -/
inductive Inbound (ι : Type) where
  | message (content : ι)
  /-- A message that cannot be read. -/
  | undecodable (fault : Json.Error)
  /-- Reading itself failed. -/
  | broken (text : String)
  deriving Repr

/-- When a session is cancelled: at once, when it waits for a message after a number of them, or right
after it has sent a number of messages. -/
structure Cancellation where
  atStart : Bool
  afterReceived : Option Nat
  afterSent : Option Nat
  deriving DecidableEq, Repr

def Cancellation.never : Cancellation :=
  ⟨false, none, none⟩

/-- The ends of a running session: what has come in and gone out, how many messages the other side
takes before it closes, and how many it has turned away. The phases it has been in are listed from the
present one back. -/
structure Wire (ο : Type) where
  cancellation : Cancellation
  room : Option Nat
  received : Nat
  sent : List ο
  refused : Nat
  phases : List Phase
  deriving Repr

namespace Wire

def fresh (cancellation : Cancellation) (room : Option Nat) : Wire ο :=
  ⟨cancellation, room, 0, [], 0, [.awaitingCreate]⟩

def isCancelled (w : Wire ο) : Bool :=
  w.cancellation.atStart ||
    (match w.cancellation.afterReceived with
      | some k => k ≤ w.received
      | none => false) ||
    (match w.cancellation.afterSent with
      | some k => 0 < k && k ≤ w.sent.length
      | none => false)

def isOpen (w : Wire ο) : Bool :=
  match w.room with
  | some k => w.sent.length < k
  | none => true

end Wire

/-- A part of a session. What has been sent stays sent when it fails. -/
abbrev Session (ο α : Type) := EStateM SessionError (Wire ο) α

namespace Session

def isCancelled : Session ο Bool := fun w =>
  .ok w.isCancelled w

/-- Sends a message, which a closed side turns away. -/
def send (m : ο) : Session ο Unit := fun w =>
  if w.isOpen then .ok () { w with sent := w.sent ++ [m] }
  else .error (.transport .closed) { w with refused := w.refused + 1 }

def receive (item : Inbound ι) : Session ο ι := fun w =>
  let w := { w with received := w.received + 1 }
  match item with
  | .message m => .ok m w
  | .undecodable fault => .error (.unrecognized fault) w
  | .broken text => .error (.transport (.io text)) w

def advance (next : Phase) : Session ο Unit := fun w =>
  .ok () { w with phases := next :: w.phases }

def ofExcept : Except SessionError α → Session ο α
  | .ok a => pure a
  | .error e => throw e

/-- Waits for the request that opens the session. The rest of the items is returned with it. -/
def open? (create? : ι → Option CreateRequest) :
    List (Inbound ι) → Session ο (CreateRequest × List (Inbound ι))
  | [] => do
      if ← isCancelled then throw .cancelled else throw .notCreate
  | item :: rest => do
      if ← isCancelled then throw .cancelled
      else
        match create? (← receive item) with
        | some request => return (request, rest)
        | none => throw .notCreate

/-- Sends a list of messages, until the session is cancelled. -/
def sendAll : List ο → Session ο Unit
  | [] => pure ()
  | m :: rest => do
      if ← isCancelled then pure ()
      else
        send m
        sendAll rest

end Session

/-- The list, cut into pieces of the given size; the last may be shorter. Limits that are valid and the
sizes that a replay takes are at least one. -/
def chunks (size : Nat) : List α → List (List α)
  | [] => []
  | a :: rest => (a :: rest.take (size - 1)) :: chunks size (rest.drop (size - 1))
  termination_by items => items.length
  decreasing_by
    simp only [List.length_drop, List.length_cons]
    omega

/-- The strategy of a request, in the state to go on from. -/
def openStrategy [Strategic σ] (provider : Provider σ) (request : CreateRequest) :
    Except SessionError σ := do
  let strategy ← (provider.create request.name request.config).mapError .ofStrategy
  match request.resumeState? with
  | none => return strategy
  | some text =>
      let restored := Strategic.restore strategy text
      match restored.error with
      | none => return restored.state
      | some e => .error (.restore e)

/-- What is reported about a session that has closed. -/
structure SessionSummary where
  strategy : String
  preloaded : Nat
  updated : Nat
  signals : Nat
  debugSeries : Nat
  cancelled : Bool
  deriving DecidableEq, Repr

/-- How a session ends: the messages that went out, and the summary or the error. -/
structure SessionOutcome (ο : Type) where
  sent : List ο
  result : Except SessionError SessionSummary

def Session.run (session : Session ο SessionSummary) (cancellation : Cancellation)
    (room : Option Nat) : SessionOutcome ο :=
  match EStateM.run session (Wire.fresh cancellation room) with
  | .ok summary w => ⟨w.sent, .ok summary⟩
  | .error e w => ⟨w.sent, .error e⟩

end SignalEngine
