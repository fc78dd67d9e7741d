import SignalEngine.Json.Record
import SignalEngine.Json.Tagged
import SignalEngine.Strategy.Error

namespace SignalEngine

open Json (Codec Fields)

inductive TransportError where
  | closed
  | io (text : String)
  | codec (fault : Json.Error)
  deriving Repr

def TransportError.message : TransportError → String
  | .closed => "Outbound channel closed"
  | .io text => "IO error: " ++ text
  | .codec fault => "Invalid message: " ++ fault.message

def TransportError.causes : TransportError → List String
  | .closed => []
  | .io text => [text]
  | .codec fault => [fault.message]

inductive ErrorCode where
  | invalidArgument
  | cancelled
  | unavailable
  | internal
  deriving DecidableEq, Repr

namespace ErrorCode

def all : List ErrorCode :=
  [invalidArgument, cancelled, unavailable, internal]

def label : ErrorCode → String
  | invalidArgument => "invalidArgument"
  | cancelled => "cancelled"
  | unavailable => "unavailable"
  | internal => "internal"

def codec : Codec ErrorCode :=
  .enumeration all label

end ErrorCode

/-- Why a session ended without closing. -/
inductive SessionError where
  | protocol (reason : String)
  | unknownStrategy (name : String)
  | invalidConfig (reason : String)
  | restore (error : CheckpointError)
  | checkpoint (error : CheckpointError)
  | transport (error : TransportError)
  | cancelled
  deriving Repr

namespace SessionError

def notCreate : SessionError :=
  .protocol "First message must be Create"

def repeatedCreate : SessionError :=
  .protocol "Create is only allowed as the first message"

def unrecognized (fault : Json.Error) : SessionError :=
  .protocol ("Unrecognized message: " ++ fault.message)

def ofStrategy : StrategyError → SessionError
  | .notFound name => .unknownStrategy name
  | .invalidConfig reason => .invalidConfig reason
  | .checkpoint error => .restore error

def message : SessionError → String
  | .protocol reason => reason
  | .unknownStrategy name => "Strategy " ++ name ++ " not found"
  | .invalidConfig reason => "Invalid strategy configuration: " ++ reason
  | .restore error => "Failed to restore strategy state: " ++ error.message
  | .checkpoint error => "Failed to checkpoint strategy state: " ++ error.message
  | .transport error => "Transport error: " ++ error.message
  | .cancelled => "Session cancelled before Create"

def causes : SessionError → List String
  | .restore error | .checkpoint error => error.message :: error.causes
  | .transport error => error.message :: error.causes
  | .protocol _ | .unknownStrategy _ | .invalidConfig _ | .cancelled => []

def code : SessionError → ErrorCode
  | .protocol _ | .unknownStrategy _ | .invalidConfig _ | .restore _ => .invalidArgument
  | .cancelled => .cancelled
  | .transport _ => .unavailable
  | .checkpoint _ => .internal

end SessionError

structure SessionStatus where
  code : ErrorCode
  message : String
  deriving DecidableEq, Repr

namespace SessionStatus

def ofError (e : SessionError) : SessionStatus :=
  ⟨e.code, e.message⟩

def fields :=
  Fields.required "code" ErrorCode.codec <| .required "message" .text .nil

def codec : Codec SessionStatus :=
  .record "struct SessionStatus" fields (fun (code, message, ()) => ⟨code, message⟩)
    (fun s => (s.code, s.message, ()))

end SessionStatus

end SignalEngine
