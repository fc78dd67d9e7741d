namespace SignalEngine

/-- Where a session stands. -/
inductive Phase where
  | awaitingCreate
  | processing
  | finalizing
  | closed
  deriving DecidableEq, Repr

namespace Phase

def all : List Phase :=
  [awaitingCreate, processing, finalizing, closed]

def label : Phase → String
  | awaitingCreate => "awaiting_create"
  | processing => "processing"
  | finalizing => "finalizing"
  | closed => "closed"

/-- One phase may follow another: the next one, or the end from anywhere. -/
def canAdvanceTo : Phase → Phase → Bool
  | awaitingCreate, processing => true
  | processing, finalizing => true
  | _, closed => true
  | _, _ => false

end Phase

end SignalEngine
