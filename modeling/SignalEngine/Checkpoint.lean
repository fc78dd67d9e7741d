import SignalEngine.Json.Codec

/-!
Checkpoints: the whole state of a component as one text. A component that is made of others keeps
their checkpoints as texts inside its own, so every layer reads and checks its own part.
-/

namespace SignalEngine

open Json (Codec)

/-- Why a text cannot be taken as the state of a component of the given kind. -/
inductive CheckpointError where
  /-- The text is not a record of that kind. -/
  | malformed (kind : String) (fault : Json.Error)
  /-- The record is not a state that the component can have. -/
  | invalid (kind reason : String)
  deriving Repr

def CheckpointError.message : CheckpointError → String
  | .malformed kind fault => "Malformed " ++ kind ++ " checkpoint: " ++ fault.message
  | .invalid kind reason => "Invalid " ++ kind ++ " checkpoint: " ++ reason

def CheckpointError.causes : CheckpointError → List String
  | .malformed _ fault => [fault.message]
  | .invalid _ _ => []

def readRecord (kind : String) (codec : Codec α) (text : String) : Except CheckpointError α :=
  (codec.decode text).mapError (.malformed kind)

/-- A component whose state can be saved as a text and loaded from one. -/
class Persistent (σ : Type) where
  /-- The state as a text. -/
  checkpoint : σ → String
  /-- The state of this component after loading a text. -/
  load : σ → String → Except CheckpointError σ

export Persistent (checkpoint)

/-- What a restore leaves: the state, and the error if there was one. -/
structure Restored (σ : Type) where
  state : σ
  error : Option CheckpointError

/-- Replaces the state of a component by one that was saved. The new state is made up in full before
it takes the place of the old one, which stays when anything is wrong. -/
def restore [Persistent σ] (s : σ) (text : String) : Restored σ :=
  match Persistent.load s text with
  | .ok new => ⟨new, none⟩
  | .error e => ⟨s, some e⟩

theorem restore_of_load_ok [Persistent σ] {s t : σ} {text : String}
    (h : Persistent.load s text = .ok t) : restore s text = ⟨t, none⟩ := by
  simp [restore, h]

theorem restore_of_load_error [Persistent σ] {s : σ} {text : String} {e : CheckpointError}
    (h : Persistent.load s text = .error e) : restore s text = ⟨s, some e⟩ := by
  simp [restore, h]

end SignalEngine
