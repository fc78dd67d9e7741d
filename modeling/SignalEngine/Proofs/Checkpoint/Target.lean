import SignalEngine.Proofs.Checkpoint.Loaded

/-!
What a restore owes to its target: nothing. A component is replaced by the state that the text alone
gives, or left alone with an error that the text alone gives. Only the simple average and the average
range, which pass over a malformed text, keep what they were.
-/

namespace SignalEngine

open Json (Codec)

theorem load_of_restore {σ : Type} [Persistent σ] {s t : σ} {text : String}
    (h : restore s text = ⟨t, none⟩) : Persistent.load s text = .ok t := by
  cases hload : Persistent.load s text with
  | error e =>
      rw [restore_of_load_error hload] at h
      cases h
  | ok s' =>
      rw [restore_of_load_ok hload] at h
      cases h
      rfl

/-- A component whose next state a text gives without regard to the old one. -/
class Forgetful (σ : Type) [Persistent σ] : Prop where
  load_eq : ∀ (a b : σ) (text : String), Persistent.load a text = Persistent.load b text

/-- Both fail to be restored, with one error, and stay as they were; or both are restored to one
state. -/
def RestoreAlike {σ : Type} [Persistent σ] (a b : σ) (text : String) : Prop :=
  (∃ e, restore a text = ⟨a, some e⟩ ∧ restore b text = ⟨b, some e⟩) ∨
    ∃ s, restore a text = ⟨s, none⟩ ∧ restore b text = ⟨s, none⟩

theorem restoreAlike_of_load_eq {σ : Type} [Persistent σ] {a b : σ} {text : String}
    (h : Persistent.load a text = Persistent.load b text) : RestoreAlike a b text := by
  cases ha : Persistent.load a text with
  | error e => exact .inl ⟨e, restore_of_load_error ha, restore_of_load_error (h ▸ ha)⟩
  | ok s => exact .inr ⟨s, restore_of_load_ok ha, restore_of_load_ok (h ▸ ha)⟩

theorem Forgetful.restoreAlike {σ : Type} [Persistent σ] [Forgetful σ] (a b : σ) (text : String) :
    RestoreAlike a b text :=
  restoreAlike_of_load_eq (load_eq a b text)

instance : Forgetful Ema where
  load_eq _ _ _ := rfl

instance : Forgetful Cci where
  load_eq _ _ _ := rfl

instance : Forgetful Smma where
  load_eq _ _ _ := rfl

/-- The averages inside are loaded one after the other, and each of them forgets its own past. -/
instance : Forgetful Rsi where
  load_eq a b text := by
    apply bind_congr
    intro r
    rw [Forgetful.load_eq a.up b.up, Forgetful.load_eq a.down b.down]

instance : Forgetful Macd where
  load_eq a b text := by
    apply bind_congr
    intro r
    rw [Forgetful.load_eq a.fast b.fast, Forgetful.load_eq a.slow b.slow,
      Forgetful.load_eq a.signal b.signal]

instance : Forgetful StopLoss where
  load_eq _ _ _ := rfl

instance : Forgetful SuperTrend.State where
  load_eq _ _ _ := rfl

instance : Forgetful Turtle.State where
  load_eq _ _ _ := rfl

instance : Forgetful Aldo.State where
  load_eq _ _ _ := rfl

instance : Forgetful Agreement.State where
  load_eq _ _ _ := rfl

/-- What a component that passes over malformed texts is after one. -/
def readOr (codec : Codec σ) (s : σ) (text : String) : σ :=
  match codec.decode text with
  | .ok new => new
  | .error _ => s

theorem Sma.restore_eq (s : Sma) (text : String) :
    restore s text = ⟨readOr Sma.codec s text, none⟩ := by
  apply restore_of_load_ok
  simp only [Persistent.load, readRecord, readOr]
  cases Sma.codec.decode text <;> rfl

theorem Atr.restore_eq (s : Atr) (text : String) :
    restore s text = ⟨readOr Atr.codec s text, none⟩ := by
  apply restore_of_load_ok
  simp only [Persistent.load, readRecord, readOr]
  cases Atr.codec.decode text <;> rfl

end SignalEngine
