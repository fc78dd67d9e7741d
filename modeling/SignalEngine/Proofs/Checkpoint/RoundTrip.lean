import SignalEngine.Proofs.Checkpoint.Strategy

namespace SignalEngine

namespace Strategy

/-- A strategy that can come up: it is made from settings that it can run with, takes candles of the
past and of the present, and loads texts. -/
inductive Reached : Strategy → Prop
  | superTrend {c : SuperTrend.Config} : c.validate = .ok () → Reached (superTrend (.fresh c))
  | turtle {c : Turtle.Config} : c.validate = .ok () → Reached (turtle (.fresh c))
  | aldo {c : Aldo.Config} : c.validate = .ok () → Reached (aldo (.fresh c))
  | agreement {c : Agreement.Config} : c.validate = .ok () → Reached (agreement (.fresh c))
  | preload {s : Strategy} (c : Candle) : Reached s → Reached (s.preload c)
  | update {s : Strategy} (c : Candle) : Reached s → Reached (s.update c).1
  | restore {s : Strategy} (text : String) : Reached s → Reached (restore s text).state

theorem Reached.sound {s : Strategy} (h : s.Reached) : Sound s := by
  induction h with
  | superTrend h => exact SuperTrend.valid_fresh h
  | turtle h => exact Turtle.valid_fresh h
  | aldo h => exact Aldo.State.valid_fresh h
  | agreement h => exact Agreement.valid_fresh h
  | preload c _ ih => exact valid_preload ih c
  | update c _ ih => exact valid_update ih c
  | restore text _ ih => exact sound_restore ih text

end Strategy

/-- Indicators, trailing stops and strategies of every kind come back from their checkpoints as they
were, in whatever state of the same kind they are restored into. -/
theorem restore_checkpoint :
    (∀ t s : Indicator, s.Reached → t.name = s.name → Savable s →
        restore t (checkpoint s) = ⟨s, none⟩) ∧
      (∀ t s : StopLoss, Savable s → restore t (checkpoint s) = ⟨s, none⟩) ∧
      ∀ t s : Strategy, s.Reached → t.name = s.name → Savable s →
        restore t (checkpoint s) = ⟨s, none⟩ := by
  refine ⟨?_, ?_, ?_⟩
  · intro t s hs hname h
    exact restore_of_sound hs.sound (Indicator.sameKind_of_name hname) h
  · intro t s h
    exact restore_of_sound trivial trivial h
  · intro t s hs hname h
    exact restore_of_sound hs.sound (Strategy.sameKind_of_name hname) h

/-- On a flat market the channel index is not a number, and is saved nevertheless. The divergence
strategy is restored with the three components that lie inside one another. -/
theorem restore_checkpoint_flat :
    let index := (Indicator.cci (.fresh 1)).update (.ofClose 1.0)
    let stop := (StopLoss.fresh 3.5).place 100.0
    let divergence := ((Strategy.aldo (.fresh { Aldo.Config.standard with
      period := 1
      rsiLength := 1
      oscillatorType := 1 })).update (.ofClose 1.0)).1
    index.value.isNaN = true ∧ restore (.cci (.fresh 3)) (checkpoint index) = ⟨index, none⟩ ∧
      restore (StopLoss.fresh 0.0) (checkpoint stop) = ⟨stop, none⟩ ∧
      restore (.aldo (.fresh .standard)) (checkpoint divergence) = ⟨divergence, none⟩ := by
  refine ⟨by decide +kernel, ?_, ?_, ?_⟩
  · refine restore_checkpoint.1 _ _
      (.update _ (@Indicator.Reached.cci 1 Cci.standardConstant _ rfl)) rfl ?_
    exact savable_iff.2 (by decide +kernel)
  · refine restore_checkpoint.2.1 _ _ ?_
    exact savable_iff.2 (by decide +kernel)
  · refine restore_checkpoint.2.2 _ _ (.update _ (.aldo rfl)) rfl ?_
    exact savable_iff.2 (by decide +kernel)

end SignalEngine
