import SignalEngine.Proofs.Checkpoint.Strategy
import SignalEngine.Proofs.Number.Finite

namespace SignalEngine

def Signal.AllFinite (signal : Option Signal) : Prop :=
  ∀ s ∈ signal, s.confidence.isFinite = true

theorem Signal.allFinite_none : AllFinite none := nofun

theorem Signal.allFinite_sure (kind : SignalKind) : AllFinite (some (.sure kind)) := by
  rintro s ⟨⟩
  exact (by decide : (1.0 : Float).isFinite = true)

namespace SuperTrend

/-- The numbers that the next confidence is held against are finite. -/
structure State.Guarded (s : State) : Prop where
  bias : s.config.confidenceBias.isFinite = true
  last : s.lastBuyConfidence.isFinite = true

theorem guarded_of_savable {s : State} (h : Savable s) : s.Guarded := by
  obtain ⟨⟨hconfig, -, -, -, -, hlast⟩, -⟩ := savable_iff_own.1 h
  exact ⟨hconfig.finite _ (by simp [Recorded.plain, State.saved]), hlast⟩

theorem guarded_advance {s : State} (h : s.Guarded) (c : Candle) : (s.advance c).1.Guarded := by
  unfold State.advance
  dsimp only
  split
  · exact ⟨h.bias, h.last⟩
  · exact ⟨h.bias, h.last⟩

theorem guarded_leave {s : State} (h : s.Guarded) : s.leave.Guarded :=
  ⟨h.bias, isFinite_zero⟩

theorem guarded_trade {s : State} (h : s.Guarded) (close : Float) :
    (s.trade close).1.Guarded ∧ Signal.AllFinite (s.trade close).2 := by
  unfold State.trade
  split
  · exact ⟨guarded_leave h, Signal.allFinite_sure _⟩
  split
  · dsimp only
    split
    · exact ⟨⟨h.bias, h.last⟩, Signal.allFinite_none⟩
    · rename_i hgrown
      -- the cut leaves no other infinity than the negative one, which has not grown
      have hfinite := Number.isFinite_of_not_lt h.last h.bias hgrown
      refine ⟨⟨h.bias, hfinite⟩, ?_⟩
      rintro s ⟨⟩
      exact hfinite
  split
  · exact ⟨guarded_leave h, Signal.allFinite_sure _⟩
  · exact ⟨h, Signal.allFinite_none⟩

theorem guarded_update {s : State} (h : s.Guarded) (c : Candle) :
    (s.update c).1.Guarded ∧ Signal.AllFinite (s.update c).2 := by
  have hadvance := guarded_advance h c
  rw [State.update]
  generalize s.advance c = advanced at hadvance ⊢
  obtain ⟨s', begun⟩ := advanced
  cases begun with
  | false => exact ⟨hadvance, Signal.allFinite_none⟩
  | true => exact guarded_trade hadvance c.close

end SuperTrend

theorem Turtle.exists_sure {s : Turtle.State} {c : Candle} {g : Signal}
    (h : (s.update c).2 = some g) : ∃ kind, g = .sure kind := by
  rw [Turtle.State.update] at h
  dsimp only at h
  cases hbreakout : (s.advance c).2 with
  | none =>
      rw [hbreakout] at h
      cases h
  | some breakout =>
      rw [hbreakout, Option.bind_some, Turtle.State.signal?] at h
      split at h
      · cases h
      split at h
      · cases h
        exact ⟨_, rfl⟩
      split at h
      · cases h
        exact ⟨_, rfl⟩
      · cases h
        exact ⟨_, rfl⟩

theorem Aldo.exists_sure {s : Aldo.State} {c : Candle} {g : Signal} (h : (s.update c).2 = some g) :
    ∃ kind, g = .sure kind := by
  unfold Aldo.State.update at h
  dsimp only at h
  split at h
  · cases h
  · unfold Aldo.Extrema.signal? at h
    dsimp only at h
    split at h
    · cases h
      exact ⟨_, rfl⟩
    split at h
    · cases h
      exact ⟨_, rfl⟩
    · cases h

theorem Turtle.allFinite_update (s : Turtle.State) (c : Candle) :
    Signal.AllFinite (s.update c).2 := by
  intro g hg
  obtain ⟨kind, rfl⟩ := exists_sure hg
  exact Signal.allFinite_sure kind _ rfl

theorem Aldo.allFinite_update (s : Aldo.State) (c : Candle) : Signal.AllFinite (s.update c).2 := by
  intro g hg
  obtain ⟨kind, rfl⟩ := exists_sure hg
  exact Signal.allFinite_sure kind _ rfl

namespace Agreement

structure State.Guarded (s : State) : Prop where
  superTrend : s.superTrend.Guarded
  signal : Signal.AllFinite s.superTrendSignal

theorem guarded_of_savable {s : State} (h : Savable s) : s.Guarded := by
  obtain ⟨⟨-, hsignal, -⟩, hsuperTrend, -⟩ := savable_iff_own.1 h
  refine ⟨SuperTrend.guarded_of_savable hsuperTrend, fun g hg => ?_⟩
  exact (hsignal g hg).finite _ (by simp [Recorded.plain])

theorem guarded_preload {s : State} (h : s.Guarded) (c : Candle) : (s.preload c).Guarded :=
  ⟨SuperTrend.guarded_advance h.superTrend c, h.signal⟩

theorem allFinite_latch {replace : Bool} {new old : Option Signal} (hnew : Signal.AllFinite new)
    (hold : Signal.AllFinite old) : Signal.AllFinite (latch replace new old) := by
  unfold latch
  split
  · exact hnew
  · cases new with
    | none => exact hold
    | some g => exact hnew

theorem allFinite_agreed? {s : State} (h : Signal.AllFinite s.superTrendSignal) :
    Signal.AllFinite s.agreed? := by
  unfold State.agreed?
  split
  · rename_i a b ha hb
    rw [ha] at h
    split
    · exact h
    · exact Signal.allFinite_none
  · exact Signal.allFinite_none

theorem guarded_update {s : State} (h : s.Guarded) (c : Candle) :
    (s.update c).1.Guarded ∧ Signal.AllFinite (s.update c).2 := by
  obtain ⟨hsuperTrend, hsignal⟩ := SuperTrend.guarded_update h.superTrend c
  have hguarded : (s.update c).1.Guarded := ⟨hsuperTrend, allFinite_latch hsignal h.signal⟩
  exact ⟨hguarded, allFinite_agreed? hguarded.signal⟩

end Agreement

namespace Strategy

/-- Whatever candles come, the next signal has a finite confidence. -/
def Guarded : Strategy → Prop
  | superTrend s => s.Guarded
  | turtle _ => True
  | aldo _ => True
  | agreement s => s.Guarded

theorem guarded_of_savable {s : Strategy} (h : Savable s) : s.Guarded := by
  cases s with
  | superTrend s => exact SuperTrend.guarded_of_savable ((wraps_superTrend.savable_iff s).1 h)
  | turtle s => exact trivial
  | aldo s => exact trivial
  | agreement s => exact Agreement.guarded_of_savable ((wraps_agreement.savable_iff s).1 h)

theorem guarded_preload {s : Strategy} (h : s.Guarded) (c : Candle) : (s.preload c).Guarded := by
  cases s with
  | superTrend s => exact SuperTrend.guarded_advance h c
  | turtle s => exact trivial
  | aldo s => exact trivial
  | agreement s => exact Agreement.guarded_preload h c

theorem guarded_update {s : Strategy} (h : s.Guarded) (c : Candle) :
    (s.update c).1.Guarded ∧ Signal.AllFinite (s.update c).2 := by
  cases s with
  | superTrend s => exact SuperTrend.guarded_update h c
  | turtle s => exact ⟨trivial, Turtle.allFinite_update s c⟩
  | aldo s => exact ⟨trivial, Aldo.allFinite_update s c⟩
  | agreement s => exact Agreement.guarded_update h c

end Strategy

end SignalEngine
