import SignalEngine.Proofs.Checkpoint.Reported
import SignalEngine.Proofs.Checkpoint.Target

/-!
What a checkpoint loses without a word. A sum of finite prices may overflow, and an infinite number
is written in a form that is not read again. The simple average and the average range pass over such
a text, alone or inside another component, and then report success with a state that is not the one
that was saved.
-/

namespace SignalEngine

section Honest

variable {σ : Type} [Persistent σ] [Recorded σ] [Faithful σ]

/-- Whenever a restore of the checkpoint reports success, the target has become the state. -/
def Honest (s : σ) : Prop :=
  ∀ t : σ, Faithful.Fits t s → (restore t (checkpoint s)).error = none →
    (restore t (checkpoint s)).state = s

variable [Reporting σ] [Reloadable σ]

/-- It takes one target to tell, if that could be saved itself: what it becomes can be saved too. -/
theorem honest_iff {t s : σ} (hs : Sound s) (hfits : Faithful.Fits t s) (ht : Savable t) :
    Honest s ↔ (Reported s → Savable s) := by
  constructor
  · intro h hreported
    obtain ⟨s', hload⟩ := (exists_load_iff hs hfits).2 hreported
    have hstate := h t hfits
    rw [restore_of_load_ok hload] at hstate
    -- the state itself was loaded, and whatever is loaded can be saved
    obtain rfl : s' = s := hstate rfl
    exact savable_loaded ht hload
  · intro h t' hfits' herror
    cases hload : Persistent.load t' (checkpoint s) with
    | error e =>
        rw [restore_of_load_error hload] at herror
        cases herror
    | ok s' =>
        have hsave := h ((exists_load_iff hs hfits').1 ⟨s', hload⟩)
        rw [restore_of_sound hs hfits' hsave]

end Honest

namespace Indicator

instance : Reloadable Indicator where
  savable_loaded {t s text} ht h := by
    cases t with
    | sma t => exact wraps_sma.savable_loaded ht h
    | ema t => exact wraps_ema.savable_loaded ht h
    | smma t => exact wraps_smma.savable_loaded ht h
    | rsi t => exact wraps_rsi.savable_loaded ht h
    | cci t => exact wraps_cci.savable_loaded ht h
    | atr t => exact wraps_atr.savable_loaded ht h
    | macd t => exact wraps_macd.savable_loaded ht h

/-- There is an indicator of every kind that can be saved. -/
theorem exists_sameKind (i : Indicator) : ∃ t : Indicator, SameKind t i ∧ Savable t := by
  cases i with
  | sma s => exact ⟨_, .sma (.fresh 1) s, savable_iff.2 (by decide)⟩
  | ema s => exact ⟨_, .ema (.fresh 1) s, savable_iff.2 (by decide)⟩
  | smma s => exact ⟨_, .smma (.fresh 1) s, savable_iff.2 (by decide)⟩
  | rsi s => exact ⟨_, .rsi (.fresh 1) s, savable_iff.2 (by decide)⟩
  | cci s => exact ⟨_, .cci (.fresh 1) s, savable_iff.2 (by decide)⟩
  | atr s => exact ⟨_, .atr (.fresh 1) s, savable_iff.2 (by decide)⟩
  | macd s => exact ⟨_, .macd (.fresh 1 1 1) s, savable_iff.2 (by decide)⟩

end Indicator

/-- The report on a restore of the own checkpoint is true of a state just when its simple averages,
its average ranges and its last prices can be saved, or something else of it cannot, for then no
success is reported. -/
theorem honest_iff_savable {i : Indicator} {s : Strategy} (hi : i.Reached) (hs : s.Reached) :
    (Honest i ↔ (Reported i → Savable i)) ∧ (Honest s ↔ (Reported s → Savable s)) := by
  obtain ⟨u, hkind, hu⟩ := i.exists_sameKind
  obtain ⟨t, hname, -, ht⟩ := Strategy.exists_savable s
  exact ⟨honest_iff hi.sound hkind hu, honest_iff hs.sound (Strategy.sameKind_of_name hname) ht⟩

/-- A sum that has overflowed is lost without a word, and a strategy whose prices rise comes back
whole. -/
theorem honest_iff_savable_rising :
    let sum := ((Indicator.sma (.fresh 2)).update (.ofClose 1.7e308)).update (.ofClose 1.7e308)
    let fresh := Strategy.superTrend (.fresh { SuperTrend.Config.standard with rangePeriod := 1 })
    let trend := (fresh.update (.ofPrices 0 2.0 3.0 1.0 3.0 0.0)).1
    ¬ Honest sum ∧ Honest trend := by
  intro sum fresh trend
  have hperiod : (Indicator.sma (.fresh 2)).Reached := @Indicator.Reached.sma 2 _ rfl
  have hsum : sum.Reached := (hperiod.update _).update _
  have hfresh : fresh.Reached := .superTrend rfl
  have htrend : trend.Reached := hfresh.update _
  obtain ⟨hhonest, hhonest'⟩ := honest_iff_savable hsum htrend
  constructor
  · intro h
    have hsave : Savable sum := hhonest.1 h trivial
    exact absurd hsave.finite (by decide +kernel)
  · have hsave : Savable trend := savable_iff.2 (by decide +kernel)
    exact hhonest'.2 fun _ => hsave

theorem Sma.restore_checkpoint_of_not_savable (t : Sma) {s : Sma} (h : Sound s)
    (hsave : ¬ Savable s) : restore t (checkpoint s) = ⟨t, none⟩ := by
  obtain ⟨e, he⟩ :=
    Json.Codec.decode_encode_error ((Sma.readsBackIff_codec h).refuses hsave) two_le_maxDepth
  have htext : checkpoint s = Sma.codec.encode s := rfl
  rw [htext, t.restore_eq, readOr, he]

/-- A filter that cannot be saved is one that has seen nothing after the restore. -/
theorem Turtle.restore_checkpoint_of_not_savable (t : Turtle.State) {s : Turtle.State}
    (hs : Sound s) (hown : s.saved.Own) (hfilter : ¬ Savable s.filter) :
    restore t (checkpoint s) = ⟨{ s with filter := Sma.fresh s.config.filterPeriod }, none⟩ := by
  obtain ⟨hvalid, hcloses, hslots⟩ := hs
  have hpos : 0 < s.closes.capacity := hcloses ▸ Turtle.Config.longestChannel_pos hvalid
  have hread := readRecord_encode Turtle.name (Turtle.readsBackIff_savedCodec (r := s.saved) hpos)
    (by decide) hown
  have hkept := (Sma.fresh s.config.filterPeriod).restore_checkpoint_of_not_savable hslots hfilter
  exact restore_of_load_ok <|
    Turtle.load_eq_ok.2 ⟨s.saved, hread, hvalid, hcloses, _, load_of_restore hkept, rfl⟩

/-- Two finite prices overflow the sum of a simple average. The restore reports success, and the
average is still the one of another period; the breakout strategy has a filter that has seen
nothing. -/
theorem not_restored_overflow :
    let candle := Candle.ofClose 1.7e308
    let config : Turtle.Config := ⟨1, 1, 1, 1, 2⟩
    let sum := ((Sma.fresh 2).update candle).update candle
    let breakout := (((Turtle.State.fresh config).update candle).1.update candle).1
    candle.isFinite = true ∧ config.validate = .ok () ∧
      (restore (Sma.fresh 3) (checkpoint sum)).error = none ∧
      (restore (Sma.fresh 3) (checkpoint sum)).state ≠ sum ∧
      (restore breakout (checkpoint breakout)).error = none ∧
      (restore breakout (checkpoint breakout)).state ≠ breakout := by
  intro candle config sum breakout
  have hsum : Sound sum := Sma.sound_update (Sma.sound_update (Sma.sound_fresh (by decide)) _) _
  have hsumSave : ¬ Savable sum := fun h => absurd h.finite (by decide +kernel)
  have hstep (s : Turtle.State) (h : Sound s) : Sound (s.update candle).1 :=
    Turtle.valid_advance h candle
  have hbreakout : Sound breakout := hstep _ (hstep _ (Turtle.valid_fresh rfl))
  have hown : breakout.saved.Own := ⟨savable_iff.2 (by decide +kernel), by decide +kernel⟩
  have hfilterSave : ¬ Savable breakout.filter := fun h => absurd h.finite (by decide +kernel)
  have hkept := (Sma.fresh 3).restore_checkpoint_of_not_savable hsum hsumSave
  have hlost := Turtle.restore_checkpoint_of_not_savable breakout hbreakout hown hfilterSave
  refine ⟨by decide +kernel, rfl, congrArg Restored.error hkept, ?_,
    congrArg Restored.error hlost, ?_⟩
  · intro h
    have hperiod := congrArg Sma.period ((congrArg Restored.state hkept).symm.trans h)
    exact absurd hperiod (by decide +kernel)
  · intro h
    have hage := congrArg (·.filter.age) ((congrArg Restored.state hlost).symm.trans h)
    exact absurd hage (by decide +kernel)

end SignalEngine
