import SignalEngine.Proofs.Checkpoint.Loaded

namespace SignalEngine

open Json (Codec Fields)

/-- A component with the exact condition under which its own checkpoint is loaded, be it with a
loss. -/
class Reporting (σ : Type) [Persistent σ] [Recorded σ] [Faithful σ] where
  /-- The part of the state that a restore checks can be saved. -/
  Reported : σ → Prop
  exists_load_iff {t s : σ} : Sound s → Faithful.Fits t s →
    ((∃ s', Persistent.load t (checkpoint s) = .ok s') ↔ Reported s)

export Reporting (Reported exists_load_iff)

section OfCodec

variable {σ : Type} [Persistent σ] [Recorded σ] [Faithful σ] {n : Nat}

/-- A component whose checkpoint is its record. -/
@[reducible] def Reporting.ofCodec (kind : String) (codec : Codec σ)
    (hcheckpoint : ∀ s : σ, checkpoint s = codec.encode s)
    (hload : ∀ (t : σ) text, Persistent.load t text = readRecord kind codec text)
    (hreads : ∀ {s : σ}, Sound s → codec.ReadsBackIff n s (Savable s)) (hn : n ≤ Json.maxDepth) :
    Reporting σ where
  Reported := Savable
  exists_load_iff {t s} hs _ := by
    rw [hload, hcheckpoint]
    constructor
    · rintro ⟨s', h⟩
      exact (eq_of_readRecord_encode (hreads hs) hn h).1
    · exact fun h => ⟨s, readRecord_encode kind (hreads hs) hn h⟩

/-- A component that keeps its state when a text is malformed. -/
@[reducible] def Reporting.ofCodecOrKeep (kind : String) (codec : Codec σ)
    (hok : ∀ {t : σ} {text new}, readRecord kind codec text = .ok new →
      Persistent.load t text = .ok new)
    (hkeep : ∀ {t : σ} {text e}, readRecord kind codec text = .error e →
      Persistent.load t text = .ok t) : Reporting σ where
  Reported _ := True
  exists_load_iff {t s} _ _ := by
    refine iff_of_true ?_ trivial
    cases hread : readRecord kind codec (checkpoint s) with
    | ok new => exact ⟨new, hok hread⟩
    | error e => exact ⟨t, hkeep hread⟩

end OfCodec

theorem Wraps.exists_load_iff {σ τ : Type} [Persistent σ] [Recorded σ] [Persistent τ] [Recorded τ]
    [Faithful σ] [Reporting σ] {wrap : σ → τ} (h : Wraps wrap) {t s : σ} (hs : Sound s)
    (hfits : Faithful.Fits t s) :
    (∃ s', Persistent.load (wrap t) (checkpoint (wrap s)) = .ok s') ↔ Reported s := by
  rw [h.load_eq, h.checkpoint_eq, ← Reporting.exists_load_iff hs hfits]
  constructor
  · rintro ⟨s', hload⟩
    obtain ⟨s', hs', rfl⟩ := map_eq_ok.1 hload
    exact ⟨s', hs'⟩
  · rintro ⟨s', hload⟩
    exact ⟨wrap s', map_eq_ok.2 ⟨s', hload, rfl⟩⟩

instance : Reporting Sma :=
  .ofCodecOrKeep "SMA" Sma.codec Sma.savedOrKept.load_ok Sma.savedOrKept.load_error

instance : Reporting Atr :=
  .ofCodecOrKeep "ATR" Atr.codec Atr.savedOrKept.load_ok Atr.savedOrKept.load_error

instance : Reporting Ema :=
  .ofCodec "EMA" Ema.codec Ema.savedAs.checkpoint_eq Ema.savedAs.load_eq
    (fun _ => Ema.readsBackIff_codec _) one_le_maxDepth

instance : Reporting Cci :=
  .ofCodec "CCI" Cci.codec Cci.savedAs.checkpoint_eq Cci.savedAs.load_eq Cci.readsBackIff_codec
    two_le_maxDepth

instance : Reporting Smma where
  Reported s := s.period < 2 ^ 64 ∧ s.age < 2 ^ 64 ∧ s.value.isFinite = true
  exists_load_iff {t s} hs _ := by
    have hreads := Smma.readsBackIff_savedCodec s.saved
    constructor
    · rintro ⟨s', h⟩
      obtain ⟨r, hread, -, -⟩ := Smma.load_eq_ok.1 h
      exact (eq_of_readRecord_encode hreads one_le_maxDepth hread).1
    · intro hown
      have hread := readRecord_encode "SMMA" hreads one_le_maxDepth hown
      have hfresh : Faithful.Fits (Sma.fresh s.period) s.sma := trivial
      obtain ⟨sma, hsma⟩ := (exists_load_iff hs.2 hfresh).2 trivial
      exact ⟨_, Smma.load_eq_ok.2 ⟨s.saved, hread, hs.1.ne', sma, hsma, rfl⟩⟩

namespace Rsi

/-- A price that is not finite is written as a missing one. -/
theorem write_filter (o : Option Float) :
    Codec.real.option.write (o.filter Float.isFinite) = Codec.real.option.write o := by
  cases o with
  | none => rfl
  | some x =>
      cases hx : x.isFinite with
      | true => simp only [Option.filter_some, hx, if_true]
      | false =>
          simp only [Option.filter_some, hx, Bool.false_eq_true, if_false, Codec.option, Codec.real]

theorem encode_filter (r : Saved) :
    savedCodec.encode { r with lastPrice := r.lastPrice.filter Float.isFinite } =
      savedCodec.encode r := by
  have hwrite := write_filter r.lastPrice
  simp only [Codec.encode, savedCodec, Codec.record, fields, Fields.required, Fields.optional,
    Fields.memberTexts_cons, hwrite]

instance : Reporting Rsi where
  Reported s := s.saved.Own ∧ Reported s.up ∧ Reported s.down
  exists_load_iff {t s} hs _ := by
    have hkept : ∀ x ∈ s.lastPrice.filter Float.isFinite, x.isFinite = true := by
      intro x hx
      exact (Option.filter_eq_some_iff.1 hx).2
    have hreads := readsBackIff_savedCodec
      (r := { s.saved with lastPrice := s.lastPrice.filter Float.isFinite }) hkept
    -- the record is read as that of a state which never had the lost price
    have htext : checkpoint s = savedCodec.encode _ := (encode_filter s.saved).symm
    rw [htext]
    constructor
    · rintro ⟨s', h⟩
      obtain ⟨r, hread, up, hup, down, hdown, -⟩ := load_eq_ok.1 h
      obtain ⟨hown, rfl⟩ := eq_of_readRecord_encode hreads one_le_maxDepth hread
      dsimp only [saved] at hup hdown
      exact ⟨hown, (exists_load_iff hs.1 trivial).1 ⟨up, hup⟩,
        (exists_load_iff hs.2 trivial).1 ⟨down, hdown⟩⟩
    · rintro ⟨hown, hup, hdown⟩
      have hread := readRecord_encode "RSI" hreads one_le_maxDepth hown
      obtain ⟨up, hup⟩ := (exists_load_iff (t := t.up) hs.1 trivial).2 hup
      obtain ⟨down, hdown⟩ := (exists_load_iff (t := t.down) hs.2 trivial).2 hdown
      exact ⟨_, load_eq_ok.2 ⟨_, hread, up, hup, down, hdown, rfl⟩⟩

end Rsi

instance : Reporting Macd where
  Reported s :=
    s.value.isFinite = true ∧ Reported s.fast ∧ Reported s.slow ∧ Reported s.signal
  exists_load_iff {t s} _ _ := by
    have hreads := Macd.readsBackIff_savedCodec s.saved
    constructor
    · rintro ⟨s', h⟩
      obtain ⟨r, hread, fast, hfast, slow, hslow, signal, hsignal, -⟩ := Macd.load_eq_ok.1 h
      obtain ⟨hvalue, rfl⟩ := eq_of_readRecord_encode hreads one_le_maxDepth hread
      dsimp only [Macd.saved] at hfast hslow hsignal
      exact ⟨hvalue, (exists_load_iff trivial trivial).1 ⟨fast, hfast⟩,
        (exists_load_iff trivial trivial).1 ⟨slow, hslow⟩,
        (exists_load_iff trivial trivial).1 ⟨signal, hsignal⟩⟩
    · rintro ⟨hvalue, hfast, hslow, hsignal⟩
      have hread := readRecord_encode "MACD" hreads one_le_maxDepth hvalue
      obtain ⟨fast, hfast⟩ := (exists_load_iff (t := t.fast) trivial trivial).2 hfast
      obtain ⟨slow, hslow⟩ := (exists_load_iff (t := t.slow) trivial trivial).2 hslow
      obtain ⟨signal, hsignal⟩ := (exists_load_iff (t := t.signal) trivial trivial).2 hsignal
      exact ⟨_, Macd.load_eq_ok.2 ⟨s.saved, hread, fast, hfast, slow, hslow, signal, hsignal, rfl⟩⟩

namespace Indicator

/-- The report on the indicator that it is. -/
def Told : Indicator → Prop
  | sma s => Reported s
  | ema s => Reported s
  | smma s => Reported s
  | rsi s => Reported s
  | cci s => Reported s
  | atr s => Reported s
  | macd s => Reported s

instance : Reporting Indicator where
  Reported := Told
  exists_load_iff hs hfits := by
    cases hfits with
    | sma t s => exact wraps_sma.exists_load_iff hs trivial
    | ema t s => exact wraps_ema.exists_load_iff hs trivial
    | smma t s => exact wraps_smma.exists_load_iff hs trivial
    | rsi t s => exact wraps_rsi.exists_load_iff hs trivial
    | cci t s => exact wraps_cci.exists_load_iff hs trivial
    | atr t s => exact wraps_atr.exists_load_iff hs trivial
    | macd t s => exact wraps_macd.exists_load_iff hs trivial

end Indicator

instance : Reporting StopLoss :=
  .ofCodec "TrailingStopLoss" StopLoss.codec StopLoss.savedAs.checkpoint_eq
    StopLoss.savedAs.load_eq (fun _ => StopLoss.readsBackIff_codec _) one_le_maxDepth

instance : Reporting SuperTrend.State where
  Reported s := s.saved.Own ∧ Reported s.stop ∧ Reported s.range
  exists_load_iff {t s} hs _ := by
    have hreads := SuperTrend.readsBackIff_savedCodec s.saved
    constructor
    · rintro ⟨s', h⟩
      obtain ⟨r, hread, -, stop, hstop, range, hrange, -⟩ := SuperTrend.load_eq_ok.1 h
      obtain ⟨hown, rfl⟩ := eq_of_readRecord_encode hreads two_le_maxDepth hread
      dsimp only [SuperTrend.State.saved] at hstop hrange
      exact ⟨hown, (exists_load_iff trivial trivial).1 ⟨stop, hstop⟩,
        (exists_load_iff hs.2 trivial).1 ⟨range, hrange⟩⟩
    · rintro ⟨hown, hstop, hrange⟩
      have hread := readRecord_encode SuperTrend.name hreads two_le_maxDepth hown
      obtain ⟨stop, hstop⟩ := (exists_load_iff trivial trivial).2 hstop
      obtain ⟨range, hrange⟩ := (exists_load_iff hs.2 trivial).2 hrange
      exact ⟨_, SuperTrend.load_eq_ok.2 ⟨s.saved, hread, hs.1, stop, hstop, range, hrange, rfl⟩⟩

instance : Reporting Turtle.State where
  Reported s := s.saved.Own ∧ Reported s.filter
  exists_load_iff {t s} hs _ := by
    obtain ⟨hvalid, hcloses, hfilter⟩ := hs
    have hpos : 0 < s.closes.capacity := hcloses ▸ Turtle.Config.longestChannel_pos hvalid
    have hreads := Turtle.readsBackIff_savedCodec (r := s.saved) hpos
    constructor
    · rintro ⟨s', h⟩
      obtain ⟨r, hread, -, -, filter, hload, -⟩ := Turtle.load_eq_ok.1 h
      obtain ⟨hown, rfl⟩ := eq_of_readRecord_encode hreads two_le_maxDepth hread
      dsimp only [Turtle.State.saved] at hload
      exact ⟨hown, (exists_load_iff hfilter trivial).1 ⟨filter, hload⟩⟩
    · rintro ⟨hown, hreported⟩
      have hread := readRecord_encode Turtle.name hreads two_le_maxDepth hown
      obtain ⟨filter, hload⟩ := (exists_load_iff hfilter trivial).2 hreported
      exact ⟨_, Turtle.load_eq_ok.2 ⟨s.saved, hread, hvalid, hcloses, filter, hload, rfl⟩⟩

namespace Aldo

def Oscillator.Told : Oscillator → Prop
  | .cci s => Reported s
  | .rsi s => Reported s
  | .macd s => Reported s

instance : Reporting Oscillator where
  Reported := Oscillator.Told
  exists_load_iff hs hfits := by
    cases hfits with
    | cci t s => exact Oscillator.wraps_cci.exists_load_iff hs trivial
    | rsi t s => exact Oscillator.wraps_rsi.exists_load_iff hs trivial
    | macd t s => exact Oscillator.wraps_macd.exists_load_iff hs trivial

instance : Reporting State where
  Reported s := s.saved.Own ∧ Reported s.oscillator
  exists_load_iff {t s} hs _ := by
    have hreads := readsBackIff_savedCodec (Config.period_pos hs.config) hs.windowsFit
    constructor
    · rintro ⟨s', h⟩
      obtain ⟨r, hread, -, -, oscillator, hload, -⟩ := load_eq_ok.1 h
      obtain ⟨hown, rfl⟩ := eq_of_readRecord_encode hreads two_le_maxDepth hread
      dsimp only [State.saved] at hload
      exact ⟨hown, (exists_load_iff hs.oscillator hs.sameKind).1 ⟨oscillator, hload⟩⟩
    · rintro ⟨hown, hreported⟩
      have hread := readRecord_encode name hreads two_le_maxDepth hown
      obtain ⟨oscillator, hload⟩ := (exists_load_iff hs.oscillator hs.sameKind).2 hreported
      exact ⟨_, load_eq_ok.2 ⟨s.saved, hread, hs.config, hs.windowsFit, oscillator, hload, rfl⟩⟩

end Aldo

instance : Reporting Agreement.State where
  Reported s := s.saved.Own ∧ Reported s.superTrend ∧ Reported s.turtle
  exists_load_iff {t s} hs _ := by
    obtain ⟨hvalid, hsuperTrend, hturtle⟩ := hs
    have hreads := Agreement.readsBackIff_savedCodec s.saved
    constructor
    · rintro ⟨s', h⟩
      obtain ⟨r, hread, -, trend, htrend, breakout, hbreakout, -⟩ := Agreement.load_eq_ok.1 h
      obtain ⟨hown, rfl⟩ := eq_of_readRecord_encode hreads two_le_maxDepth hread
      dsimp only [Agreement.State.saved] at htrend hbreakout
      exact ⟨hown, (exists_load_iff hsuperTrend trivial).1 ⟨trend, htrend⟩,
        (exists_load_iff hturtle trivial).1 ⟨breakout, hbreakout⟩⟩
    · rintro ⟨hown, htold, htold'⟩
      have hread := readRecord_encode Agreement.name hreads two_le_maxDepth hown
      obtain ⟨trend, htrend⟩ := (exists_load_iff hsuperTrend trivial).2 htold
      obtain ⟨breakout, hbreakout⟩ := (exists_load_iff hturtle trivial).2 htold'
      exact ⟨_, Agreement.load_eq_ok.2
        ⟨s.saved, hread, hvalid, trend, htrend, breakout, hbreakout, rfl⟩⟩

namespace Strategy

def Told : Strategy → Prop
  | superTrend s => Reported s
  | turtle s => Reported s
  | aldo s => Reported s
  | agreement s => Reported s

instance : Reporting Strategy where
  Reported := Told
  exists_load_iff hs hfits := by
    cases hfits with
    | superTrend t s => exact wraps_superTrend.exists_load_iff hs trivial
    | turtle t s => exact wraps_turtle.exists_load_iff hs trivial
    | aldo t s => exact wraps_aldo.exists_load_iff hs trivial
    | agreement t s => exact wraps_agreement.exists_load_iff hs trivial

end Strategy

end SignalEngine
