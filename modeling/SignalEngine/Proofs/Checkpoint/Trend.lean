import SignalEngine.Proofs.Checkpoint.Indicator
import SignalEngine.Strategy.SuperTrend
import SignalEngine.Strategy.Turtle

namespace SignalEngine

open Json (Codec Fields)
open Json.Codec (readsBackIff_count readsBackIff_real readsBackIff_text readsBackIff_boolean
  yields_true)

theorem acceptConfig_eq_ok {kind : String} {validity : Except ConfigFault Unit} {u : Unit} :
    acceptConfig kind validity = .ok u ↔ validity = .ok () := by
  cases validity with
  | ok u => exact ⟨fun _ => rfl, fun _ => rfl⟩
  | error fault => exact ⟨nofun, nofun⟩

namespace StopLoss

instance : Recorded StopLoss where
  plain s := [s.percentage, s.reference, s.stopPrice]
  counts _ := []

theorem readsBackIff_codec (s : StopLoss) : StopLoss.codec.ReadsBackIff 1 s (Savable s) := by
  have hfields : StopLoss.fields.ReadsBackIff 0
      (s.percentage, s.reference, s.stopPrice, s.active, ()) _ :=
    .required _ (readsBackIff_real _) <| .required _ (readsBackIff_real _) <|
      .required _ (readsBackIff_real _) <| .required _ (readsBackIff_boolean _) .nil
  have hrecord : StopLoss.codec.ReadsBackIff 1 s _ := .record _ hfields (by decide) rfl
  apply hrecord.congr
  simp only [savable_iff, Recorded.plain, Recorded.counts, Recorded.codes, List.forall_mem_cons,
    List.not_mem_nil]
  tauto

theorem savedAs : SavedAs "TrailingStopLoss" StopLoss.codec where
  checkpoint_eq _ := rfl
  load_eq _ _ := rfl

instance : Faithful StopLoss :=
  .ofCodec (fun _ => True) "TrailingStopLoss" StopLoss.codec savedAs.checkpoint_eq savedAs.load_eq
    (fun _ => readsBackIff_codec _) one_le_maxDepth (yields_true _)

theorem savable_fresh {percentage : Float} (h : percentage.isFinite = true) :
    Savable (StopLoss.fresh percentage) := by
  refine ⟨?_, by simp [Recorded.counts], by simp [Recorded.codes]⟩
  simpa [Recorded.plain, StopLoss.fresh, isFinite_zero] using h

end StopLoss

namespace SuperTrend

instance : Recorded Config where
  plain c := [c.bandFactor, c.trailingStop, c.confidenceMultiplier, c.confidenceBias]
  counts c := [c.rangePeriod]

theorem Config.readsBackIff_fields (c : Config) :
    Config.fields.ReadsBackIff 0 c.parts (Savable c) := by
  have hfields : Config.fields.ReadsBackIff 0 (c.rangePeriod, c.bandFactor, c.trailingStop,
      c.confidenceMultiplier, c.confidenceBias, ()) _ :=
    .defaulted _ _ (readsBackIff_count _) <| .defaulted _ _ (readsBackIff_real _) <|
      .defaulted _ _ (readsBackIff_real _) <| .defaulted _ _ (readsBackIff_real _) <|
      .defaulted _ _ (readsBackIff_real _) .nil
  apply hfields.congr
  simp only [savable_iff, Recorded.plain, Recorded.counts, Recorded.codes, List.forall_mem_cons,
    List.not_mem_nil]
  tauto

theorem Config.readsBackIff_codec (c : Config) : Config.codec.ReadsBackIff 1 c (Savable c) :=
  .record _ c.readsBackIff_fields (by decide) rfl

instance : Recorded Bands where
  plain b := [b.upperBasic, b.lowerBasic, b.upper, b.lower, b.line]
  counts _ := []

theorem Bands.readsBackIff_codec (b : Bands) : Bands.codec.ReadsBackIff 1 b (Savable b) := by
  have hfields : Bands.fields.ReadsBackIff 0
      (b.upperBasic, b.lowerBasic, b.upper, b.lower, b.line, ()) _ :=
    .required _ (readsBackIff_real _) <| .required _ (readsBackIff_real _) <|
      .required _ (readsBackIff_real _) <| .required _ (readsBackIff_real _) <|
      .required _ (readsBackIff_real _) .nil
  have hrecord : Bands.codec.ReadsBackIff 1 b _ := .record _ hfields (by decide) rfl
  apply hrecord.congr
  simp only [savable_iff, Recorded.plain, Recorded.counts, Recorded.codes, List.forall_mem_cons,
    List.not_mem_nil]
  tauto

instance : Recorded State where
  plain s := s.lastClose :: s.confidence :: s.lastBuyConfidence :: (Recorded.plain s.config ++
    Recorded.plain s.bands ++ Recorded.plain s.stop ++ Recorded.plain s.range)
  counts s := s.age :: (Recorded.counts s.config ++ Recorded.counts s.range)

def Saved.Own (r : Saved) : Prop :=
  Savable r.config ∧ Savable r.bands ∧ r.lastClose.isFinite = true ∧ r.age < 2 ^ 64 ∧
    r.confidence.isFinite = true ∧ r.lastBuyConfidence.isFinite = true

theorem readsBackIff_savedCodec (r : Saved) : savedCodec.ReadsBackIff 2 r r.Own := by
  have hfields : SuperTrend.fields.ReadsBackIff 1
      (r.config, r.bands, r.lastClose, r.age, r.confidence, r.lastBuyConfidence, r.stop,
        r.range, ()) _ :=
    .required _ r.config.readsBackIff_codec <| .required _ r.bands.readsBackIff_codec <|
      .required _ (readsBackIff_real _) <| .required _ (readsBackIff_count _) <|
      .required _ (readsBackIff_real _) <| .required _ (readsBackIff_real _) <|
      .required _ (readsBackIff_text _) <| .required _ (readsBackIff_text _) .nil
  have hrecord : savedCodec.ReadsBackIff 2 r _ := .record _ hfields (by decide) rfl
  apply hrecord.congr
  unfold Saved.Own
  tauto

theorem savable_iff_own {s : State} :
    Savable s ↔ s.saved.Own ∧ Savable s.stop ∧ Savable s.range := by
  simp only [savable_iff, Recorded.plain, Recorded.counts, Recorded.codes, Saved.Own, State.saved,
    List.forall_mem_cons, List.forall_mem_append, List.not_mem_nil]
  tauto

theorem load_eq_ok {t s : State} {text : String} :
    Persistent.load t text = .ok s ↔ ∃ r, readRecord name savedCodec text = .ok r ∧
      r.config.validate = .ok () ∧
      ∃ stop, Persistent.load (StopLoss.fresh r.config.trailingStop) r.stop = .ok stop ∧
      ∃ range, Persistent.load (Atr.fresh r.config.rangePeriod) r.range = .ok range ∧
        s = ⟨r.config, range, stop, r.bands, r.lastClose, r.age, r.confidence,
          r.lastBuyConfidence⟩ := by
  simp only [Persistent.load, bind_eq_ok, acceptConfig_eq_ok, pure, Except.pure, Except.ok.injEq,
    exists_const, State.fresh, eq_comm (a := s)]

/-- The settings are valid, and the average range has its slots. -/
def State.Valid (s : State) : Prop :=
  s.config.validate = .ok () ∧ Sound s.range

theorem Config.rangePeriod_pos {c : Config} (h : c.validate = .ok ()) : 0 < c.rangePeriod := by
  by_contra hzero
  rw [Config.validate, if_pos (by omega)] at h
  cases h

theorem Bands.savable_zero : Savable Bands.zero :=
  ⟨by simp [Recorded.plain, Bands.zero, isFinite_zero], nofun, nofun⟩

theorem savable_fresh {c : Config} (h : Savable c) : Savable (State.fresh c) := by
  have hperiod : c.rangePeriod < 2 ^ 64 := h.counted _ (List.mem_singleton.2 rfl)
  have htrailing : c.trailingStop.isFinite = true :=
    h.finite _ (List.mem_cons_of_mem _ List.mem_cons_self)
  have hown : (State.fresh c).saved.Own :=
    ⟨h, Bands.savable_zero, isFinite_zero, Nat.two_pow_pos 64, isFinite_zero, isFinite_zero⟩
  exact savable_iff_own.2 ⟨hown, StopLoss.savable_fresh htrailing, Atr.savable_fresh hperiod⟩

instance : Faithful State where
  Sound := State.Valid
  load_checkpoint {t s} hs _ hsave := by
    obtain ⟨hown, hstop, hrange⟩ := savable_iff_own.1 hsave
    have hread := readRecord_encode name (readsBackIff_savedCodec s.saved) (by decide) hown
    refine load_eq_ok.2 ⟨s.saved, hread, hs.1, s.stop, ?_, s.range, ?_, rfl⟩
    · exact Faithful.load_checkpoint trivial trivial hstop
    · dsimp only [State.saved]
      exact Faithful.load_checkpoint hs.2 trivial hrange
  savable_of_load {t s s'} _ _ hs _ _ h htext := by
    obtain ⟨r, hread, _, stop, hstop, range, hrange, rfl⟩ := load_eq_ok.1 h
    obtain ⟨hown, rfl⟩ := eq_of_readRecord_encode (readsBackIff_savedCodec s.saved)
      (by decide) hread
    have hsaved := (eq_of_encode_eq (readsBackIff_savedCodec s.saved) (by decide) hown htext
      (readsBackIff_savedCodec _)).2
    obtain ⟨-, hfreshStop, hfreshRange⟩ := savable_iff_own.1 (savable_fresh hown.1)
    dsimp only [State.saved] at hstop hrange
    refine savable_iff_own.2 ⟨hown, ?_, ?_⟩
    · exact Faithful.savable_of_load trivial hfreshStop trivial trivial trivial hstop
        (congrArg Saved.stop hsaved)
    · exact Faithful.savable_of_load
        (Atr.sound_fresh (Config.rangePeriod_pos hs.1)) hfreshRange hs.2
        trivial trivial hrange (congrArg Saved.range hsaved)
  sound_of_load _ h := by
    obtain ⟨r, _, hvalid, stop, _, range, hrange, rfl⟩ := load_eq_ok.1 h
    exact ⟨hvalid, Faithful.sound_of_load (Atr.sound_fresh (Config.rangePeriod_pos hvalid)) hrange⟩

theorem valid_fresh {c : Config} (h : c.validate = .ok ()) : (State.fresh c).Valid :=
  ⟨h, Atr.sound_fresh (Config.rangePeriod_pos h)⟩

theorem trade_frame (s : State) (close : Float) :
    (s.trade close).1.config = s.config ∧ (s.trade close).1.range = s.range := by
  unfold State.trade
  split
  · exact ⟨rfl, rfl⟩
  split
  · dsimp only
    split
    · exact ⟨rfl, rfl⟩
    · exact ⟨rfl, rfl⟩
  split
  · exact ⟨rfl, rfl⟩
  · exact ⟨rfl, rfl⟩

theorem valid_advance {s : State} (h : s.Valid) (c : Candle) : (s.advance c).1.Valid := by
  unfold State.advance
  dsimp only
  split
  · exact ⟨h.1, Atr.sound_update h.2 c⟩
  · exact ⟨h.1, Atr.sound_update h.2 c⟩

theorem valid_update {s : State} (h : s.Valid) (c : Candle) : (s.update c).1.Valid := by
  have hadvance := valid_advance h c
  rw [State.update]
  match s.advance c, hadvance with
  | (s', false), hadvance => exact hadvance
  | (s', true), hadvance =>
      obtain ⟨hconfig, hrange⟩ := trade_frame s' c.close
      constructor
      · rw [hconfig]
        exact hadvance.1
      · rw [hrange]
        exact hadvance.2

end SuperTrend

namespace Turtle

instance : Recorded Config where
  plain _ := []
  counts c := [c.enterFast, c.exitFast, c.enterSlow, c.exitSlow, c.filterPeriod]

theorem Config.readsBackIff_fields (c : Config) :
    Config.fields.ReadsBackIff 0 c.parts (Savable c) := by
  have hfields : Config.fields.ReadsBackIff 0
      (c.enterFast, c.exitFast, c.enterSlow, c.exitSlow, c.filterPeriod, ()) _ :=
    .defaulted _ _ (readsBackIff_count _) <| .defaulted _ _ (readsBackIff_count _) <|
      .defaulted _ _ (readsBackIff_count _) <| .defaulted _ _ (readsBackIff_count _) <|
      .defaulted _ _ (readsBackIff_count _) .nil
  apply hfields.congr
  simp only [savable_iff, Recorded.plain, Recorded.counts, Recorded.codes, List.forall_mem_cons,
    List.not_mem_nil]
  tauto

theorem Config.readsBackIff_codec (c : Config) : Config.codec.ReadsBackIff 1 c (Savable c) :=
  .record _ c.readsBackIff_fields (by decide) rfl

instance : Recorded State where
  plain s := Recorded.plain s.config ++ Recorded.plain s.filter
  counts s := s.age :: (Recorded.counts s.config ++ Recorded.counts s.filter)

/-- The settings are valid, the ring has a slot for every close of the longest channel, and the
filter has its slots. -/
def State.Valid (s : State) : Prop :=
  s.config.validate = .ok () ∧ s.closes.capacity = s.config.longestChannel ∧ Sound s.filter

theorem Config.longestChannel_pos {c : Config} (h : c.validate = .ok ()) :
    0 < c.longestChannel := by
  by_contra hzero
  have hle : c.enterFast ≤ c.longestChannel :=
    (le_max_left _ _).trans <| (le_max_left _ _).trans (le_max_left _ _)
  rw [Config.validate, if_pos (.inl (by omega))] at h
  cases h

theorem Config.filterPeriod_pos {c : Config} (h : c.validate = .ok ()) : 0 < c.filterPeriod := by
  by_contra hzero
  rw [Config.validate] at h
  split at h
  · cases h
  · rw [if_pos (by omega)] at h
    cases h

def Saved.Own (r : Saved) : Prop :=
  Savable r.config ∧ r.age < 2 ^ 64

theorem readsBackIff_savedCodec {r : Saved} (h : 0 < r.closes.capacity) :
    savedCodec.ReadsBackIff 2 r r.Own := by
  have hfields : Turtle.fields.ReadsBackIff 1 (r.config, r.closes, r.age, r.filter, ()) _ :=
    .required _ r.config.readsBackIff_codec <| .required _ (Window.readsBackIff_codec h) <|
      .required _ (readsBackIff_count _) <| .required _ (readsBackIff_text _) .nil
  have hrecord : savedCodec.ReadsBackIff 2 r _ := .record _ hfields (by decide) rfl
  apply hrecord.congr
  unfold Saved.Own
  tauto

theorem savable_iff_own {s : State} : Savable s ↔ s.saved.Own ∧ Savable s.filter := by
  simp only [savable_iff, Recorded.plain, Recorded.counts, Recorded.codes, Saved.Own, State.saved,
    List.forall_mem_cons, List.forall_mem_append, List.not_mem_nil]
  tauto

theorem load_eq_ok {t s : State} {text : String} :
    Persistent.load t text = .ok s ↔ ∃ r, readRecord name savedCodec text = .ok r ∧
      r.config.validate = .ok () ∧ r.closes.capacity = r.config.longestChannel ∧
      ∃ filter, Persistent.load (Sma.fresh r.config.filterPeriod) r.filter = .ok filter ∧
        s = ⟨r.config, r.closes, r.age, filter⟩ := by
  simp only [Persistent.load, bind_eq_ok, acceptConfig_eq_ok]
  apply exists_congr
  intro r
  apply and_congr_right
  intro _
  rw [exists_const]
  apply and_congr_right
  intro _
  split
  · rename_i hne
    exact ⟨nofun, fun h => absurd h.1 hne⟩
  · rename_i heq
    rw [not_not] at heq
    simp only [bind_eq_ok, heq, true_and, pure, Except.pure, Except.ok.injEq, State.fresh,
      eq_comm (a := s)]

theorem savable_fresh {c : Config} (h : Savable c) : Savable (State.fresh c) := by
  have hperiod : c.filterPeriod < 2 ^ 64 := h.counted _ (by simp [Recorded.counts])
  exact savable_iff_own.2 ⟨⟨h, Nat.two_pow_pos 64⟩, Sma.savable_fresh hperiod⟩

instance : Faithful State where
  Sound := State.Valid
  load_checkpoint {t s} hs _ hsave := by
    obtain ⟨hvalid, hcloses, hfilter⟩ := hs
    obtain ⟨hown, hsave⟩ := savable_iff_own.1 hsave
    have hpos : 0 < s.closes.capacity := hcloses ▸ Config.longestChannel_pos hvalid
    have hread := readRecord_encode name (readsBackIff_savedCodec (r := s.saved) hpos)
      (by decide) hown
    refine load_eq_ok.2 ⟨s.saved, hread, hvalid, hcloses, s.filter, ?_, rfl⟩
    dsimp only [State.saved]
    exact Faithful.load_checkpoint hfilter trivial hsave
  savable_of_load {t s s'} _ _ hs _ _ h htext := by
    obtain ⟨hvalid, hcloses, hfilter⟩ := hs
    have hpos : 0 < s.closes.capacity := hcloses ▸ Config.longestChannel_pos hvalid
    have hreads := readsBackIff_savedCodec (r := s.saved) hpos
    obtain ⟨r, hread, _, _, filter, hload, rfl⟩ := load_eq_ok.1 h
    obtain ⟨hown, rfl⟩ := eq_of_readRecord_encode hreads (by decide) hread
    have hsaved := (eq_of_encode_eq hreads (by decide) hown htext
      (readsBackIff_savedCodec hpos)).2
    have hfresh := (savable_iff_own.1 (savable_fresh hown.1)).2
    dsimp only [State.saved] at hload
    exact savable_iff_own.2 ⟨hown,
      Faithful.savable_of_load (Sma.sound_fresh (Config.filterPeriod_pos hvalid))
      hfresh hfilter trivial trivial hload (congrArg Saved.filter hsaved)⟩
  sound_of_load _ h := by
    obtain ⟨r, _, hvalid, hcloses, filter, hload, rfl⟩ := load_eq_ok.1 h
    exact ⟨hvalid, hcloses, Faithful.sound_of_load
      (Sma.sound_fresh (Config.filterPeriod_pos hvalid)) hload⟩

theorem valid_fresh {c : Config} (h : c.validate = .ok ()) : (State.fresh c).Valid :=
  ⟨h, Window.capacity_blank _, Sma.sound_fresh (Config.filterPeriod_pos h)⟩

theorem valid_advance {s : State} (h : s.Valid) (c : Candle) : (s.advance c).1.Valid := by
  obtain ⟨hvalid, hcloses, hfilter⟩ := h
  refine ⟨hvalid, ?_, Sma.sound_update hfilter c⟩
  exact (Window.capacity_set _ _ _).trans hcloses

end Turtle

end SignalEngine
