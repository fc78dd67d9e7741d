import SignalEngine.Proofs.Checkpoint.Trend
import SignalEngine.Strategy.Aldo

namespace SignalEngine.Aldo

open Json (Codec Fields)
open Json.Codec (readsBackIff_count readsBackIff_real readsBackIff_lossless readsBackIff_text
  readsBackIff_small)

namespace Oscillator

def kind : Oscillator → OscillatorKind
  | cci _ => .cci
  | rsi _ => .rsi
  | macd _ => .macd

instance : Recorded Oscillator where
  plain
    | cci s => Recorded.plain s
    | rsi s => Recorded.plain s
    | macd s => Recorded.plain s
  counts
    | cci s => Recorded.counts s
    | rsi s => Recorded.counts s
    | macd s => Recorded.counts s

/-- The state is sound as one of its kind. -/
def Started : Oscillator → Prop
  | cci s => Sound s
  | rsi s => Sound s
  | macd s => Sound s

def Quoted : Oscillator → Prop
  | cci s => Priced s
  | rsi s => Priced s
  | macd s => Priced s

inductive SameKind : Oscillator → Oscillator → Prop
  | cci (t s : Cci) : SameKind (cci t) (cci s)
  | rsi (t s : Rsi) : SameKind (rsi t) (rsi s)
  | macd (t s : Macd) : SameKind (macd t) (macd s)

theorem sameKind_of_kind {t s : Oscillator} (h : t.kind = s.kind) : SameKind t s := by
  cases t <;> cases s <;> first | constructor | cases h

theorem wraps_cci : Wraps cci :=
  .of_eq (fun _ => rfl) (fun _ _ => rfl) (fun _ => rfl) (fun _ => rfl) fun _ => rfl

theorem wraps_rsi : Wraps rsi :=
  .of_eq (fun _ => rfl) (fun _ _ => rfl) (fun _ => rfl) (fun _ => rfl) fun _ => rfl

theorem wraps_macd : Wraps macd :=
  .of_eq (fun _ => rfl) (fun _ _ => rfl) (fun _ => rfl) (fun _ => rfl) fun _ => rfl

instance : Faithful Oscillator where
  Sound := Started
  Fits := SameKind
  Priced := Quoted
  load_checkpoint hs hfits h := by
    cases hfits with
    | cci t s => exact wraps_cci.load_checkpoint hs trivial h
    | rsi t s => exact wraps_rsi.load_checkpoint hs trivial h
    | macd t s => exact wraps_macd.load_checkpoint hs trivial h
  savable_of_load ht htsave hs hprice hfits h htext := by
    cases hfits with
    | cci t s => exact wraps_cci.savable_of_load ht htsave hs hprice trivial h htext
    | rsi t s => exact wraps_rsi.savable_of_load ht htsave hs hprice trivial h htext
    | macd t s => exact wraps_macd.savable_of_load ht htsave hs hprice trivial h htext
  sound_of_load {t s text} ht h := by
    cases t with
    | cci t =>
        obtain ⟨s, rfl, hs⟩ := wraps_cci.sound_of_load ht h
        exact hs
    | rsi t =>
        obtain ⟨s, rfl, hs⟩ := wraps_rsi.sound_of_load ht h
        exact hs
    | macd t =>
        obtain ⟨s, rfl, hs⟩ := wraps_macd.sound_of_load ht h
        exact hs

end Oscillator

instance : Recorded Config where
  plain c := [c.trailingStopLoss, c.overbought, c.oversold]
  counts c := [c.exitBars, c.rsiLength, c.macdFast, c.macdSlow, c.macdSignal, c.stochLength,
    c.stochSmoothK, c.stochSmoothD, c.cciLength, c.period]
  codes c := [c.oscillatorType]

namespace Config

theorem readsBackIff_codec (c : Config) : Config.codec.ReadsBackIff 1 c (Savable c) := by
  have hfields : Config.fields.ReadsBackIff 0
      (c.trailingStopLoss, c.exitBars, c.rsiLength, c.macdFast, c.macdSlow, c.macdSignal,
        c.stochLength, c.stochSmoothK, c.stochSmoothD, c.cciLength, c.period, c.overbought,
        c.oversold, c.oscillatorType, ()) _ :=
    .defaulted _ _ (readsBackIff_real _) <| .defaulted _ _ (readsBackIff_count _) <|
      .defaulted _ _ (readsBackIff_count _) <| .defaulted _ _ (readsBackIff_count _) <|
      .defaulted _ _ (readsBackIff_count _) <| .defaulted _ _ (readsBackIff_count _) <|
      .defaulted _ _ (readsBackIff_count _) <| .defaulted _ _ (readsBackIff_count _) <|
      .defaulted _ _ (readsBackIff_count _) <| .defaulted _ _ (readsBackIff_count _) <|
      .defaulted _ _ (readsBackIff_count _) <| .defaulted _ _ (readsBackIff_real _) <|
      .defaulted _ _ (readsBackIff_real _) <| .defaulted _ _ (readsBackIff_small _) .nil
  have hrecord : Config.codec.ReadsBackIff 1 c _ := .record _ hfields (by decide) rfl
  apply hrecord.congr
  simp only [savable_iff, Recorded.plain, Recorded.counts, Recorded.codes, List.forall_mem_cons,
    List.not_mem_nil]
  tauto

theorem period_pos {c : Config} (h : c.validate = .ok ()) : 0 < c.period := by
  by_contra hzero
  rw [Config.validate, if_pos (by omega)] at h
  cases h

theorem lengthsValid_of_validate {c : Config} (h : c.validate = .ok ()) :
    c.lengthsValid = true := by
  rw [Config.validate, if_neg (period_pos h).ne'] at h
  cases hlengths : c.lengthsValid with
  | true => rfl
  | false =>
      rw [hlengths] at h
      cases h

end Config

namespace Oscillator

theorem kind_fresh (c : Config) : (fresh c).kind = c.oscillator := by
  rw [fresh]
  split <;> exact Eq.symm ‹_›

theorem kind_update (o : Oscillator) (c : Candle) : (o.update c).kind = o.kind := by
  cases o <;> rfl

theorem kind_of_load {t s : Oscillator} {text : String} (h : Persistent.load t text = .ok s) :
    s.kind = t.kind := by
  cases t <;> obtain ⟨s, -, rfl⟩ := map_eq_ok.1 h <;> rfl

theorem sound_fresh {c : Config} (h : c.lengthsValid = true) : Sound (fresh c) := by
  rw [Config.lengthsValid] at h
  rw [fresh]
  cases hkind : c.oscillator with
  | cci =>
      rw [hkind] at h
      exact Cci.sound_withConstant (of_decide_eq_true h)
  | rsi =>
      rw [hkind] at h
      exact Rsi.sound_fresh (of_decide_eq_true h)
  | macd => exact trivial

theorem savable_fresh {c : Config} (h : Savable c) : Savable (fresh c) := by
  have hcount : ∀ n ∈ Recorded.counts c, n < 2 ^ 64 := h.counted
  rw [fresh]
  cases c.oscillator with
  | cci =>
      exact (wraps_cci.savable_iff _).2 (Cci.savable_fresh (hcount _ (by simp [Recorded.counts])))
  | rsi =>
      exact (wraps_rsi.savable_iff _).2 (Rsi.savable_fresh (hcount _ (by simp [Recorded.counts])))
  | macd =>
      exact (wraps_macd.savable_iff _).2 (Macd.savable_fresh (hcount _ (by simp [Recorded.counts]))
        (hcount _ (by simp [Recorded.counts])) (hcount _ (by simp [Recorded.counts])))

theorem sound_update {o : Oscillator} (h : Sound o) (c : Candle) : Sound (o.update c) := by
  cases o with
  | cci s => exact Cci.sound_update h c
  | rsi s => exact Rsi.started_update h c
  | macd s => exact trivial

theorem priced_fresh (c : Config) : Priced (fresh c) := by
  rw [fresh]
  cases c.oscillator with
  | cci => exact trivial
  | rsi => exact nofun
  | macd => exact trivial

theorem priced_update {o : Oscillator} (h : Priced o) {c : Candle} (hc : c.close.isFinite = true) :
    Priced (o.update c) := by
  cases o with
  | cci s => exact trivial
  | rsi s => exact Rsi.priced_update s hc
  | macd s => exact trivial

end Oscillator

instance : Recorded Extrema where
  plain e := [e.lastPriceHigh, e.prevPriceHigh, e.lastPriceLow, e.prevPriceLow]
  counts _ := []

theorem Extrema.readsBackIff_codec (e : Extrema) : Extrema.codec.ReadsBackIff 1 e (Savable e) := by
  have hfields : Extrema.fields.ReadsBackIff 0 (e.lastPriceHigh, e.prevPriceHigh, e.lastPriceLow,
      e.prevPriceLow, e.lastOscHigh, e.prevOscHigh, e.lastOscLow, e.prevOscLow, ()) _ :=
    .required _ (readsBackIff_real _) <| .required _ (readsBackIff_real _) <|
      .required _ (readsBackIff_real _) <| .required _ (readsBackIff_real _) <|
      .required _ (readsBackIff_lossless _) <| .required _ (readsBackIff_lossless _) <|
      .required _ (readsBackIff_lossless _) <| .required _ (readsBackIff_lossless _) .nil
  have hrecord : Extrema.codec.ReadsBackIff 1 e _ := .record _ hfields (by decide) rfl
  apply hrecord.congr
  simp only [savable_iff, Recorded.plain, Recorded.counts, Recorded.codes, List.forall_mem_cons,
    List.not_mem_nil]
  tauto

instance : Recorded State where
  plain s := Recorded.plain s.config ++ Recorded.plain s.extrema ++ Recorded.plain s.oscillator
  counts s := s.age :: (Recorded.counts s.config ++ Recorded.counts s.oscillator)
  codes s := Recorded.codes s.config

/-- The settings are valid, the rings are as long as the period, and the oscillator is a sound one
of the chosen kind. -/
structure State.Valid (s : State) : Prop where
  config : s.config.validate = .ok ()
  highs : s.highs.capacity = s.config.period
  lows : s.lows.capacity = s.config.period
  oscs : s.oscs.capacity = s.config.period
  kind : s.oscillator.kind = s.config.oscillator
  oscillator : Sound s.oscillator

def Saved.Own (r : Saved) : Prop :=
  Savable r.config ∧ r.age < 2 ^ 64 ∧ Savable r.extrema

theorem Saved.windowsFit_iff (r : Saved) :
    r.windowsFit = true ↔ r.highs.capacity = r.config.period ∧ r.lows.capacity = r.config.period ∧
      r.oscs.capacity = r.config.period := by
  simp only [Saved.windowsFit, Bool.and_eq_true, beq_iff_eq, and_assoc]

theorem readsBackIff_savedCodec {r : Saved} (hperiod : 0 < r.config.period)
    (h : r.windowsFit = true) :
    savedCodec.ReadsBackIff 2 r r.Own := by
  obtain ⟨hhighs, hlows, hoscs⟩ := r.windowsFit_iff.1 h
  have hwindow {w : Window} (hw : w.capacity = r.config.period) :
    Window.codec.ReadsBackIff 1 w True :=
    Window.readsBackIff_codec (hw ▸ hperiod)
  have hfields : Aldo.fields.ReadsBackIff 1
      (r.config, r.oscillator, r.highs, r.lows, r.oscs, r.age, r.extrema, ()) _ :=
    .required _ r.config.readsBackIff_codec <| .required _ (readsBackIff_text _) <|
      .required _ (hwindow hhighs) <| .required _ (hwindow hlows) <| .required _ (hwindow hoscs) <|
      .required _ (readsBackIff_count _) <| .required _ r.extrema.readsBackIff_codec .nil
  have hrecord : savedCodec.ReadsBackIff 2 r _ := .record _ hfields (by decide) rfl
  apply hrecord.congr
  unfold Saved.Own
  tauto

theorem savable_iff_own {s : State} :
    Savable s ↔ s.saved.Own ∧ Savable s.oscillator := by
  simp only [savable_iff, Recorded.plain, Recorded.counts, Recorded.codes, Saved.Own, State.saved,
    List.forall_mem_cons, List.forall_mem_append, List.not_mem_nil]
  tauto

theorem load_eq_ok {t s : State} {text : String} :
    Persistent.load t text = .ok s ↔ ∃ r, readRecord name savedCodec text = .ok r ∧
      r.config.validate = .ok () ∧ r.windowsFit = true ∧
      ∃ oscillator, Persistent.load (Oscillator.fresh r.config) r.oscillator = .ok oscillator ∧
        s = ⟨r.config, oscillator, r.highs, r.lows, r.oscs, r.age, r.extrema⟩ := by
  simp only [Persistent.load, bind_eq_ok, acceptConfig_eq_ok]
  apply exists_congr
  intro r
  apply and_congr_right
  intro _
  rw [exists_const]
  apply and_congr_right
  intro _
  cases hfit : r.windowsFit with
  | false => exact ⟨nofun, fun h => Bool.noConfusion h.1⟩
  | true =>
      simp only [Bool.not_true, Bool.false_eq_true, if_false, bind_eq_ok, true_and, pure,
        Except.pure, Except.ok.injEq, State.fresh, eq_comm (a := s)]

theorem State.Valid.windowsFit {s : State} (h : s.Valid) : s.saved.windowsFit = true :=
  s.saved.windowsFit_iff.2 ⟨h.highs, h.lows, h.oscs⟩

theorem State.Valid.sameKind {s : State} (h : s.Valid) :
    Faithful.Fits (Oscillator.fresh s.config) s.oscillator :=
  Oscillator.sameKind_of_kind ((Oscillator.kind_fresh s.config).trans h.kind.symm)

instance : Faithful State where
  Sound := State.Valid
  Priced s := Priced s.oscillator
  load_checkpoint {t s} hs _ hsave := by
    obtain ⟨hown, hsave⟩ := savable_iff_own.1 hsave
    have hreads := readsBackIff_savedCodec (Config.period_pos hs.config) hs.windowsFit
    have hread := readRecord_encode name hreads (by decide) hown
    refine load_eq_ok.2 ⟨s.saved, hread, hs.config, hs.windowsFit, s.oscillator, ?_, rfl⟩
    dsimp only [State.saved]
    exact Faithful.load_checkpoint hs.oscillator hs.sameKind hsave
  savable_of_load {t s s'} _ _ hs hprice _ h htext := by
    have hpos := Config.period_pos hs.config
    have hreads := readsBackIff_savedCodec hpos hs.windowsFit
    obtain ⟨r, hread, _, hfit, oscillator, hload, rfl⟩ := load_eq_ok.1 h
    obtain ⟨hown, rfl⟩ := eq_of_readRecord_encode hreads (by decide) hread
    have hsaved := (eq_of_encode_eq hreads (by decide) hown htext
      (readsBackIff_savedCodec hpos hfit)).2
    have hfresh := Oscillator.sound_fresh (Config.lengthsValid_of_validate hs.config)
    dsimp only [State.saved] at hload
    exact savable_iff_own.2 ⟨hown, Faithful.savable_of_load hfresh (Oscillator.savable_fresh hown.1)
      hs.oscillator hprice hs.sameKind hload (congrArg Saved.oscillator hsaved)⟩
  sound_of_load _ h := by
    obtain ⟨r, _, hvalid, hfit, oscillator, hload, rfl⟩ := load_eq_ok.1 h
    obtain ⟨hhighs, hlows, hoscs⟩ := r.windowsFit_iff.1 hfit
    have hfresh := Oscillator.sound_fresh (Config.lengthsValid_of_validate hvalid)
    have hkind := (Oscillator.kind_of_load hload).trans (Oscillator.kind_fresh r.config)
    exact ⟨hvalid, hhighs, hlows, hoscs, hkind, Faithful.sound_of_load hfresh hload⟩

namespace State

theorem valid_fresh {c : Config} (h : c.validate = .ok ()) : (State.fresh c).Valid where
  config := h
  highs := Window.capacity_blank _
  lows := Window.capacity_blank _
  oscs := Window.capacity_blank _
  kind := Oscillator.kind_fresh c
  oscillator := Oscillator.sound_fresh (Config.lengthsValid_of_validate h)

theorem Valid.observe {s : State} (h : s.Valid) (c : Candle) : (s.observe c).Valid where
  config := h.config
  highs := (Window.capacity_set _ _ _).trans h.highs
  lows := (Window.capacity_set _ _ _).trans h.lows
  oscs := (Window.capacity_set _ _ _).trans h.oscs
  kind := (Oscillator.kind_update s.oscillator c).trans h.kind
  oscillator := Oscillator.sound_update h.oscillator c

theorem update_eq_observe (s : State) (c : Candle) :
    ∃ e, (s.update c).1 = { s.observe c with extrema := e } := by
  unfold State.update
  dsimp only
  split
  · exact ⟨_, rfl⟩
  · exact ⟨_, rfl⟩

theorem Valid.update {s : State} (h : s.Valid) (c : Candle) : (s.update c).1.Valid := by
  obtain ⟨e, he⟩ := s.update_eq_observe c
  rw [he]
  exact { h.observe c with }

theorem priced_fresh (c : Config) : Priced (State.fresh c) :=
  Oscillator.priced_fresh c

theorem priced_update {s : State} (h : Priced s) {c : Candle} (hc : c.close.isFinite = true) :
    Priced (s.update c).1 := by
  obtain ⟨e, he⟩ := s.update_eq_observe c
  rw [he]
  exact Oscillator.priced_update h hc

end State

end SignalEngine.Aldo
