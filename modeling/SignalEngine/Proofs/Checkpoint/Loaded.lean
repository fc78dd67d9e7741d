import SignalEngine.Proofs.Checkpoint.RoundTrip
import SignalEngine.Proofs.Json.Ranges

namespace SignalEngine

open Json (Codec Fields)
open Json.Codec (yields_true yields_real yields_count yields_small)

/-- A component of which every state that is loaded can be saved, if that could be said of the
state before. -/
class Reloadable (σ : Type) [Persistent σ] [Recorded σ] : Prop where
  savable_loaded {t s : σ} {text : String} : Savable t → Persistent.load t text = .ok s → Savable s

export Reloadable (savable_loaded)

section OfCodec

variable {σ : Type} [Persistent σ] [Recorded σ]

theorem Reloadable.ofCodec (kind : String) (codec : Codec σ)
    (hload : ∀ (t : σ) text, Persistent.load t text = readRecord kind codec text)
    (hyields : codec.Yields Savable) : Reloadable σ where
  savable_loaded _ h := by
    rw [hload] at h
    exact hyields.decode (decode_of_readRecord h)

theorem Reloadable.ofCodecOrKeep (kind : String) (codec : Codec σ)
    (hok : ∀ {t : σ} {text new}, readRecord kind codec text = .ok new →
      Persistent.load t text = .ok new)
    (hkeep : ∀ {t : σ} {text e}, readRecord kind codec text = .error e →
      Persistent.load t text = .ok t)
    (hyields : codec.Yields Savable) : Reloadable σ where
  savable_loaded {t s text} ht h := by
    cases hread : readRecord kind codec text with
    | ok new =>
        rw [hok hread] at h
        cases h
        exact hyields.decode (decode_of_readRecord hread)
    | error e =>
        rw [hkeep hread] at h
        cases h
        exact ht

theorem yields_of_readRecord {α : Type} {codec : Codec α} {P : α → Prop} (h : codec.Yields P)
    {kind text : String} {a : α} (hread : readRecord kind codec text = .ok a) : P a :=
  h.decode (decode_of_readRecord hread)

end OfCodec

theorem Wraps.savable_loaded {σ τ : Type} [Persistent σ] [Recorded σ] [Persistent τ] [Recorded τ]
    [Reloadable σ] {wrap : σ → τ} (h : Wraps wrap) {t : σ} {s : τ} {text : String}
    (ht : Savable (wrap t)) (hload : Persistent.load (wrap t) text = .ok s) : Savable s := by
  rw [h.load_eq] at hload
  obtain ⟨s', hs', rfl⟩ := map_eq_ok.1 hload
  exact (h.savable_iff s').2 (SignalEngine.savable_loaded ((h.savable_iff t).1 ht) hs')

namespace Sma

theorem yields_savable : Sma.codec.Yields Savable := by
  have hfields : Sma.fields.Yields _ _ :=
    .required _ yields_count <| .required _ yields_count <| .required _ yields_real <|
      .required _ (yields_true _) <| .required _ (yields_true _) <| .required _ yields_real .nil
  refine .record _ hfields fun a ha => ?_
  simp only [savable_iff, Recorded.plain, Recorded.counts, Recorded.codes, List.forall_mem_cons,
    List.not_mem_nil]
  tauto

instance : Reloadable Sma :=
  .ofCodecOrKeep "SMA" Sma.codec savedOrKept.load_ok savedOrKept.load_error yields_savable

end Sma

namespace Ema

theorem yields_savable : Ema.codec.Yields Savable := by
  have hfields : Ema.fields.Yields _ _ :=
    .required _ yields_count <| .required _ (yields_true _) <| .required _ yields_real .nil
  refine .record _ hfields fun a ha => ?_
  simp only [savable_iff, Recorded.plain, Recorded.counts, Recorded.codes, List.forall_mem_cons,
    List.not_mem_nil]
  tauto

instance : Reloadable Ema :=
  .ofCodec "EMA" Ema.codec savedAs.load_eq yields_savable

end Ema

namespace Cci

theorem yields_savable : Cci.codec.Yields Savable := by
  have hfields : Cci.fields.Yields _ _ :=
    .required _ yields_count <| .required _ yields_real <| .required _ yields_count <|
      .required _ (yields_true _) <| .required _ (yields_true _) <|
      .required _ (yields_true _) .nil
  refine .record _ hfields fun a ha => ?_
  simp only [savable_iff, Recorded.plain, Recorded.counts, Recorded.codes, List.forall_mem_cons,
    List.not_mem_nil]
  tauto

instance : Reloadable Cci :=
  .ofCodec "CCI" Cci.codec savedAs.load_eq yields_savable

end Cci

namespace Atr

theorem yields_savable : Atr.codec.Yields Savable := by
  have hfields : Atr.fields.Yields _ _ :=
    .required _ yields_count <| .required _ yields_count <| .required _ (yields_true _) <|
      .required _ (yields_true _) <| .required _ (yields_true _) <| .required _ (yields_true _) <|
      .required _ yields_real .nil
  refine .record _ hfields fun a ha => ?_
  simp only [savable_iff, Recorded.plain, Recorded.counts, Recorded.codes, List.forall_mem_cons,
    List.not_mem_nil]
  tauto

instance : Reloadable Atr :=
  .ofCodecOrKeep "ATR" Atr.codec savedOrKept.load_ok savedOrKept.load_error yields_savable

end Atr

namespace Smma

theorem yields_savedCodec : savedCodec.Yields fun r =>
    r.period < 2 ^ 64 ∧ r.age < 2 ^ 64 ∧ r.value.isFinite = true := by
  have hfields : Smma.fields.Yields _ _ :=
    .required _ yields_count <| .required _ yields_count <| .required _ (yields_true _) <|
      .required _ yields_real <| .required _ (yields_true _) .nil
  refine .record _ hfields fun a ha => ?_
  tauto

instance : Reloadable Smma where
  savable_loaded _ h := by
    obtain ⟨r, hread, _, sma, hload, rfl⟩ := load_eq_ok.1 h
    have hown := yields_of_readRecord yields_savedCodec hread
    exact savable_iff_own.2 ⟨hown, savable_loaded (Sma.savable_fresh hown.1) hload⟩

end Smma

namespace Rsi

theorem yields_savedCodec :
    savedCodec.Yields fun r => r.Own ∧ ∀ x ∈ r.lastPrice, x.isFinite = true := by
  have hfields : Rsi.fields.Yields _ _ :=
    .required _ yields_count <| .required _ (yields_true _) <| .required _ yields_real <|
      .optional _ yields_real <| .required _ (yields_true _) <| .required _ (yields_true _) .nil
  refine .record _ hfields fun a ha => ?_
  unfold Saved.Own
  tauto

instance : Reloadable Rsi where
  savable_loaded ht h := by
    obtain ⟨-, htup, htdown⟩ := savable_iff_own.1 ht
    obtain ⟨r, hread, up, hup, down, hdown, rfl⟩ := load_eq_ok.1 h
    have hown := yields_of_readRecord yields_savedCodec hread
    exact savable_iff_own.2 ⟨hown, savable_loaded htup hup, savable_loaded htdown hdown⟩

end Rsi

namespace Macd

theorem yields_savedCodec : savedCodec.Yields fun r => r.value.isFinite = true := by
  have hfields : Macd.fields.Yields _ _ :=
    .required _ (yields_true _) <| .required _ yields_real <| .required _ (yields_true _) <|
      .required _ (yields_true _) <| .required _ (yields_true _) .nil
  exact .record _ hfields fun a ha => ha.2.1

instance : Reloadable Macd where
  savable_loaded ht h := by
    obtain ⟨-, htfast, htslow, htsignal⟩ := savable_iff_own.1 ht
    obtain ⟨r, hread, fast, hfast, slow, hslow, signal, hsignal, rfl⟩ := load_eq_ok.1 h
    exact savable_iff_own.2 ⟨yields_of_readRecord yields_savedCodec hread,
      savable_loaded htfast hfast, savable_loaded htslow hslow, savable_loaded htsignal hsignal⟩

end Macd

namespace StopLoss

theorem yields_savable : StopLoss.codec.Yields Savable := by
  have hfields : StopLoss.fields.Yields _ _ :=
    .required _ yields_real <| .required _ yields_real <| .required _ yields_real <|
      .required _ (yields_true _) .nil
  refine .record _ hfields fun a ha => ?_
  simp only [savable_iff, Recorded.plain, Recorded.counts, Recorded.codes, List.forall_mem_cons,
    List.not_mem_nil]
  tauto

instance : Reloadable StopLoss :=
  .ofCodec "TrailingStopLoss" StopLoss.codec savedAs.load_eq yields_savable

end StopLoss

namespace SuperTrend

theorem Config.yields_fields :
    ∃ P D, Config.fields.Yields P D ∧ ∀ a, P a → Savable (Config.ofParts a) := by
  have hfields : Config.fields.Yields _ _ :=
    .defaulted _ yields_count (by decide) <| .defaulted _ yields_real (by decide) <|
      .defaulted _ yields_real (by decide) <| .defaulted _ yields_real (by decide) <|
      .defaulted _ yields_real (by decide) .nil
  refine ⟨_, _, hfields, fun a ha => ?_⟩
  simp only [savable_iff, Recorded.plain, Recorded.counts, Recorded.codes, Config.ofParts,
    List.forall_mem_cons, List.not_mem_nil]
  tauto

theorem Config.yields_savable : Config.codec.Yields Savable := by
  obtain ⟨P, D, hfields, hsave⟩ := Config.yields_fields
  exact .record _ hfields hsave

theorem Config.savable_standard : Savable Config.standard :=
  savable_iff.2 (by decide)

theorem Bands.yields_savable : Bands.codec.Yields Savable := by
  have hfields : Bands.fields.Yields _ _ :=
    .required _ yields_real <| .required _ yields_real <| .required _ yields_real <|
      .required _ yields_real <| .required _ yields_real .nil
  refine .record _ hfields fun a ha => ?_
  simp only [savable_iff, Recorded.plain, Recorded.counts, Recorded.codes, List.forall_mem_cons,
    List.not_mem_nil]
  tauto

theorem yields_savedCodec : savedCodec.Yields Saved.Own := by
  have hfields : SuperTrend.fields.Yields _ _ :=
    .required _ Config.yields_savable <| .required _ Bands.yields_savable <|
      .required _ yields_real <| .required _ yields_count <| .required _ yields_real <|
      .required _ yields_real <| .required _ (yields_true _) <| .required _ (yields_true _) .nil
  refine .record _ hfields fun a ha => ?_
  unfold Saved.Own
  tauto

instance : Reloadable State where
  savable_loaded _ h := by
    obtain ⟨r, hread, _, stop, hstop, range, hrange, rfl⟩ := load_eq_ok.1 h
    have hown := yields_of_readRecord yields_savedCodec hread
    obtain ⟨-, hfreshStop, hfreshRange⟩ := savable_iff_own.1 (savable_fresh hown.1)
    exact savable_iff_own.2 ⟨hown, savable_loaded hfreshStop hstop,
      savable_loaded hfreshRange hrange⟩

end SuperTrend

namespace Turtle

theorem Config.yields_fields :
    ∃ P D, Config.fields.Yields P D ∧ ∀ a, P a → Savable (Config.ofParts a) := by
  have hfields : Config.fields.Yields _ _ :=
    .defaulted _ yields_count (by decide) <| .defaulted _ yields_count (by decide) <|
      .defaulted _ yields_count (by decide) <| .defaulted _ yields_count (by decide) <|
      .defaulted _ yields_count (by decide) .nil
  refine ⟨_, _, hfields, fun a ha => ?_⟩
  simp only [savable_iff, Recorded.plain, Recorded.counts, Recorded.codes, Config.ofParts,
    List.forall_mem_cons, List.not_mem_nil]
  tauto

theorem Config.yields_savable : Config.codec.Yields Savable := by
  obtain ⟨P, D, hfields, hsave⟩ := Config.yields_fields
  exact .record _ hfields hsave

theorem Config.savable_standard : Savable Config.standard :=
  savable_iff.2 (by decide)

theorem yields_savedCodec : savedCodec.Yields Saved.Own := by
  have hfields : Turtle.fields.Yields _ _ :=
    .required _ Config.yields_savable <| .required _ (yields_true _) <|
      .required _ yields_count <| .required _ (yields_true _) .nil
  exact .record _ hfields fun a ha => ⟨ha.1, ha.2.2.1⟩

instance : Reloadable State where
  savable_loaded _ h := by
    obtain ⟨r, hread, _, _, filter, hfilter, rfl⟩ := load_eq_ok.1 h
    have hown := yields_of_readRecord yields_savedCodec hread
    have hfresh := (savable_iff_own.1 (savable_fresh hown.1)).2
    exact savable_iff_own.2 ⟨hown, savable_loaded hfresh hfilter⟩

end Turtle

namespace Aldo

instance : Reloadable Oscillator where
  savable_loaded {t s text} ht h := by
    cases t with
    | cci t => exact Oscillator.wraps_cci.savable_loaded ht h
    | rsi t => exact Oscillator.wraps_rsi.savable_loaded ht h
    | macd t => exact Oscillator.wraps_macd.savable_loaded ht h

theorem Config.yields_savable : Config.codec.Yields Savable := by
  have hfields : Config.fields.Yields _ _ :=
    .defaulted _ yields_real (by decide) <| .defaulted _ yields_count (by decide) <|
      .defaulted _ yields_count (by decide) <| .defaulted _ yields_count (by decide) <|
      .defaulted _ yields_count (by decide) <| .defaulted _ yields_count (by decide) <|
      .defaulted _ yields_count (by decide) <| .defaulted _ yields_count (by decide) <|
      .defaulted _ yields_count (by decide) <| .defaulted _ yields_count (by decide) <|
      .defaulted _ yields_count (by decide) <| .defaulted _ yields_real (by decide) <|
      .defaulted _ yields_real (by decide) <| .defaulted _ yields_small (by decide) .nil
  refine .record _ hfields fun a ha => ?_
  simp only [savable_iff, Recorded.plain, Recorded.counts, Recorded.codes, List.forall_mem_cons,
    List.not_mem_nil]
  tauto

theorem Config.savable_standard : Savable Config.standard :=
  savable_iff.2 (by decide)

theorem Extrema.yields_savable : Extrema.codec.Yields Savable := by
  have hfields : Extrema.fields.Yields _ _ :=
    .required _ yields_real <| .required _ yields_real <| .required _ yields_real <|
      .required _ yields_real <| .required _ (yields_true _) <| .required _ (yields_true _) <|
      .required _ (yields_true _) <| .required _ (yields_true _) .nil
  refine .record _ hfields fun a ha => ?_
  simp only [savable_iff, Recorded.plain, Recorded.counts, Recorded.codes, List.forall_mem_cons,
    List.not_mem_nil]
  tauto

theorem yields_savedCodec : savedCodec.Yields Saved.Own := by
  have hfields : Aldo.fields.Yields _ _ :=
    .required _ Config.yields_savable <| .required _ (yields_true _) <|
      .required _ (yields_true _) <| .required _ (yields_true _) <| .required _ (yields_true _) <|
      .required _ yields_count <| .required _ Extrema.yields_savable .nil
  refine .record _ hfields fun a ha => ?_
  unfold Saved.Own
  tauto

instance : Reloadable State where
  savable_loaded _ h := by
    obtain ⟨r, hread, _, _, oscillator, hload, rfl⟩ := load_eq_ok.1 h
    have hown := yields_of_readRecord yields_savedCodec hread
    exact savable_iff_own.2 ⟨hown, savable_loaded (Oscillator.savable_fresh hown.1) hload⟩

theorem savable_fresh {c : Config} (h : Savable c) : Savable (State.fresh c) := by
  have hextrema : Savable Extrema.zero := savable_iff.2 (by decide)
  exact savable_iff_own.2 ⟨⟨h, Nat.two_pow_pos 64, hextrema⟩, Oscillator.savable_fresh h⟩

end Aldo

theorem Signal.yields_savable : Signal.codec.Yields Savable := by
  have hfields : Signal.fields.Yields _ _ :=
    .required _ (yields_true _) <| .required _ yields_real .nil
  refine .record _ hfields fun a ha => ?_
  simp only [savable_iff, Recorded.plain, Recorded.counts, Recorded.codes, List.forall_mem_cons,
    List.not_mem_nil]
  tauto

namespace Agreement

theorem Config.yields_savable : Config.codec.Yields Savable := by
  obtain ⟨P, D, hfields, hsave⟩ := SuperTrend.Config.yields_fields
  obtain ⟨Q, E, hfields', hsave'⟩ := Turtle.Config.yields_fields
  refine (Codec.Yields.merged _ hfields hfields').map fun a ha => ?_
  exact Config.savable_iff_parts.2 ⟨hsave _ ha.1, hsave' _ ha.2⟩

theorem Config.savable_standard : Savable Config.standard :=
  savable_iff.2 (by decide)

theorem yields_savedCodec : savedCodec.Yields Saved.Own := by
  have hfields : Agreement.fields.Yields _ _ :=
    .required _ Config.yields_savable <| .required _ (yields_true _) <|
      .required _ (yields_true _) <| .optional _ Signal.yields_savable <|
      .optional _ Signal.yields_savable .nil
  refine .record _ hfields fun a ha => ?_
  unfold Saved.Own
  tauto

theorem savable_fresh {c : Config} (h : Savable c) : Savable (State.fresh c) := by
  obtain ⟨hsuperTrend, hturtle⟩ := Config.savable_iff_parts.1 h
  have hown : (State.fresh c).saved.Own := ⟨h, nofun, nofun⟩
  exact savable_iff_own.2 ⟨hown, SuperTrend.savable_fresh hsuperTrend,
    Turtle.savable_fresh hturtle⟩

instance : Reloadable State where
  savable_loaded _ h := by
    obtain ⟨r, hread, _, superTrend, hsuperTrend, turtle, hturtle, rfl⟩ := load_eq_ok.1 h
    have hown := yields_of_readRecord yields_savedCodec hread
    obtain ⟨-, hfreshSuperTrend, hfreshTurtle⟩ := savable_iff_own.1 (savable_fresh hown.1)
    exact savable_iff_own.2 ⟨hown, savable_loaded hfreshSuperTrend hsuperTrend,
      savable_loaded hfreshTurtle hturtle⟩

end Agreement

namespace Strategy

instance : Reloadable Strategy where
  savable_loaded {t s text} ht h := by
    cases t with
    | superTrend t => exact wraps_superTrend.savable_loaded ht h
    | turtle t => exact wraps_turtle.savable_loaded ht h
    | aldo t => exact wraps_aldo.savable_loaded ht h
    | agreement t => exact wraps_agreement.savable_loaded ht h

/-- Whatever the target has seen, a state that is loaded can be saved. -/
theorem savable_of_load {t s : Strategy} {text : String} (h : Persistent.load t text = .ok s) :
    Savable s := by
  obtain ⟨t', hname, -, hsave⟩ := exists_savable t
  rw [← load_congr hname] at h
  exact savable_loaded hsave h

end Strategy

end SignalEngine
