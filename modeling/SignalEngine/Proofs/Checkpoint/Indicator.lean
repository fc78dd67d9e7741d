import SignalEngine.Indicator.Basic
import SignalEngine.Proofs.Checkpoint.Savable

namespace SignalEngine

open Json (Codec Fields)
open Json.Codec (readsBackIff_count readsBackIff_real readsBackIff_lossless readsBackIff_text
  readsBackIff_boolean yields_true)

theorem isFinite_zero : (0.0 : Float).isFinite = true := by
  decide

namespace Sma

instance : Recorded Sma where
  plain s := [s.sum, s.value]
  counts s := [s.period, s.age]

def HasSlots (s : Sma) : Prop :=
  0 < s.closes.capacity

theorem readsBackIff_codec {s : Sma} (h : s.HasSlots) : Sma.codec.ReadsBackIff 2 s (Savable s) := by
  have hfields : Sma.fields.ReadsBackIff 1
      (s.period, s.age, s.sum, s.closes, s.ready, s.value, ()) _ :=
    .required _ (readsBackIff_count _) <| .required _ (readsBackIff_count _) <|
      .required _ (readsBackIff_real _) <| .required _ (Window.readsBackIff_codec h) <|
      .required _ (readsBackIff_boolean _) <| .required _ (readsBackIff_real _) .nil
  have hrecord : Sma.codec.ReadsBackIff 2 s _ := .record _ hfields (by decide) rfl
  apply hrecord.congr
  simp only [savable_iff, Recorded.plain, Recorded.counts, Recorded.codes, List.forall_mem_cons,
    List.not_mem_nil]
  tauto

theorem yields_codec : Sma.codec.Yields HasSlots := by
  have hfields : Sma.fields.Yields _ _ :=
    .required _ (yields_true _) <| .required _ (yields_true _) <| .required _ (yields_true _) <|
      .required _ Window.yields_codec <| .required _ (yields_true _) <|
        .required _ (yields_true _) .nil
  exact .record _ hfields fun _ ha => ha.2.2.2.1

theorem savedOrKept : SavedOrKept "SMA" Sma.codec where
  checkpoint_eq _ := rfl
  load_ok h := by simp only [Persistent.load, h]
  load_error h := by simp only [Persistent.load, h]

instance : Faithful Sma :=
  .ofCodecOrKeep HasSlots "SMA" Sma.codec savedOrKept.checkpoint_eq savedOrKept.load_ok
    savedOrKept.load_error readsBackIff_codec two_le_maxDepth yields_codec

theorem sound_fresh {period : Nat} (h : 0 < period) : Sound (Sma.fresh period) := by
  change 0 < (Window.blank period).capacity
  rwa [Window.capacity_blank]

theorem sound_update {s : Sma} (h : Sound s) (c : Candle) : Sound (s.update c) := by
  change 0 < (s.closes.set s.age c.close).capacity
  rwa [Window.capacity_set]

theorem savable_fresh {period : Nat} (h : period < 2 ^ 64) : Savable (Sma.fresh period) := by
  refine ⟨?_, ?_, by simp [Recorded.codes]⟩
  · simp [Recorded.plain, Sma.fresh, isFinite_zero]
  · simpa [Recorded.counts, Sma.fresh] using h

end Sma

namespace Ema

instance : Recorded Ema where
  plain s := [s.value]
  counts s := [s.period]

theorem readsBackIff_codec (s : Ema) : Ema.codec.ReadsBackIff 1 s (Savable s) := by
  have hfields : Ema.fields.ReadsBackIff 0 (s.period, s.ready, s.value, ()) _ :=
    .required _ (readsBackIff_count _) <| .required _ (readsBackIff_boolean _) <|
      .required _ (readsBackIff_real _) .nil
  have hrecord : Ema.codec.ReadsBackIff 1 s _ := .record _ hfields (by decide) rfl
  apply hrecord.congr
  simp only [savable_iff, Recorded.plain, Recorded.counts, Recorded.codes, List.forall_mem_cons,
    List.not_mem_nil]
  tauto

theorem savedAs : SavedAs "EMA" Ema.codec where
  checkpoint_eq _ := rfl
  load_eq _ _ := rfl

instance : Faithful Ema :=
  .ofCodec (fun _ => True) "EMA" Ema.codec savedAs.checkpoint_eq savedAs.load_eq
    (fun _ => readsBackIff_codec _) one_le_maxDepth (yields_true _)

theorem savable_fresh {period : Nat} (h : period < 2 ^ 64) : Savable (Ema.fresh period) := by
  refine ⟨?_, ?_, by simp [Recorded.codes]⟩
  · simp [Recorded.plain, Ema.fresh, isFinite_zero]
  · simpa [Recorded.counts, Ema.fresh] using h

end Ema

namespace Cci

instance : Recorded Cci where
  plain s := [s.constant]
  counts s := [s.period, s.age]

def HasSlots (s : Cci) : Prop :=
  0 < s.typicals.capacity

theorem readsBackIff_codec {s : Cci} (h : s.HasSlots) : Cci.codec.ReadsBackIff 2 s (Savable s) := by
  have hfields : Cci.fields.ReadsBackIff 1
      (s.period, s.constant, s.age, s.typicals, s.ready, s.value, ()) _ :=
    .required _ (readsBackIff_count _) <| .required _ (readsBackIff_real _) <|
      .required _ (readsBackIff_count _) <| .required _ (Window.readsBackIff_codec h) <|
      .required _ (readsBackIff_boolean _) <| .required _ (readsBackIff_lossless _) .nil
  have hrecord : Cci.codec.ReadsBackIff 2 s _ := .record _ hfields (by decide) rfl
  apply hrecord.congr
  simp only [savable_iff, Recorded.plain, Recorded.counts, Recorded.codes, List.forall_mem_cons,
    List.not_mem_nil]
  tauto

theorem yields_codec : Cci.codec.Yields HasSlots := by
  have hfields : Cci.fields.Yields _ _ :=
    .required _ (yields_true _) <| .required _ (yields_true _) <| .required _ (yields_true _) <|
      .required _ Window.yields_codec <| .required _ (yields_true _) <|
        .required _ (yields_true _) .nil
  exact .record _ hfields fun _ ha => ha.2.2.2.1

theorem savedAs : SavedAs "CCI" Cci.codec where
  checkpoint_eq _ := rfl
  load_eq _ _ := rfl

instance : Faithful Cci :=
  .ofCodec HasSlots "CCI" Cci.codec savedAs.checkpoint_eq savedAs.load_eq readsBackIff_codec
    two_le_maxDepth yields_codec

theorem sound_withConstant {period : Nat} {constant : Float} (h : 0 < period) :
    Sound (withConstant period constant) := by
  change 0 < (Window.blank period).capacity
  rwa [Window.capacity_blank]

theorem sound_update {s : Cci} (h : Sound s) (c : Candle) : Sound (s.update c) := by
  have hset : 0 < (s.typicals.set s.age c.typical).capacity := by
    rw [Window.capacity_set]
    exact h
  unfold Cci.update
  dsimp only
  split
  · exact hset
  · exact hset

theorem savable_fresh {period : Nat} (h : period < 2 ^ 64) : Savable (Cci.fresh period) := by
  refine ⟨?_, ?_, by simp [Recorded.codes]⟩
  · simp only [Recorded.plain, Cci.fresh, withConstant, List.forall_mem_singleton]
    decide
  · simpa [Recorded.counts, Cci.fresh, withConstant] using h

end Cci

namespace Atr

instance : Recorded Atr where
  plain s := [s.value]
  counts s := [s.period, s.age]

def HasSlots (s : Atr) : Prop :=
  0 < s.highs.capacity ∧ 0 < s.lows.capacity ∧ 0 < s.closes.capacity

theorem readsBackIff_codec {s : Atr} (h : s.HasSlots) : Atr.codec.ReadsBackIff 2 s (Savable s) := by
  obtain ⟨hhighs, hlows, hcloses⟩ := h
  have hfields : Atr.fields.ReadsBackIff 1
      (s.period, s.age, s.highs, s.lows, s.closes, s.ready, s.value, ()) _ :=
    .required _ (readsBackIff_count _) <| .required _ (readsBackIff_count _) <|
      .required _ (Window.readsBackIff_codec hhighs) <|
        .required _ (Window.readsBackIff_codec hlows) <|
      .required _ (Window.readsBackIff_codec hcloses) <| .required _ (readsBackIff_boolean _) <|
      .required _ (readsBackIff_real _) .nil
  have hrecord : Atr.codec.ReadsBackIff 2 s _ := .record _ hfields (by decide) rfl
  apply hrecord.congr
  simp only [savable_iff, Recorded.plain, Recorded.counts, Recorded.codes, List.forall_mem_cons,
    List.not_mem_nil]
  tauto

theorem yields_codec : Atr.codec.Yields HasSlots := by
  have hfields : Atr.fields.Yields _ _ :=
    .required _ (yields_true _) <| .required _ (yields_true _) <| .required _ Window.yields_codec <|
      .required _ Window.yields_codec <| .required _ Window.yields_codec <|
      .required _ (yields_true _) <| .required _ (yields_true _) .nil
  exact .record _ hfields fun _ ha => ⟨ha.2.2.1, ha.2.2.2.1, ha.2.2.2.2.1⟩

theorem savedOrKept : SavedOrKept "ATR" Atr.codec where
  checkpoint_eq _ := rfl
  load_ok h := by simp only [Persistent.load, h]
  load_error h := by simp only [Persistent.load, h]

instance : Faithful Atr :=
  .ofCodecOrKeep HasSlots "ATR" Atr.codec savedOrKept.checkpoint_eq savedOrKept.load_ok
    savedOrKept.load_error readsBackIff_codec two_le_maxDepth yields_codec

theorem sound_fresh {period : Nat} (h : 0 < period) : Sound (Atr.fresh period) := by
  have hblank : 0 < (Window.blank period).capacity := by rwa [Window.capacity_blank]
  exact ⟨hblank, hblank, hblank⟩

theorem sound_update {s : Atr} (h : Sound s) (c : Candle) : Sound (s.update c) := by
  obtain ⟨hhighs, hlows, hcloses⟩ := h
  refine ⟨?_, ?_, ?_⟩
  · change 0 < (s.highs.set s.age c.high).capacity
    rwa [Window.capacity_set]
  · change 0 < (s.lows.set s.age c.low).capacity
    rwa [Window.capacity_set]
  · change 0 < (s.closes.set s.age c.close).capacity
    rwa [Window.capacity_set]

theorem savable_fresh {period : Nat} (h : period < 2 ^ 64) : Savable (Atr.fresh period) := by
  refine ⟨?_, ?_, by simp [Recorded.codes]⟩
  · simp [Recorded.plain, Atr.fresh, isFinite_zero]
  · simpa [Recorded.counts, Atr.fresh] using h

end Atr

namespace Smma

instance : Recorded Smma where
  plain s := s.value :: Recorded.plain s.sma
  counts s := s.period :: s.age :: Recorded.counts s.sma

def Started (s : Smma) : Prop :=
  0 < s.period ∧ Sound s.sma

theorem readsBackIff_savedCodec (r : Saved) :
    savedCodec.ReadsBackIff 1 r (r.period < 2 ^ 64 ∧ r.age < 2 ^ 64 ∧ r.value.isFinite = true) := by
  have hfields : Smma.fields.ReadsBackIff 0 (r.period, r.age, r.ready, r.value, r.sma, ()) _ :=
    .required _ (readsBackIff_count _) <| .required _ (readsBackIff_count _) <|
      .required _ (readsBackIff_boolean _) <| .required _ (readsBackIff_real _) <|
      .required _ (readsBackIff_text _) .nil
  have hrecord : savedCodec.ReadsBackIff 1 r _ := .record _ hfields (by decide) rfl
  apply hrecord.congr
  tauto

theorem savable_iff_own {s : Smma} :
    Savable s ↔ (s.period < 2 ^ 64 ∧ s.age < 2 ^ 64 ∧ s.value.isFinite = true) ∧ Savable s.sma := by
  simp only [savable_iff, Recorded.plain, Recorded.counts, Recorded.codes, List.forall_mem_cons,
    List.not_mem_nil]
  tauto

theorem load_eq_ok {t s : Smma} {text : String} :
    Persistent.load t text = .ok s ↔ ∃ r, readRecord "SMMA" savedCodec text = .ok r ∧ r.period ≠ 0 ∧
      ∃ sma, Persistent.load (Sma.fresh r.period) r.sma = .ok sma ∧
        s = ⟨r.period, r.age, sma, r.ready, r.value⟩ := by
  simp only [Persistent.load, bind_eq_ok]
  apply exists_congr
  intro r
  apply and_congr_right
  intro _
  split
  · rename_i hzero
    exact ⟨nofun, fun h => absurd hzero h.1⟩
  · simp only [bind_eq_ok, pure, Except.pure, Except.ok.injEq, eq_comm (a := s)]
    tauto

theorem sound_fresh {period : Nat} (h : 0 < period) : Started (Smma.fresh period) :=
  ⟨h, Sma.sound_fresh h⟩

theorem started_update {s : Smma} (h : s.Started) (c : Candle) : (s.update c).Started := by
  unfold Smma.update
  dsimp only
  split
  · exact ⟨h.1, Sma.sound_update h.2 c⟩
  · exact h

theorem savable_fresh {period : Nat} (h : period < 2 ^ 64) : Savable (Smma.fresh period) :=
  savable_iff_own.2 ⟨⟨h, Nat.two_pow_pos 64, isFinite_zero⟩, Sma.savable_fresh h⟩

instance : Faithful Smma where
  Sound := Started
  load_checkpoint {t s} hs _ hsave := by
    obtain ⟨hown, hsma⟩ := savable_iff_own.1 hsave
    have hread := readRecord_encode "SMMA" (readsBackIff_savedCodec s.saved) (by decide) hown
    refine load_eq_ok.2 ⟨s.saved, hread, hs.1.ne', s.sma, ?_, rfl⟩
    dsimp only [saved]
    exact Faithful.load_checkpoint hs.2 trivial hsma
  savable_of_load {t s s'} ht htsave hs _ _ h htext := by
    obtain ⟨r, hread, hperiod, sma, hload, rfl⟩ := load_eq_ok.1 h
    obtain ⟨hown, rfl⟩ := eq_of_readRecord_encode (readsBackIff_savedCodec s.saved)
      (by decide) hread
    have hsaved := (eq_of_encode_eq (readsBackIff_savedCodec s.saved) (by decide) hown htext
      (readsBackIff_savedCodec _)).2
    have hsma : checkpoint sma = checkpoint s.sma := congrArg Saved.sma hsaved
    dsimp only [saved] at hload
    exact savable_iff_own.2 ⟨hown, Faithful.savable_of_load (Sma.sound_fresh hs.1)
      (Sma.savable_fresh hown.1) hs.2 trivial trivial hload hsma⟩
  sound_of_load _ h := by
    obtain ⟨r, _, hperiod, sma, hload, rfl⟩ := load_eq_ok.1 h
    have hpos := Nat.pos_of_ne_zero hperiod
    exact ⟨hpos, Faithful.sound_of_load (Sma.sound_fresh hpos) hload⟩

end Smma

namespace Rsi

instance : Recorded Rsi where
  plain s := s.value :: s.lastPrice.toList ++ Recorded.plain s.up ++ Recorded.plain s.down
  counts s := s.period :: (Recorded.counts s.up ++ Recorded.counts s.down)

/-- What is said of the record alone. A missing price is written in the same way as one that is not
a number. -/
def Saved.Own (r : Saved) : Prop :=
  r.period < 2 ^ 64 ∧ r.value.isFinite = true

theorem readsBackIff_savedCodec {r : Saved} (hprice : ∀ x ∈ r.lastPrice, x.isFinite = true) :
    savedCodec.ReadsBackIff 1 r r.Own := by
  have hlast : Codec.real.option.ReadsBackIff 0 r.lastPrice True := by
    match r.lastPrice, hprice with
    | none, _ => exact Codec.readsBackIff_none _ _
    | some x, hx =>
        have hfinite := hx x rfl
        exact (Codec.readsBackIff_some (readsBackIff_real x) (Codec.opens_real hfinite)).congr
          (iff_true_intro hfinite)
  have hfields : Rsi.fields.ReadsBackIff 0
      (r.period, r.ready, r.value, r.lastPrice, r.up, r.down, ()) _ :=
    .required _ (readsBackIff_count _) <| .required _ (readsBackIff_boolean _) <|
      .required _ (readsBackIff_real _) <| .optional _ hlast <| .required _ (readsBackIff_text _) <|
      .required _ (readsBackIff_text _) .nil
  have hrecord : savedCodec.ReadsBackIff 1 r _ := .record _ hfields (by decide) rfl
  apply hrecord.congr
  unfold Saved.Own
  tauto

theorem savable_iff_own {s : Rsi} :
    Savable s ↔ (s.saved.Own ∧ ∀ x ∈ s.lastPrice, x.isFinite = true) ∧ Savable s.up ∧
      Savable s.down := by
  simp only [savable_iff, Recorded.plain, Recorded.counts, Recorded.codes, Saved.Own, saved,
    List.cons_append, List.forall_mem_cons, List.forall_mem_append, List.not_mem_nil,
    Option.mem_toList]
  tauto

theorem load_eq_ok {t s : Rsi} {text : String} :
    Persistent.load t text = .ok s ↔ ∃ r, readRecord "RSI" savedCodec text = .ok r ∧
      ∃ up, Persistent.load t.up r.up = .ok up ∧ ∃ down, Persistent.load t.down r.down = .ok down ∧
        s = ⟨r.period, r.lastPrice, up, down, r.ready, r.value⟩ := by
  simp only [Persistent.load, bind_eq_ok, pure, Except.pure, Except.ok.injEq, eq_comm (a := s)]

def Started (s : Rsi) : Prop :=
  Sound s.up ∧ Sound s.down

theorem sound_fresh {period : Nat} (h : 0 < period) : Started (Rsi.fresh period) :=
  ⟨Smma.sound_fresh h, Smma.sound_fresh h⟩

theorem started_update {s : Rsi} (h : s.Started) (c : Candle) : (s.update c).Started := by
  unfold Rsi.update
  split
  · exact h
  · exact ⟨Smma.started_update h.1 _, Smma.started_update h.2 _⟩

theorem savable_fresh {period : Nat} (h : period < 2 ^ 64) : Savable (Rsi.fresh period) :=
  savable_iff_own.2 ⟨⟨⟨h, isFinite_zero⟩, nofun⟩, Smma.savable_fresh h, Smma.savable_fresh h⟩

instance : Faithful Rsi where
  Sound := Started
  Priced s := ∀ x ∈ s.lastPrice, x.isFinite = true
  load_checkpoint {t s} hs _ hsave := by
    obtain ⟨⟨hown, hprice⟩, hup, hdown⟩ := savable_iff_own.1 hsave
    have hread := readRecord_encode "RSI" (readsBackIff_savedCodec (r := s.saved) hprice)
      (by decide) hown
    exact load_eq_ok.2 ⟨s.saved, hread, s.up, Faithful.load_checkpoint hs.1 trivial hup, s.down,
      Faithful.load_checkpoint hs.2 trivial hdown, rfl⟩
  savable_of_load {t s s'} ht htsave hs hprice _ h htext := by
    obtain ⟨r, hread, up, hup, down, hdown, rfl⟩ := load_eq_ok.1 h
    have hreads := readsBackIff_savedCodec (r := s.saved) hprice
    obtain ⟨hown, rfl⟩ := eq_of_readRecord_encode hreads (by decide) hread
    have hsaved := (eq_of_encode_eq hreads (by decide) hown htext
      (readsBackIff_savedCodec hprice)).2
    obtain ⟨-, htup, htdown⟩ := savable_iff_own.1 htsave
    have hsup := Faithful.savable_of_load ht.1 htup hs.1 trivial trivial hup
      (congrArg Saved.up hsaved)
    have hsdown := Faithful.savable_of_load ht.2 htdown hs.2 trivial trivial hdown
      (congrArg Saved.down hsaved)
    exact savable_iff_own.2 ⟨⟨hown, hprice⟩, hsup, hsdown⟩
  sound_of_load ht h := by
    obtain ⟨r, _, up, hup, down, hdown, rfl⟩ := load_eq_ok.1 h
    exact ⟨Faithful.sound_of_load ht.1 hup, Faithful.sound_of_load ht.2 hdown⟩

theorem priced_update (s : Rsi) {c : Candle} (hc : c.close.isFinite = true) :
    Priced (s.update c) := by
  unfold Rsi.update
  split
  · rintro x hx
    cases hx
    exact hc
  · rintro x hx
    cases hx
    exact hc

end Rsi

namespace Macd

instance : Recorded Macd where
  plain s := s.value :: (Recorded.plain s.fast ++ Recorded.plain s.slow ++ Recorded.plain s.signal)
  counts s := Recorded.counts s.fast ++ Recorded.counts s.slow ++ Recorded.counts s.signal

theorem readsBackIff_savedCodec (r : Saved) :
    savedCodec.ReadsBackIff 1 r (r.value.isFinite = true) := by
  have hfields : Macd.fields.ReadsBackIff 0 (r.ready, r.value, r.fast, r.slow, r.signal, ()) _ :=
    .required _ (readsBackIff_boolean _) <| .required _ (readsBackIff_real _) <|
      .required _ (readsBackIff_text _) <| .required _ (readsBackIff_text _) <|
      .required _ (readsBackIff_text _) .nil
  have hrecord : savedCodec.ReadsBackIff 1 r _ := .record _ hfields (by decide) rfl
  apply hrecord.congr
  tauto

theorem savable_iff_own {s : Macd} : Savable s ↔
    s.value.isFinite = true ∧ Savable s.fast ∧ Savable s.slow ∧ Savable s.signal := by
  simp only [savable_iff, Recorded.plain, Recorded.counts, Recorded.codes, List.forall_mem_cons,
    List.forall_mem_append, List.not_mem_nil]
  tauto

theorem load_eq_ok {t s : Macd} {text : String} :
    Persistent.load t text = .ok s ↔ ∃ r, readRecord "MACD" savedCodec text = .ok r ∧
      ∃ fast, Persistent.load t.fast r.fast = .ok fast ∧
      ∃ slow, Persistent.load t.slow r.slow = .ok slow ∧
      ∃ signal, Persistent.load t.signal r.signal = .ok signal ∧
        s = ⟨fast, slow, signal, r.ready, r.value⟩ := by
  simp only [Persistent.load, bind_eq_ok, pure, Except.pure, Except.ok.injEq, eq_comm (a := s)]

theorem savable_fresh {fast slow signal : Nat} (hfast : fast < 2 ^ 64) (hslow : slow < 2 ^ 64)
    (hsignal : signal < 2 ^ 64) : Savable (Macd.fresh fast slow signal) :=
  savable_iff_own.2 ⟨isFinite_zero, Ema.savable_fresh hfast, Ema.savable_fresh hslow,
    Ema.savable_fresh hsignal⟩

instance : Faithful Macd where
  Sound _ := True
  load_checkpoint {t s} _ _ hsave := by
    obtain ⟨hvalue, hfast, hslow, hsignal⟩ := savable_iff_own.1 hsave
    have hread := readRecord_encode "MACD" (readsBackIff_savedCodec s.saved) (by decide) hvalue
    exact load_eq_ok.2 ⟨s.saved, hread, s.fast, Faithful.load_checkpoint trivial trivial hfast,
      s.slow, Faithful.load_checkpoint trivial trivial hslow, s.signal,
      Faithful.load_checkpoint trivial trivial hsignal, rfl⟩
  savable_of_load {t s s'} _ htsave _ _ _ h htext := by
    obtain ⟨r, hread, fast, hfast, slow, hslow, signal, hsignal, rfl⟩ := load_eq_ok.1 h
    obtain ⟨hvalue, rfl⟩ := eq_of_readRecord_encode (readsBackIff_savedCodec s.saved)
      (by decide) hread
    have hsaved := (eq_of_encode_eq (readsBackIff_savedCodec s.saved) (by decide) hvalue htext
      (readsBackIff_savedCodec _)).2
    obtain ⟨-, htfast, htslow, htsignal⟩ := savable_iff_own.1 htsave
    have hsfast := Faithful.savable_of_load trivial htfast trivial trivial trivial hfast
      (congrArg Saved.fast hsaved)
    have hsslow := Faithful.savable_of_load trivial htslow trivial trivial trivial hslow
      (congrArg Saved.slow hsaved)
    have hssignal := Faithful.savable_of_load trivial htsignal trivial trivial trivial hsignal
      (congrArg Saved.signal hsaved)
    exact savable_iff_own.2 ⟨hvalue, hsfast, hsslow, hssignal⟩
  sound_of_load _ _ := trivial

end Macd

namespace Indicator

instance : Recorded Indicator where
  plain
    | sma s => Recorded.plain s
    | ema s => Recorded.plain s
    | smma s => Recorded.plain s
    | rsi s => Recorded.plain s
    | cci s => Recorded.plain s
    | atr s => Recorded.plain s
    | macd s => Recorded.plain s
  counts
    | sma s => Recorded.counts s
    | ema s => Recorded.counts s
    | smma s => Recorded.counts s
    | rsi s => Recorded.counts s
    | cci s => Recorded.counts s
    | atr s => Recorded.counts s
    | macd s => Recorded.counts s

def Started : Indicator → Prop
  | sma s => Sound s
  | ema s => Sound s
  | smma s => Sound s
  | rsi s => Sound s
  | cci s => Sound s
  | atr s => Sound s
  | macd s => Sound s

def Quoted : Indicator → Prop
  | sma s => Priced s
  | ema s => Priced s
  | smma s => Priced s
  | rsi s => Priced s
  | cci s => Priced s
  | atr s => Priced s
  | macd s => Priced s

/-- Both are of one kind. -/
inductive SameKind : Indicator → Indicator → Prop
  | sma (t s : Sma) : SameKind (sma t) (sma s)
  | ema (t s : Ema) : SameKind (ema t) (ema s)
  | smma (t s : Smma) : SameKind (smma t) (smma s)
  | rsi (t s : Rsi) : SameKind (rsi t) (rsi s)
  | cci (t s : Cci) : SameKind (cci t) (cci s)
  | atr (t s : Atr) : SameKind (atr t) (atr s)
  | macd (t s : Macd) : SameKind (macd t) (macd s)

theorem sameKind_of_name {t s : Indicator} (h : t.name = s.name) : SameKind t s := by
  cases t <;> cases s <;> first | constructor | simp [name] at h

theorem wraps_sma : Wraps sma :=
  .of_eq (fun _ => rfl) (fun _ _ => rfl) (fun _ => rfl) (fun _ => rfl) fun _ => rfl

theorem wraps_ema : Wraps ema :=
  .of_eq (fun _ => rfl) (fun _ _ => rfl) (fun _ => rfl) (fun _ => rfl) fun _ => rfl

theorem wraps_smma : Wraps smma :=
  .of_eq (fun _ => rfl) (fun _ _ => rfl) (fun _ => rfl) (fun _ => rfl) fun _ => rfl

theorem wraps_rsi : Wraps rsi :=
  .of_eq (fun _ => rfl) (fun _ _ => rfl) (fun _ => rfl) (fun _ => rfl) fun _ => rfl

theorem wraps_cci : Wraps cci :=
  .of_eq (fun _ => rfl) (fun _ _ => rfl) (fun _ => rfl) (fun _ => rfl) fun _ => rfl

theorem wraps_atr : Wraps atr :=
  .of_eq (fun _ => rfl) (fun _ _ => rfl) (fun _ => rfl) (fun _ => rfl) fun _ => rfl

theorem wraps_macd : Wraps macd :=
  .of_eq (fun _ => rfl) (fun _ _ => rfl) (fun _ => rfl) (fun _ => rfl) fun _ => rfl

instance : Faithful Indicator where
  Sound := Started
  Fits := SameKind
  Priced := Quoted
  load_checkpoint hs hfits h := by
    cases hfits with
    | sma t s => exact wraps_sma.load_checkpoint hs trivial h
    | ema t s => exact wraps_ema.load_checkpoint hs trivial h
    | smma t s => exact wraps_smma.load_checkpoint hs trivial h
    | rsi t s => exact wraps_rsi.load_checkpoint hs trivial h
    | cci t s => exact wraps_cci.load_checkpoint hs trivial h
    | atr t s => exact wraps_atr.load_checkpoint hs trivial h
    | macd t s => exact wraps_macd.load_checkpoint hs trivial h
  savable_of_load ht htsave hs hprice hfits h htext := by
    cases hfits with
    | sma t s => exact wraps_sma.savable_of_load ht htsave hs hprice trivial h htext
    | ema t s => exact wraps_ema.savable_of_load ht htsave hs hprice trivial h htext
    | smma t s => exact wraps_smma.savable_of_load ht htsave hs hprice trivial h htext
    | rsi t s => exact wraps_rsi.savable_of_load ht htsave hs hprice trivial h htext
    | cci t s => exact wraps_cci.savable_of_load ht htsave hs hprice trivial h htext
    | atr t s => exact wraps_atr.savable_of_load ht htsave hs hprice trivial h htext
    | macd t s => exact wraps_macd.savable_of_load ht htsave hs hprice trivial h htext
  sound_of_load {t s text} ht h := by
    cases t with
    | sma t =>
        obtain ⟨s, rfl, hs⟩ := wraps_sma.sound_of_load ht h
        exact hs
    | ema t =>
        obtain ⟨s, rfl, hs⟩ := wraps_ema.sound_of_load ht h
        exact hs
    | smma t =>
        obtain ⟨s, rfl, hs⟩ := wraps_smma.sound_of_load ht h
        exact hs
    | rsi t =>
        obtain ⟨s, rfl, hs⟩ := wraps_rsi.sound_of_load ht h
        exact hs
    | cci t =>
        obtain ⟨s, rfl, hs⟩ := wraps_cci.sound_of_load ht h
        exact hs
    | atr t =>
        obtain ⟨s, rfl, hs⟩ := wraps_atr.sound_of_load ht h
        exact hs
    | macd t =>
        obtain ⟨s, rfl, hs⟩ := wraps_macd.sound_of_load ht h
        exact hs

theorem started_ofPeriod {fresh : Nat → Indicator}
    (h : ∀ period, 0 < period → (fresh period).Started)
    {period : Nat} {i : Indicator} (hi : ofPeriod fresh period = .ok i) : i.Started := by
  rw [ofPeriod] at hi
  split at hi
  · cases hi
  · rename_i hne
    cases hi
    exact h _ (Nat.pos_of_ne_zero hne)

theorem started_update {i : Indicator} (h : i.Started) (c : Candle) : (i.update c).Started := by
  cases i with
  | sma s => exact Sma.sound_update h c
  | ema s => exact h
  | smma s => exact Smma.started_update h c
  | rsi s => exact Rsi.started_update h c
  | cci s => exact Cci.sound_update h c
  | atr s => exact Atr.sound_update h c
  | macd s => exact h

/-- An indicator that can come up: it is made with periods that are not zero, takes candles, and
loads texts, those of other indicators included. -/
inductive Reached : Indicator → Prop
  | sma {period : Nat} {i : Indicator} :
      ofPeriod (fun n => .sma (.fresh n)) period = .ok i → Reached i
  | ema {period : Nat} {i : Indicator} :
      ofPeriod (fun n => .ema (.fresh n)) period = .ok i → Reached i
  | smma {period : Nat} {i : Indicator} :
      ofPeriod (fun n => .smma (.fresh n)) period = .ok i → Reached i
  | rsi {period : Nat} {i : Indicator} :
      ofPeriod (fun n => .rsi (.fresh n)) period = .ok i → Reached i
  | cci {period : Nat} {constant : Float} {i : Indicator} :
      ofPeriod (fun n => .cci (.withConstant n constant)) period = .ok i → Reached i
  | atr {period : Nat} {i : Indicator} :
      ofPeriod (fun n => .atr (.fresh n)) period = .ok i → Reached i
  | macd {fast slow signal : Nat} {i : Indicator} : macdOf fast slow signal = .ok i → Reached i
  | update {i : Indicator} (c : Candle) : Reached i → Reached (i.update c)
  | restore {i : Indicator} (text : String) : Reached i → Reached (restore i text).state

theorem Reached.sound {i : Indicator} (h : Reached i) : Sound i := by
  induction h with
  | sma h => exact started_ofPeriod (fun _ => Sma.sound_fresh) h
  | ema h => exact @started_ofPeriod (fun n => Indicator.ema (.fresh n)) (fun _ _ => trivial) _ _ h
  | smma h => exact started_ofPeriod (fun _ => Smma.sound_fresh) h
  | rsi h => exact started_ofPeriod (fun _ => Rsi.sound_fresh) h
  | cci h => exact started_ofPeriod (fun _ => Cci.sound_withConstant) h
  | atr h => exact started_ofPeriod (fun _ => Atr.sound_fresh) h
  | macd h =>
      rw [macdOf] at h
      split at h
      · cases h
      · cases h
        trivial
  | update c _ ih => exact started_update ih c
  | restore text _ ih => exact sound_restore ih text

end Indicator

end SignalEngine
