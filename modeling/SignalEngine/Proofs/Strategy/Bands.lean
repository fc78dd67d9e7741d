import SignalEngine.Proofs.Checkpoint.Trend
import SignalEngine.Proofs.Indicator.TrueRange
import SignalEngine.Proofs.Number.Order
import SignalEngine.Proofs.Strategy.Position

/-!
The line of the trend strategy and its bands. The next side is found by comparing the line with the old
bands and the close with the new ones. As long as all of these are numbers one of the four cases applies,
because the line has been on one of the bands since it was zero, as they were.
-/

namespace SignalEngine.SuperTrend

namespace Bands

/-- The line is one of the bands. -/
def OnBand (b : Bands) : Prop :=
  b.line = b.upper ∨ b.line = b.lower

/-- Both bands are numbers. -/
def AreNumbers (b : Bands) : Prop :=
  b.upper.isNaN = false ∧ b.lower.isNaN = false

instance (b : Bands) : Decidable b.AreNumbers :=
  inferInstanceAs (Decidable (_ ∧ _))

theorem onBand_zero : zero.OnBand :=
  .inl rfl

/-- A line on a band stays there or changes to the other one, whatever the numbers are. -/
theorem exists_side {b : Bands} (hline : b.OnBand) (hbands : b.AreNumbers) {close upper lower : Float}
    (hclose : close.isNaN = false) (hupper : upper.isNaN = false) (hlower : lower.isNaN = false) :
    ∃ side, b.side? close upper lower = some side := by
  rw [side?]
  split_ifs with hfalls hleaves hrises henters
  · exact ⟨.upper, rfl⟩
  · exact ⟨.lower, rfl⟩
  · exact ⟨.lower, rfl⟩
  · exact ⟨.upper, rfl⟩
  -- the band that the line is on can be compared with the close, one way or the other
  · rw [Bool.and_eq_true, decide_eq_true_iff] at hfalls hleaves hrises henters
    exfalso
    rcases hline with hline | hline <;> rw [hline] at hfalls hleaves hrises henters
    · rcases Number.le_or_le hclose hupper with hle | hle
      · exact hfalls ⟨Number.beq_self hbands.1, hle⟩
      · exact hleaves ⟨Number.beq_self hbands.1, hle⟩
    · rcases Number.le_or_le hlower hclose with hle | hle
      · exact hrises ⟨Number.beq_self hbands.2, hle⟩
      · exact henters ⟨Number.beq_self hbands.2, hle⟩

end Bands

namespace State

theorem onBand_of_side {s : State} {c : Candle} {side : Side}
    (h : s.bands.side? c.close (s.follow c).bands.upper (s.follow c).bands.lower = some side) :
    (s.follow c).bands.OnBand := by
  simp only [follow] at h
  cases side with
  | upper =>
      left
      simp only [follow, h]
  | lower =>
      right
      simp only [follow, h]

theorem advance_cases (s : State) (c : Candle) :
    s.age + 1 < s.config.rangePeriod ∧
        s.advance c = ({ s with range := s.range.update c, age := s.age + 1 }, false) ∨
      s.config.rangePeriod ≤ s.age + 1 ∧
        s.advance c = ({ s with range := s.range.update c, age := s.age + 1 }.follow c, true) := by
  rcases Nat.lt_or_ge (s.age + 1) s.config.rangePeriod with hlt | hle
  · exact .inl ⟨hlt, if_pos hlt⟩
  · exact .inr ⟨hle, if_neg (Nat.not_lt.2 hle)⟩

theorem Trades.exists_eq {s t : State} {close : Float} {signal : Option Signal}
    (h : s.Trades close t signal) :
    ∃ stop last, t = { s with stop := stop, lastBuyConfidence := last } := by
  cases h <;> exact ⟨_, _, rfl⟩

theorem update_eq_advance (s : State) (c : Candle) :
    ∃ stop last, (s.update c).1 = { (s.advance c).1 with stop := stop, lastBuyConfidence := last } := by
  rcases s.update_cases c with ⟨-, hstate, -⟩ | ⟨-, htrades⟩
  · exact ⟨_, _, hstate⟩
  · exact htrades.exists_eq

theorem exists_after_feed (s : State) (f : Feed) :
    ∃ stop last, Strategic.after (Strategy.superTrend s) [f] =
      .superTrend { (s.advance f.candle).1 with stop := stop, lastBuyConfidence := last } := by
  cases f with
  | past c => exact ⟨_, _, rfl⟩
  | present c =>
      obtain ⟨stop, last, hupdate⟩ := s.update_eq_advance c
      exact ⟨stop, last, congrArg Strategy.superTrend hupdate⟩

/-- The bands have not begun: what is written with them is as it was at the start. -/
def Unbegun (s : State) : Prop :=
  s.bands = Bands.zero ∧ s.lastClose = 0.0 ∧ s.confidence = 0.0

/-- The state is that of a strategy that has seen these candles. -/
structure Tracks (s : State) (config : Config) (candles : List Candle) : Prop where
  settings : s.config = config
  age : s.age = candles.length
  range : s.range.Remembers config.rangePeriod candles
  unbegun : s.range.ready = false → s.Unbegun

namespace Tracks

variable {s : State} {config : Config} {candles : List Candle}

theorem fresh (hconfig : config.validate = .ok ()) : (State.fresh config).Tracks config [] where
  settings := rfl
  age := rfl
  range := .fresh (Config.rangePeriod_pos hconfig)
  unbegun _ := ⟨rfl, rfl, rfl⟩

theorem advance (h : s.Tracks config candles) (hconfig : config.validate = .ok ()) (c : Candle) :
    (s.advance c).1.Tracks config (candles ++ [c]) := by
  have hrange := h.range.update (Config.rangePeriod_pos hconfig) c
  have hlength : (candles ++ [c]).length = s.age + 1 := by
    rw [List.length_append, List.length_singleton, h.age]
  rcases s.advance_cases c with ⟨hlt, hstep⟩ | ⟨hle, hstep⟩ <;> rw [hstep]
  · refine ⟨h.settings, hlength.symm, hrange, fun _ => h.unbegun ?_⟩
    rw [h.range.ready, decide_eq_false_iff_not, ← h.age, ← h.settings]
    omega
  -- once the bands are written the average range is ready, and stays so
  · have hready : (s.range.update c).ready = true := by
      rw [hrange.ready, hlength, ← h.settings]
      exact decide_eq_true hle
    refine ⟨h.settings, hlength.symm, hrange, fun hunready => ?_⟩
    cases hready.symm.trans hunready

/-- The bands begin with the candle that makes the average range ready. -/
theorem active_iff (h : s.Tracks config candles) (hconfig : config.validate = .ok ()) (c : Candle) :
    (s.advance c).2 = true ↔ (s.advance c).1.range.ready = true := by
  rw [(h.advance hconfig c).range.ready, decide_eq_true_iff, List.length_append,
    List.length_singleton, ← h.age, ← h.settings]
  rcases s.advance_cases c with ⟨hlt, hstep⟩ | ⟨hle, hstep⟩ <;> rw [hstep]
  · exact iff_of_false Bool.false_ne_true (Nat.not_le.2 hlt)
  · exact iff_of_true rfl hle

end Tracks

end State

/-- The closes are numbers, and so are the bands that have been computed on the way. -/
structure Comparable (config : Config) (history : List Feed) : Prop where
  closes : ∀ f ∈ history, f.candle.close.isNaN = false
  bands : ∀ before s, before <+: history → Strategic.after config.opened before = .superTrend s →
    s.bands.AreNumbers

theorem Comparable.init {config : Config} {history : List Feed} {f : Feed}
    (h : Comparable config (history ++ [f])) : Comparable config history where
  closes g hg := h.closes g (List.mem_append_left _ hg)
  bands before s hbefore hs := h.bands before s (hbefore.trans (List.prefix_append _ _)) hs

/-- The state after a history, and where the line is if all is comparable. -/
structure State.Lined (s : State) (config : Config) (history : List Feed) : Prop where
  after : Strategic.after config.opened history = .superTrend s
  tracks : s.Tracks config (history.map Feed.candle)
  line : Comparable config history → s.bands.OnBand

namespace State.Lined

variable {s : State} {config : Config} {history : List Feed}

theorem fresh (hconfig : config.validate = .ok ()) : (State.fresh config).Lined config [] where
  after := rfl
  tracks := .fresh hconfig
  line _ := Bands.onBand_zero

theorem onBand_advance (h : s.Lined config history) {f : Feed}
    (hcomparable : Comparable config (history ++ [f]))
    (hnew : (s.advance f.candle).1.bands.AreNumbers) :
    (s.advance f.candle).1.bands.OnBand ∧
      ((s.advance f.candle).2 = true →
        ∃ side, s.bands.side? f.candle.close (s.advance f.candle).1.bands.upper
          (s.advance f.candle).1.bands.lower = some side) := by
  have hclose := hcomparable.closes f (List.mem_append_right _ List.mem_cons_self)
  rcases s.advance_cases f.candle with ⟨-, hstep⟩ | ⟨-, hstep⟩ <;> rw [hstep] at hnew ⊢
  · exact ⟨h.line hcomparable.init, nofun⟩
  · obtain ⟨side, hside⟩ := Bands.exists_side (h.line hcomparable.init)
      (hcomparable.init.bands history s List.prefix_rfl h.after) hclose hnew.1 hnew.2
    exact ⟨onBand_of_side hside, fun _ => ⟨side, hside⟩⟩

theorem step (h : s.Lined config history) (hconfig : config.validate = .ok ()) (f : Feed) :
    ∃ stop last, { (s.advance f.candle).1 with stop := stop, lastBuyConfidence := last }.Lined config
      (history ++ [f]) := by
  obtain ⟨stop, last, hstep⟩ := s.exists_after_feed f
  rw [← h.after, ← Strategic.after_append] at hstep
  have htracks := h.tracks.advance hconfig f.candle
  refine ⟨stop, last, hstep, ?_, fun hcomparable => ?_⟩
  · rw [List.map_append, List.map_singleton]
    exact ⟨htracks.settings, htracks.age, htracks.range, htracks.unbegun⟩
  · have hnew := hcomparable.bands _ _ List.prefix_rfl hstep
    exact (h.onBand_advance hcomparable hnew).1

end State.Lined

theorem exists_lined {config : Config} (hconfig : config.validate = .ok ()) (history : List Feed) :
    ∃ s : State, s.Lined config history := by
  induction history using List.reverseRecOn with
  | nil => exact ⟨_, .fresh hconfig⟩
  | append_singleton history f ih =>
      obtain ⟨s, hs⟩ := ih
      obtain ⟨stop, last, hlined⟩ := hs.step hconfig f
      exact ⟨_, hlined⟩

/-- Of every candle after every history: the bands are written just when the average range is ready
with it. If they are, and all that is compared are numbers, the line is one of the new bands, and the
side of it has been found. If they are not, nothing has been written yet. -/
theorem line_onBand {config : Config} (hconfig : config.validate = .ok ()) (history : List Feed)
    (f : Feed) :
    ∃ s t : State, Strategic.after config.opened history = .superTrend s ∧
      Strategic.after config.opened (history ++ [f]) = .superTrend t ∧
      ((s.advance f.candle).2 = true ↔ t.range.ready = true) ∧
      ((s.advance f.candle).2 = true → Comparable config (history ++ [f]) →
        (t.bands.line = t.bands.upper ∨ t.bands.line = t.bands.lower) ∧
        ∃ side, s.bands.side? f.candle.close t.bands.upper t.bands.lower = some side) ∧
      ((s.advance f.candle).2 = false → t.bands = Bands.zero ∧ t.lastClose = 0.0 ∧ t.confidence = 0.0) := by
  obtain ⟨s, hs⟩ := exists_lined hconfig history
  obtain ⟨stop, last, ht⟩ := hs.step hconfig f
  have hready := hs.tracks.active_iff hconfig f.candle
  refine ⟨s, _, hs.after, ht.after, hready, fun hactive hcomparable => ?_, fun hinactive => ?_⟩
  · have hnew := hcomparable.bands _ _ List.prefix_rfl ht.after
    exact ⟨ht.line hcomparable, (hs.onBand_advance hcomparable hnew).2 hactive⟩
  · apply ht.tracks.unbegun
    exact Bool.eq_false_iff.2 (mt hready.2 (Bool.eq_false_iff.1 hinactive))

/-- The second candle begins the bands, and closes between them. -/
theorem line_onBand_begun :
    let config := { Config.standard with rangePeriod := 2 }
    let c₁ := Candle.ofPrices 0 100.0 101.0 99.0 100.0 0.0
    let c₂ := Candle.ofPrices 1 100.0 102.0 100.0 101.0 0.0
    let s := (State.fresh config).preload c₁
    let t := (s.update c₂).1
    config.validate = .ok () ∧ Comparable config [.past c₁, .present c₂] ∧
      (s.advance c₂).2 = true ∧ t.range.ready = true ∧
      (t.bands.line = t.bands.upper ∨ t.bands.line = t.bands.lower) := by
  intro config c₁ c₂ s t
  have hconfig : config.validate = .ok () := by decide +kernel
  have hactive : (s.advance c₂).2 = true := by decide +kernel
  have hcomparable : Comparable config [.past c₁, .present c₂] := by
    constructor
    case closes => decide +kernel
    case bands =>
      intro before u hbefore hu
      simp only [List.prefix_cons_iff, List.prefix_nil] at hbefore
      rcases hbefore with rfl | ⟨_, rfl, rfl | ⟨_, rfl, rfl⟩⟩
      · obtain rfl : State.fresh config = u := Strategy.superTrend.inj hu
        decide +kernel
      · obtain rfl : s = u := Strategy.superTrend.inj hu
        decide +kernel
      · obtain rfl : t = u := Strategy.superTrend.inj hu
        decide +kernel
  obtain ⟨s', t', hs, ht, hready, hline, -⟩ := line_onBand hconfig [.past c₁] (.present c₂)
  obtain rfl : s = s' := Strategy.superTrend.inj hs
  obtain rfl : t = t' := Strategy.superTrend.inj ht
  exact ⟨hconfig, hcomparable, hactive, hready.1 hactive, (hline hactive hcomparable).1⟩

end SignalEngine.SuperTrend
