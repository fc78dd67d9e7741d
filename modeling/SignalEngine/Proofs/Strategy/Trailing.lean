import SignalEngine.Proofs.Number.Monotone
import SignalEngine.Proofs.Strategy.Position

/-!
How the stop trails. Each close above the line places the stop anew, the percentage below that close,
and nothing else moves it while it is active. So the stop is lifted by a close that is no lower than
the one it was placed at, and let down by a lower one that is still above the line.
-/

namespace SignalEngine.SuperTrend

theorem Config.stop_in_range {config : Config} (h : config.validate = .ok ()) :
    0.0 ≤ config.trailingStop ∧ config.trailingStop < 100.0 := by
  have hperiod : config.rangePeriod ≠ 0 := by
    intro hzero
    rw [validate, if_pos hzero] at h
    cases h
  rw [validate, if_neg hperiod] at h
  cases hrange : (decide (0.0 ≤ config.trailingStop) && decide (config.trailingStop < 100.0)) with
  | false =>
      rw [hrange, if_pos (by decide)] at h
      cases h
  | true => simpa using hrange

theorem Config.nonneg_part {config : Config} (h : config.validate = .ok ()) :
    0.0 ≤ (100.0 - config.trailingStop) / 100.0 := by
  obtain ⟨hnonneg, hlt⟩ := stop_in_range h
  exact Number.div_nonneg_of_pos (Number.sub_nonneg_of_lt hnonneg hlt) (by decide) (by decide)

theorem place_mono {config : Config} (h : config.validate = .ok ()) {x y : Float} (hx : 0.0 < x)
    (hxy : x ≤ y) (hy : y.isFinite = true) :
    ((StopLoss.fresh config.trailingStop).place x).stopPrice ≤
      ((StopLoss.fresh config.trailingStop).place y).stopPrice :=
  Number.mul_le_mul_of_nonneg (Config.nonneg_part h) hx hxy hy

/-- While the stop stays active it only moves to a close above the line. -/
theorem stop_update {s : State} {c : Candle} (h : (s.update c).1.stop.active = true) :
    (s.ClosesAbove c → (s.update c).1.stop = s.stop.place c.close) ∧
      (¬ s.ClosesAbove c → (s.update c).1.stop = s.stop) := by
  obtain ⟨-, hstop, -⟩ := s.advance_frame c
  rw [← hstop]
  rcases s.update_cases c with ⟨hwaits, hstate, -⟩ | ⟨hbegun, htrades⟩
  · refine ⟨fun hcloses => ?_, fun _ => by rw [hstate]⟩
    rw [hcloses.1] at hwaits
    cases hwaits
  · have habove (h' : (s.advance c).1.bands.line < c.close) : s.ClosesAbove c := ⟨hbegun, h'⟩
    generalize (s.update c).1 = t at h htrades ⊢
    generalize (s.update c).2 = signal at htrades
    cases htrades with
    | stopped htriggered => cases h
    | held hline hsmall => exact ⟨fun _ => rfl, fun hnot => absurd (habove hline) hnot⟩
    | bought hline hgrown => exact ⟨fun _ => rfl, fun hnot => absurd (habove hline) hnot⟩
    | sold hbelow => cases h
    | rested hline => exact ⟨fun hcloses => absurd hcloses.2 hline, fun _ => rfl⟩

theorem exists_after_pasts (s : State) (between : List Candle) :
    ∃ t : State, Strategic.after (Strategy.superTrend s) (between.map .past) = .superTrend t ∧
      t.stop = s.stop := by
  induction between generalizing s with
  | nil => exact ⟨s, rfl, rfl⟩
  | cons c rest ih =>
      obtain ⟨t, ht, hstop⟩ := ih (s.preload c)
      exact ⟨t, ht, hstop.trans (s.advance_frame c).2.1⟩

/-- Of two updates with only candles of the past between them, after both of which the stop is active:
the second places the stop anew just when it closes above the line, and the stop price does not fall
unless this close is below the one that the stop was placed at. -/
theorem stop_trails {config : Config} (hconfig : config.validate = .ok ()) (before : List Feed)
    (c₁ : Candle) (between : List Candle) (c₂ : Candle)
    (hprices : ∀ c ∈ before.map Feed.candle ++ [c₁, c₂], 0.0 < c.close ∧ c.close.isFinite = true) :
    ∃ s₁ s : State, Strategic.after config.opened (before ++ [.present c₁]) = .superTrend s₁ ∧
      Strategic.after (Strategy.superTrend s₁) (between.map .past) = .superTrend s ∧
      s₁.stop.percentage = config.trailingStop ∧
      (s₁.stop.active = true → (s.update c₂).1.stop.active = true →
        (s.ClosesAbove c₂ → (s.update c₂).1.stop = s₁.stop.place c₂.close) ∧
        (¬ s.ClosesAbove c₂ → (s.update c₂).1.stop = s₁.stop) ∧
        (¬ (s.ClosesAbove c₂ ∧ c₂.close < s₁.stop.reference) →
          s₁.stop.stopPrice ≤ (s.update c₂).1.stop.stopPrice)) := by
  obtain ⟨s₁, hafter, hs₁⟩ := exists_positioned config (before ++ [.present c₁])
  obtain ⟨s, hbetween, hstop⟩ := exists_after_pasts s₁ between
  refine ⟨s₁, s, hafter, hbetween, hs₁.percentage, fun hactive hstays => ?_⟩
  obtain ⟨hplaced, hkept⟩ := stop_update hstays
  rw [hstop] at hplaced hkept
  refine ⟨hplaced, hkept, fun hlower => ?_⟩
  obtain ⟨-, f, hf, hstands⟩ := hs₁.placed hactive
  obtain ⟨hpos, hfinite⟩ : 0.0 < f.candle.close ∧ f.candle.close.isFinite = true := by
    refine hprices f.candle ?_
    rcases List.mem_append.1 hf with hold | hnew
    · exact List.mem_append_left _ (List.mem_map_of_mem hold)
    · obtain rfl := List.mem_singleton.1 hnew
      exact List.mem_append_right _ List.mem_cons_self
  obtain ⟨hpos₂, hfinite₂⟩ := hprices c₂ (by simp)
  by_cases hcloses : s.ClosesAbove c₂
  · have hle : f.candle.close ≤ c₂.close := by
      apply Number.le_of_not_lt (Number.isNaN_of_lt hpos₂).2 (Number.isNaN_of_lt hpos).2
      intro hlt
      rw [hstands] at hlower
      exact hlower ⟨hcloses, hlt⟩
    rw [hplaced hcloses, hs₁.place_eq, hstands]
    exact place_mono hconfig hpos hle hfinite₂
  · rw [hkept hcloses, hstands]
    exact place_mono hconfig hpos (Number.le_self (Number.isNaN_of_lt hpos).2) hfinite

/-- A rising close lifts the stop, across a candle of the past. -/
theorem stop_trails_rising :
    let config := { Config.standard with rangePeriod := 1 }
    let c₁ := Candle.ofPrices 0 100.0 101.0 99.0 100.0 0.0
    let c := Candle.ofPrices 1 100.0 102.0 100.0 101.0 0.0
    let c₂ := Candle.ofPrices 2 101.0 103.0 101.0 102.0 0.0
    let s₁ := ((State.fresh config).update c₁).1
    let s := s₁.preload c
    config.validate = .ok () ∧
      (∀ c ∈ [c₁, c₂], 0.0 < c.close ∧ c.close.isFinite = true) ∧
      s₁.stop.active = true ∧ (s.update c₂).1.stop.active = true ∧
      ¬ (s.ClosesAbove c₂ ∧ c₂.close < s₁.stop.reference) ∧
      s₁.stop.stopPrice ≤ (s.update c₂).1.stop.stopPrice := by
  intro config c₁ c c₂ s₁ s
  have hconfig : config.validate = .ok () := by decide +kernel
  have hprices : ∀ c ∈ [c₁, c₂], 0.0 < c.close ∧ c.close.isFinite = true := by decide +kernel
  have hactive : s₁.stop.active = true := by decide +kernel
  have hstays : (s.update c₂).1.stop.active = true := by decide +kernel
  have hhigher : ¬ c₂.close < s₁.stop.reference := by decide +kernel
  obtain ⟨t₁, t, h₁, h, -, htrails⟩ := stop_trails hconfig [] c₁ [c] c₂ hprices
  obtain rfl : s₁ = t₁ := Strategy.superTrend.inj h₁
  obtain rfl : s = t := Strategy.superTrend.inj h
  have hlower : ¬ (s.ClosesAbove c₂ ∧ c₂.close < s₁.stop.reference) := fun hfalls => hhigher hfalls.2
  exact ⟨hconfig, hprices, hactive, hstays, hlower, (htrails hactive hstays).2.2 hlower⟩

/-- A falling close that is still above the line lets the stop down. -/
theorem stop_falls :
    let config := { Config.standard with rangePeriod := 1 }
    let c₁ := Candle.ofPrices 0 100.0 101.0 99.0 100.0 0.0
    let c₂ := Candle.ofPrices 1 99.0 100.0 98.0 99.0 0.0
    let s₁ := ((State.fresh config).update c₁).1
    let s₂ := (s₁.update c₂).1
    config.validate = .ok () ∧
      (∀ c ∈ [c₁, c₂], ∀ price ∈ [c.opening, c.high, c.low, c.close],
        0.0 < price ∧ price.isFinite = true) ∧
      Strategic.after config.opened [.present c₁, .present c₂] = .superTrend s₂ ∧
      s₁.stop.active = true ∧ s₂.stop.active = true ∧ ¬ s₁.stop.stopPrice ≤ s₂.stop.stopPrice := by
  intro config c₁ c₂ s₁ s₂
  have hconfig : config.validate = .ok () := by decide +kernel
  have hprices : ∀ c ∈ [c₁, c₂], ∀ price ∈ [c.opening, c.high, c.low, c.close],
      0.0 < price ∧ price.isFinite = true := by decide +kernel
  have hafter : Strategic.after config.opened [.present c₁, .present c₂] = .superTrend s₂ := rfl
  have hactive : s₁.stop.active = true ∧ s₂.stop.active = true := by decide +kernel
  have hfalls : ¬ s₁.stop.stopPrice ≤ s₂.stop.stopPrice := by decide +kernel
  exact ⟨hconfig, hprices, hafter, hactive.1, hactive.2, hfalls⟩

end SignalEngine.SuperTrend
