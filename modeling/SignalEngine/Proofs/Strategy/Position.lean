import SignalEngine.Proofs.Session.History
import SignalEngine.Strategy.Basic

namespace SignalEngine.SuperTrend

/-- What is done about a close, and what comes of it. -/
inductive State.Trades (s : State) (close : Float) : State → Option Signal → Prop
  | stopped (htriggered : s.stop.isTriggered close = true) :
      Trades s close s.leave (some (.sure .closeLong))
  | held (habove : s.bands.line < close)
      (hsmall : s.buyConfidence - s.lastBuyConfidence < s.config.confidenceBias) :
      Trades s close { s with stop := s.stop.place close } none
  | bought (habove : s.bands.line < close)
      (hgrown : ¬ s.buyConfidence - s.lastBuyConfidence < s.config.confidenceBias) :
      Trades s close { s with stop := s.stop.place close, lastBuyConfidence := s.buyConfidence }
        (some ⟨.openLong, s.buyConfidence⟩)
  | sold (hbelow : close < s.bands.line) : Trades s close s.leave (some (.sure .openShort))
  | rested (hline : ¬ s.bands.line < close) : Trades s close s none

theorem State.trades (s : State) (close : Float) :
    s.Trades close (s.trade close).1 (s.trade close).2 := by
  unfold State.trade
  split
  · exact .stopped ‹_›
  split
  · rename_i habove
    dsimp only
    split
    · rename_i hsmall
      exact .held habove hsmall
    · rename_i hgrown
      exact .bought habove hgrown
  split
  · exact .sold ‹_›
  · exact .rested ‹_›

theorem State.advance_frame (s : State) (c : Candle) :
    (s.advance c).1.config = s.config ∧ (s.advance c).1.stop = s.stop ∧
      (s.advance c).1.lastBuyConfidence = s.lastBuyConfidence := by
  unfold State.advance
  dsimp only
  split
  · exact ⟨rfl, rfl, rfl⟩
  · exact ⟨rfl, rfl, rfl⟩

/-- A candle of the present is only taken in as long as the bands have not begun, and is traded on from
then on. -/
theorem State.update_cases (s : State) (c : Candle) :
    (s.advance c).2 = false ∧ (s.update c).1 = (s.advance c).1 ∧ (s.update c).2 = none ∨
      (s.advance c).2 = true ∧ (s.advance c).1.Trades c.close (s.update c).1 (s.update c).2 := by
  rw [State.update]
  obtain ⟨s', begun⟩ := s.advance c
  cases begun with
  | false => exact .inl ⟨rfl, rfl, rfl⟩
  | true => exact .inr ⟨rfl, s'.trades c.close⟩

section Signal

variable {s : State} {c : Candle} {g : Signal}

theorem trades_of_signal (h : (s.update c).2 = some g) :
    (s.advance c).1.Trades c.close (s.update c).1 (some g) := by
  rcases s.update_cases c with ⟨-, -, hnone⟩ | ⟨-, htrades⟩
  · rw [hnone] at h
    cases h
  · rwa [h] at htrades

theorem active_eq_false_of_isBearish (h : (s.update c).2 = some g) (hg : g.kind.isBearish = true) :
    (s.update c).1.stop.active = false := by
  have htrades := trades_of_signal h
  generalize (s.update c).1 = t at htrades ⊢
  cases htrades with
  | stopped htriggered => rfl
  | bought habove hgrown => cases hg
  | sold hbelow => rfl

theorem active_of_closeLong (h : (s.update c).2 = some g) (hg : g.kind = .closeLong) :
    s.stop.active = true := by
  have htrades := trades_of_signal h
  generalize (s.update c).1 = t at htrades
  cases htrades with
  | stopped htriggered =>
      rw [StopLoss.isTriggered, (s.advance_frame c).2.1, Bool.and_eq_true] at htriggered
      exact htriggered.1
  | bought habove hgrown => cases hg
  | sold hbelow => cases hg

/-- A buy has grown by the bias against the last one, and is the last one from then on. -/
theorem grown_of_openLong (h : (s.update c).2 = some g) (hg : g.kind = .openLong) :
    (s.update c).1.lastBuyConfidence = g.confidence ∧
      ¬ g.confidence - s.lastBuyConfidence < s.config.confidenceBias := by
  obtain ⟨hconfig, -, hlast⟩ := s.advance_frame c
  have htrades := trades_of_signal h
  rw [← hconfig, ← hlast]
  generalize (s.update c).1 = t at htrades ⊢
  cases htrades with
  | stopped htriggered => cases hg
  | bought habove hgrown => exact ⟨rfl, hgrown⟩
  | sold hbelow => cases hg

theorem update_frame (h : ∀ g ∈ (s.update c).2, g.kind ≠ .openLong ∧ g.kind.isBearish = false) :
    (s.update c).1.config = s.config ∧ (s.update c).1.lastBuyConfidence = s.lastBuyConfidence := by
  obtain ⟨hconfig, -, hlast⟩ := s.advance_frame c
  rw [← hconfig, ← hlast]
  rcases s.update_cases c with ⟨-, hstate, -⟩ | ⟨-, htrades⟩
  · rw [hstate]
    exact ⟨rfl, rfl⟩
  · generalize (s.update c).1 = t at htrades ⊢
    generalize (s.update c).2 = signal at h htrades
    cases htrades with
    | stopped htriggered => exact absurd (h _ rfl).2 (by decide)
    | held habove hsmall => exact ⟨rfl, rfl⟩
    | bought habove hgrown => exact absurd rfl (h _ rfl).1
    | sold hbelow => exact absurd (h _ rfl).2 (by decide)
    | rested hline => exact ⟨rfl, rfl⟩

end Signal

/-- The candle closes above the line that is computed for it. -/
def State.ClosesAbove (s : State) (c : Candle) : Prop :=
  (s.advance c).2 = true ∧ (s.advance c).1.bands.line < c.close

def Config.opened (config : Config) : Strategy :=
  .superTrend (.fresh config)

/-- No answer closes a long position or opens a short one. -/
def Unsold (answers : List (Candle × Option Signal)) : Prop :=
  ∀ answer ∈ answers, ∀ g ∈ answer.2, g.kind.isBearish = false

/-- No answer opens a long position either. -/
def Untouched (answers : List (Candle × Option Signal)) : Prop :=
  ∀ answer ∈ answers, ∀ g ∈ answer.2, g.kind ≠ .openLong ∧ g.kind.isBearish = false

/-- Some update has closed above the line, and nothing bearish has been signalled from then on. -/
def Risen (config : Config) (history : List Feed) : Prop :=
  ∃ before c rest s, history = before ++ .present c :: rest ∧
    Strategic.after config.opened before = .superTrend s ∧ s.ClosesAbove c ∧
    Unsold (Strategic.answers (Strategy.superTrend s) (.present c :: rest))

theorem unsold_concat {answers : List (Candle × Option Signal)} (h : Unsold answers) {c : Candle}
    {signal : Option Signal} (hsignal : ∀ g ∈ signal, g.kind.isBearish = false) :
    Unsold (answers ++ [(c, signal)]) := by
  rintro answer hanswer
  rcases List.mem_append.1 hanswer with hold | hnew
  · exact h answer hold
  · obtain rfl := List.mem_singleton.1 hnew
    exact hsignal

section Risen

variable {config : Config} {history : List Feed} {s : State}

theorem risen_past (h : Risen config history) (c : Candle) :
    Risen config (history ++ [.past c]) := by
  obtain ⟨before, c₁, rest, s₁, rfl, hs₁, habove, hunsold⟩ := h
  refine ⟨before, c₁, rest ++ [.past c], s₁, by simp, hs₁, habove, ?_⟩
  rw [← List.cons_append, Strategic.answers_past]
  exact hunsold

theorem risen_present (h : Risen config history)
    (hs : Strategic.after config.opened history = .superTrend s) {c : Candle}
    (hsignal : ∀ g ∈ (s.update c).2, g.kind.isBearish = false) :
    Risen config (history ++ [.present c]) := by
  obtain ⟨before, c₁, rest, s₁, rfl, hs₁, habove, hunsold⟩ := h
  rw [Strategic.after_append, hs₁] at hs
  refine ⟨before, c₁, rest ++ [.present c], s₁, by simp, hs₁, habove, ?_⟩
  rw [← List.cons_append, Strategic.answers_present, hs]
  exact unsold_concat hunsold hsignal

theorem risen_self (hs : Strategic.after config.opened history = .superTrend s) {c : Candle}
    (habove : s.ClosesAbove c) (hsignal : ∀ g ∈ (s.update c).2, g.kind.isBearish = false) :
    Risen config (history ++ [.present c]) := by
  refine ⟨history, c, [], s, rfl, hs, habove, ?_⟩
  have hnil : Unsold [] := List.forall_mem_nil _
  exact unsold_concat hnil hsignal

end Risen

/-- The position that a state holds goes with what has been signalled. -/
structure State.Positioned (s : State) (config : Config) (history : List Feed) : Prop where
  after : Strategic.after config.opened history = .superTrend s
  settings : s.config = config
  lifted : s.stop.active = false →
    s.stop = .fresh config.trailingStop ∧ s.lastBuyConfidence = 0.0
  placed : s.stop.active = true → Risen config history ∧
    ∃ f ∈ history, s.stop = (StopLoss.fresh config.trailingStop).place f.candle.close

namespace State.Positioned

variable {s : State} {config : Config} {history : List Feed}

theorem fresh (config : Config) : (State.fresh config).Positioned config [] where
  after := rfl
  settings := rfl
  lifted _ := ⟨rfl, rfl⟩
  placed := nofun

theorem percentage (h : s.Positioned config history) :
    s.stop.percentage = config.trailingStop := by
  cases hactive : s.stop.active with
  | false =>
      rw [(h.lifted hactive).1]
      rfl
  | true =>
      obtain ⟨-, f, -, hstop⟩ := h.placed hactive
      rw [hstop]
      rfl

theorem lift_eq (h : s.Positioned config history) :
    s.stop.lift = .fresh config.trailingStop := by
  rw [← h.percentage]
  rfl

theorem place_eq (h : s.Positioned config history) (close : Float) :
    s.stop.place close = (StopLoss.fresh config.trailingStop).place close := by
  rw [← h.percentage]
  rfl

theorem keep (h : s.Positioned config history) {t : State} {f : Feed}
    (ht : Strategic.after config.opened (history ++ [f]) = .superTrend t)
    (hconfig : t.config = s.config) (hstop : t.stop = s.stop)
    (hlast : t.lastBuyConfidence = s.lastBuyConfidence)
    (hrisen : Risen config history → Risen config (history ++ [f])) :
    t.Positioned config (history ++ [f]) where
  after := ht
  settings := hconfig.trans h.settings
  lifted hactive := by
    rw [hstop] at hactive ⊢
    rw [hlast]
    exact h.lifted hactive
  placed hactive := by
    rw [hstop] at hactive ⊢
    obtain ⟨hpast, f', hf', hplace⟩ := h.placed hactive
    exact ⟨hrisen hpast, f', List.mem_append_left _ hf', hplace⟩

theorem preload (h : s.Positioned config history) (c : Candle) :
    (s.preload c).Positioned config (history ++ [.past c]) := by
  obtain ⟨hconfig, hstop, hlast⟩ := s.advance_frame c
  refine h.keep ?_ hconfig hstop hlast fun hrisen => risen_past hrisen c
  rw [Strategic.after_past, h.after]
  rfl

theorem update (h : s.Positioned config history) (c : Candle) :
    (s.update c).1.Positioned config (history ++ [.present c]) := by
  obtain ⟨hconfig, hstop, hlast⟩ := s.advance_frame c
  have hafter :
      Strategic.after config.opened (history ++ [.present c]) = .superTrend (s.update c).1 := by
    rw [Strategic.after_present, h.after]
    rfl
  have hself : s.ClosesAbove c → (∀ g ∈ (s.update c).2, g.kind.isBearish = false) →
    Risen config (history ++ [.present c]) := risen_self h.after
  have hpresent : (∀ g ∈ (s.update c).2, g.kind.isBearish = false) → Risen config history →
    Risen config (history ++ [.present c]) := fun hsignal hrisen =>
    risen_present hrisen h.after hsignal
  have hmem : Feed.present c ∈ history ++ [.present c] := by simp
  rcases s.update_cases c with ⟨-, hstate, hsignal⟩ | ⟨hbegun, htrades⟩
  · rw [hsignal] at hpresent
    rw [hstate] at hafter ⊢
    exact h.keep hafter hconfig hstop hlast (hpresent nofun)
  · have habove (h' : (s.advance c).1.bands.line < c.close) : s.ClosesAbove c := ⟨hbegun, h'⟩
    have hplace := h.place_eq c.close
    rw [← hstop] at hplace
    generalize (s.update c).1 = t at hafter htrades ⊢
    generalize (s.update c).2 = signal at hself hpresent htrades
    cases htrades with
    | stopped htriggered =>
        refine ⟨hafter, hconfig.trans h.settings, fun _ => ⟨?_, rfl⟩, nofun⟩
        rw [← h.lift_eq, ← hstop]
        rfl
    | held hline hsmall =>
        refine ⟨hafter, hconfig.trans h.settings, nofun, fun _ => ⟨?_, _, hmem, hplace⟩⟩
        exact hself (habove hline) nofun
    | bought hline hgrown =>
        refine ⟨hafter, hconfig.trans h.settings, nofun, fun _ => ⟨?_, _, hmem, hplace⟩⟩
        apply hself (habove hline)
        rintro g ⟨⟩
        rfl
    | sold hbelow =>
        refine ⟨hafter, hconfig.trans h.settings, fun _ => ⟨?_, rfl⟩, nofun⟩
        rw [← h.lift_eq, ← hstop]
        rfl
    | rested hline => exact h.keep hafter hconfig hstop hlast (hpresent nofun)

end State.Positioned

theorem exists_positioned (config : Config) (history : List Feed) :
    ∃ s : State, Strategic.after config.opened history = .superTrend s ∧
      s.Positioned config history := by
  apply Strategic.exists_after Strategy.superTrend (fun s history => s.Positioned config history)
    (.fresh config)
  intro s history hs f
  cases f with
  | past c => exact ⟨s.preload c, rfl, hs.preload c⟩
  | present c => exact ⟨(s.update c).1, rfl, hs.update c⟩

theorem exists_after_untouched (s : State) {stretch : List Feed}
    (h : Untouched (Strategic.answers (Strategy.superTrend s) stretch)) :
    ∃ t : State, Strategic.after (Strategy.superTrend s) stretch = .superTrend t ∧
      t.config = s.config ∧ t.lastBuyConfidence = s.lastBuyConfidence := by
  induction stretch generalizing s with
  | nil => exact ⟨s, rfl, rfl, rfl⟩
  | cons f rest ih =>
      cases f with
      | past c =>
          obtain ⟨hconfig, -, hlast⟩ := s.advance_frame c
          obtain ⟨t, ht, hconfig', hlast'⟩ := ih (s.preload c) h
          exact ⟨t, ht, hconfig'.trans hconfig, hlast'.trans hlast⟩
      | present c =>
          obtain ⟨hfirst, hrest⟩ := List.forall_mem_cons.1 h
          obtain ⟨hconfig, hlast⟩ := update_frame hfirst
          obtain ⟨t, ht, hconfig', hlast'⟩ := ih (s.update c).1 hrest
          exact ⟨t, ht, hconfig'.trans hconfig, hlast'.trans hlast⟩

/-- After every history: an inactive stop has left nothing behind; a bearish signal leaves the stop
inactive; a long position is closed only after an update has closed above the line, with nothing
bearish in between; and of two buys with no other and nothing bearish in between, the second has grown
by the bias. -/
theorem position_bookkeeping (config : Config) (history : List Feed) :
    ∃ s : State, Strategic.after config.opened history = .superTrend s ∧
      (s.stop.active = false →
        s.stop.reference = 0.0 ∧ s.stop.stopPrice = 0.0 ∧ s.lastBuyConfidence = 0.0) ∧
      (∀ c g, (s.update c).2 = some g → g.kind = .closeLong ∨ g.kind = .openShort →
        (s.update c).1.stop.active = false) ∧
      (∀ c g, (s.update c).2 = some g → g.kind = .closeLong → Risen config history) ∧
      ∀ c first stretch, (s.update c).2 = some first → first.kind = .openLong →
        Untouched (Strategic.answers (Strategy.superTrend (s.update c).1) stretch) →
        ∃ t : State,
          Strategic.after (Strategy.superTrend (s.update c).1) stretch = .superTrend t ∧
          ∀ c' second, (t.update c').2 = some second → second.kind = .openLong →
            ¬ second.confidence - first.confidence < config.confidenceBias := by
  obtain ⟨s, hafter, hs⟩ := exists_positioned config history
  refine ⟨s, hafter, ?_, ?_, ?_, ?_⟩
  · intro hactive
    obtain ⟨hstop, hlast⟩ := hs.lifted hactive
    rw [hstop]
    exact ⟨rfl, rfl, hlast⟩
  · intro c g hsignal hkind
    refine active_eq_false_of_isBearish hsignal ?_
    rcases hkind with hkind | hkind <;> rw [hkind] <;> rfl
  · intro c g hsignal hkind
    exact (hs.placed (active_of_closeLong hsignal hkind)).1
  · intro c first stretch hfirst hopens huntouched
    obtain ⟨t, ht, hconfig, hlast⟩ := exists_after_untouched _ huntouched
    refine ⟨t, ht, fun c' second hsecond hopens' => ?_⟩
    have hgrown := (grown_of_openLong hsecond hopens').2
    rwa [hlast, (grown_of_openLong hfirst hopens).1, hconfig, (hs.update c).settings] at hgrown

/-- A position is opened, and closed by the next candle. -/
theorem position_bookkeeping_stopped :
    let config := { Config.standard with rangePeriod := 1 }
    let c₁ := Candle.ofPrices 0 100.0 101.0 99.0 100.0 0.0
    let c₂ := Candle.ofPrices 1 95.0 95.0 90.0 90.0 0.0
    let s := ((State.fresh config).update c₁).1
    s.stop.active = true ∧ (∃ g, (s.update c₂).2 = some g ∧ g.kind = .closeLong) ∧
      (s.update c₂).1.stop.active = false ∧ Risen config [.present c₁] := by
  intro config c₁ c₂ s
  have hactive : s.stop.active = true := by decide +kernel
  have hkind : (s.update c₂).2.map Signal.kind = some .closeLong := by decide +kernel
  obtain ⟨g, hsignal, hcloses⟩ := Option.map_eq_some_iff.1 hkind
  obtain ⟨t, ht, -, hends, hrisen, -⟩ := position_bookkeeping config [.present c₁]
  obtain rfl : s = t := Strategy.superTrend.inj ht
  exact ⟨hactive, ⟨g, hsignal, hcloses⟩, hends c₂ g hsignal (.inl hcloses),
    hrisen c₂ g hsignal hcloses⟩

end SignalEngine.SuperTrend
