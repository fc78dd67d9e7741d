import SignalEngine.Proofs.Session.History
import SignalEngine.Strategy.Basic

namespace SignalEngine.Agreement

/-- The latest signal, told by all answers so far: what the last update gave, which may be none, or
else the last signal among them. -/
def latched (replace : Bool) (answers : List (Candle × Option Signal)) : Option Signal :=
  if replace then answers.getLast?.bind Prod.snd else (answers.filterMap Prod.snd).getLast?

/-- The trend strategy on its own. -/
def Config.trend (config : Config) : Strategy :=
  .superTrend (.fresh config.superTrend)

def Config.breakouts (config : Config) : Strategy :=
  .turtle (.fresh config.turtle)

/-- A state is made of what the strategies come to, each on its own, after a history. -/
structure State.IsProduct (s : State) (config : Config) (history : List Feed) : Prop where
  settings : s.config = config
  superTrend : Strategic.after config.trend history = .superTrend s.superTrend
  turtle : Strategic.after config.breakouts history = .turtle s.turtle
  superTrendSignal :
    s.superTrendSignal = latched config.rememberSignal (Strategic.answers config.trend history)
  turtleSignal :
    s.turtleSignal = latched config.rememberSignal (Strategic.answers config.breakouts history)

theorem latched_nil (replace : Bool) : latched replace [] = none := by
  cases replace with
  | false => rfl
  | true => rfl

theorem latched_concat (replace : Bool) (answers : List (Candle × Option Signal)) (c : Candle)
    (new : Option Signal) :
    latched replace (answers ++ [(c, new)]) = latch replace new (latched replace answers) := by
  cases replace with
  | true =>
      simp only [latched, latch, if_true, List.getLast?_concat, Option.bind_some]
  | false =>
      simp only [latched, latch, Bool.false_eq_true, if_false, List.filterMap_append]
      cases new with
      | none => simp
      | some g => simp

theorem isBearish_iff (k : SignalKind) : k.isBearish = true ↔ k = .openShort ∨ k = .closeLong := by
  cases k <;> decide

theorem agree_iff (a b : Signal) :
    agree a b = true ↔
      a.kind = .openLong ∧ b.kind = .openLong ∨
        (a.kind = .openShort ∨ a.kind = .closeLong) ∧
          (b.kind = .openShort ∨ b.kind = .closeLong) := by
  rw [agree, Bool.or_eq_true, Bool.and_eq_true, Bool.and_eq_true, beq_iff_eq, beq_iff_eq,
    isBearish_iff, isBearish_iff]

theorem State.agreed?_eq_some (s : State) (g : Signal) :
    s.agreed? = some g ↔
      s.superTrendSignal = some g ∧ ∃ h, s.turtleSignal = some h ∧ agree g h = true := by
  rw [agreed?]
  cases s.superTrendSignal with
  | none => simp
  | some a =>
      cases s.turtleSignal with
      | none => simp
      | some b =>
          simp only [Option.some.injEq, exists_eq_left']
          split
          · rename_i hagree
            rw [Option.some.injEq]
            constructor
            · rintro rfl
              exact ⟨rfl, hagree⟩
            · exact And.left
          · rename_i hagree
            constructor
            · intro hnone
              cases hnone
            · rintro ⟨rfl, h⟩
              exact absurd h hagree

namespace State.IsProduct

variable {s : State} {config : Config} {history : List Feed}

theorem fresh (config : Config) : (State.fresh config).IsProduct config [] :=
  ⟨rfl, rfl, rfl, (latched_nil _).symm, (latched_nil _).symm⟩

theorem preload (h : s.IsProduct config history) (c : Candle) :
    (s.preload c).IsProduct config (history ++ [.past c]) where
  settings := h.settings
  superTrend := by
    rw [Strategic.after_past, h.superTrend]
    rfl
  turtle := by
    rw [Strategic.after_past, h.turtle]
    rfl
  superTrendSignal := by
    rw [Strategic.answers_past]
    exact h.superTrendSignal
  turtleSignal := by
    rw [Strategic.answers_past]
    exact h.turtleSignal

theorem update (h : s.IsProduct config history) (c : Candle) :
    (s.update c).1.IsProduct config (history ++ [.present c]) where
  settings := h.settings
  superTrend := by
    rw [Strategic.after_present, h.superTrend]
    rfl
  turtle := by
    rw [Strategic.after_present, h.turtle]
    rfl
  superTrendSignal := by
    rw [Strategic.answers_present, h.superTrend, latched_concat, ← h.superTrendSignal,
      ← h.settings]
    rfl
  turtleSignal := by
    rw [Strategic.answers_present, h.turtle, latched_concat, ← h.turtleSignal, ← h.settings]
    rfl

end State.IsProduct

theorem exists_isProduct (config : Config) (history : List Feed) :
    ∃ s : State, Strategic.after (Strategy.agreement (.fresh config)) history = .agreement s ∧
      s.IsProduct config history := by
  apply Strategic.exists_after Strategy.agreement (fun s history => s.IsProduct config history)
    (.fresh config)
  intro s history hproduct f
  cases f with
  | past c => exact ⟨s.preload c, rfl, hproduct.preload c⟩
  | present c => exact ⟨(s.update c).1, rfl, hproduct.update c⟩

/-- After every history the strategy is the product of the two. A candle of the past leaves the latest
signals as they are, and a candle of the present passes on the latest signal of the trend exactly when
that of the breakouts is there too and points the same way. -/
theorem after_isProduct (config : Config) (history : List Feed) :
    ∃ s : State, Strategic.after (Strategy.agreement (.fresh config)) history = .agreement s ∧
      s.IsProduct config history ∧
      (∀ c, (s.preload c).superTrendSignal = s.superTrendSignal ∧
        (s.preload c).turtleSignal = s.turtleSignal) ∧
      ∀ c g, (s.update c).2 = some g ↔
        latched config.rememberSignal
            (Strategic.answers config.trend (history ++ [.present c])) = some g ∧
        ∃ h, latched config.rememberSignal
            (Strategic.answers config.breakouts (history ++ [.present c])) = some h ∧
          (g.kind = .openLong ∧ h.kind = .openLong ∨
            (g.kind = .openShort ∨ g.kind = .closeLong) ∧
              (h.kind = .openShort ∨ h.kind = .closeLong)) := by
  obtain ⟨s, hs, hproduct⟩ := exists_isProduct config history
  refine ⟨s, hs, hproduct, fun c => ⟨rfl, rfl⟩, fun c g => ?_⟩
  have hnext := hproduct.update c
  have hsignal : (s.update c).2 = (s.update c).1.agreed? := rfl
  simp only [hsignal, State.agreed?_eq_some, hnext.superTrendSignal, hnext.turtleSignal, agree_iff]

end SignalEngine.Agreement
