import SignalEngine.Proofs.Checkpoint.Target
import SignalEngine.Proofs.Session.Batched
import SignalEngine.Proofs.Session.Resumption
import SignalEngine.Proofs.Session.Streaming

namespace SignalEngine

section Congr

variable {σ : Type} [Strategic σ] {provider : Provider σ}

/-- Requests that are granted the same strategy open the same batched session. -/
theorem batchedSession_congr {request request' : CreateRequest}
    (hopen : openStrategy provider request = openStrategy provider request')
    (hname : request.name = request'.name) (hdebug : request.debug = request'.debug)
    (limits : ValidLimits) (rest : List (Inbound BatchInput)) :
    batchedSession provider limits (.message (.create request) :: rest) =
      batchedSession provider limits (.message (.create request') :: rest) := by
  funext w
  cases hcancelled : w.isCancelled with
  | true =>
      simp only [batchedSession, Session.open?, bind, EStateM.bind, Session.isCancelled, hcancelled,
        if_true]
  | false =>
      simp only [batchedSession, Session.open?, bind, EStateM.bind, Session.isCancelled, hcancelled,
        Bool.false_eq_true, if_false, Session.receive, BatchInput.create?, pure, EStateM.pure,
        hopen, hname, hdebug]

theorem streamingSession_congr {request request' : CreateRequest}
    (hopen : openStrategy provider request = openStrategy provider request')
    (hname : request.name = request'.name) (rest : List (Inbound StreamInput)) :
    streamingSession provider (.message (.create request) :: rest) =
      streamingSession provider (.message (.create request') :: rest) := by
  funext w
  cases hcancelled : w.isCancelled with
  | true =>
      simp only [streamingSession, Session.open?, bind, EStateM.bind, Session.isCancelled,
        hcancelled, if_true]
  | false =>
      simp only [streamingSession, Session.open?, bind, EStateM.bind, Session.isCancelled,
        hcancelled, Bool.false_eq_true, if_false, Session.receive, StreamInput.create?, pure,
        EStateM.pure, hopen, hname]

end Congr

/-- Sessions of both protocols that go on from a state are the same under all accepted settings. -/
def SettingsForgotten (name config config' text : String) (debug : Bool) : Prop :=
  (∀ limits rest,
      batchedSession Registry.builtIn.provider limits
          (.message (.create ⟨name, config, some text, debug⟩) :: rest) =
        batchedSession Registry.builtIn.provider limits
          (.message (.create ⟨name, config', some text, debug⟩) :: rest)) ∧
    ∀ rest,
      streamingSession Registry.builtIn.provider
          (.message (.create ⟨name, config, some text, debug⟩) :: rest) =
        streamingSession Registry.builtIn.provider
          (.message (.create ⟨name, config', some text, debug⟩) :: rest)

theorem settingsForgotten {name config config' text : String} {a b : Strategy} (debug : Bool)
    (ha : Registry.builtIn.create name config = .ok a)
    (hb : Registry.builtIn.create name config' = .ok b) (htext : Text.isBlank text = false) :
    SettingsForgotten name config config' text debug := by
  have hname : a.name = b.name :=
    (Strategy.reached_of_create ha).1.trans (Strategy.reached_of_create hb).1.symm
  have hopen : openStrategy Registry.builtIn.provider ⟨name, config, some text, debug⟩ =
      openStrategy Registry.builtIn.provider ⟨name, config', some text, debug⟩ := by
    rw [openStrategy_state debug htext ha, openStrategy_state debug htext hb,
      Strategy.load_congr hname]
  exact ⟨batchedSession_congr hopen rfl rfl, streamingSession_congr hopen rfl⟩

/-- A restore takes over all of a text or nothing, and what it does hangs on the text alone; the
simple average and the average range report no error and keep what they were instead. A session that
goes on from a state is therefore the same under all settings that are accepted. -/
theorem restore_forgets :
    (∀ text, (∀ a b : Ema, RestoreAlike a b text) ∧ (∀ a b : Smma, RestoreAlike a b text) ∧
      (∀ a b : Rsi, RestoreAlike a b text) ∧ (∀ a b : Cci, RestoreAlike a b text) ∧
      (∀ a b : Macd, RestoreAlike a b text) ∧ (∀ a b : StopLoss, RestoreAlike a b text) ∧
      (∀ a b : SuperTrend.State, RestoreAlike a b text) ∧
      (∀ a b : Turtle.State, RestoreAlike a b text) ∧
      (∀ a b : Aldo.State, RestoreAlike a b text) ∧
      ∀ a b : Agreement.State, RestoreAlike a b text) ∧
    (∀ text, (∀ s : Sma, restore s text = ⟨readOr Sma.codec s text, none⟩) ∧
      ∀ s : Atr, restore s text = ⟨readOr Atr.codec s text, none⟩) ∧
    ∀ name config config' text a b debug, Registry.builtIn.create name config = .ok a →
      Registry.builtIn.create name config' = .ok b → Text.isBlank text = false →
        SettingsForgotten name config config' text debug := by
  refine ⟨?_, ?_, ?_⟩
  · intro text
    exact ⟨fun a b => Forgetful.restoreAlike a b text, fun a b => Forgetful.restoreAlike a b text,
      fun a b => Forgetful.restoreAlike a b text, fun a b => Forgetful.restoreAlike a b text,
      fun a b => Forgetful.restoreAlike a b text, fun a b => Forgetful.restoreAlike a b text,
      fun a b => Forgetful.restoreAlike a b text, fun a b => Forgetful.restoreAlike a b text,
      fun a b => Forgetful.restoreAlike a b text, fun a b => Forgetful.restoreAlike a b text⟩
  · intro text
    exact ⟨fun s => s.restore_eq text, fun s => s.restore_eq text⟩
  · intro name config config' text a b debug ha hb htext
    exact settingsForgotten debug ha hb htext

/-- A state of the breakout strategy is gone on from alike under two periods of the filter. -/
theorem restore_forgets_turtle :
    let text := checkpoint (Strategy.turtle (.fresh .standard))
    Text.isBlank text = false ∧
      SettingsForgotten "Turtle" "" "\x7b\"bullPeriod\":3\x7d" text true := by
  have ha : Registry.builtIn.create "Turtle" "" = .ok (.turtle (.fresh .standard)) := by rfl
  have hb : Registry.builtIn.create "Turtle" "\x7b\"bullPeriod\":3\x7d" =
    .ok (.turtle (.fresh { Turtle.Config.standard with filterPeriod := 3 })) := by rfl
  have htext := Strategy.isBlank_checkpoint (.turtle (.fresh .standard))
  exact ⟨htext, restore_forgets.2.2 _ _ _ _ _ _ true ha hb htext⟩

end SignalEngine
