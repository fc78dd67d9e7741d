import SignalEngine.Cli.Desk
import SignalEngine.Cli.Replay
import SignalEngine.Proofs.Session.Batched
import SignalEngine.Proofs.Session.Streaming

namespace SignalEngine

/-- A way to group a history into messages, some of which may be empty. -/
structure IsGrouping (history : List Feed) (inputs : List BatchInput) : Prop where
  history_eq : BatchInput.history inputs = history
  noCreate : ∀ m ∈ inputs, m.create? = none

theorem IsGrouping.append {first second : List Feed} {inputs others : List BatchInput}
    (h : IsGrouping first inputs) (h' : IsGrouping second others) :
    IsGrouping (first ++ second) (inputs ++ others) := by
  constructor
  · rw [BatchInput.history_append, h.history_eq, h'.history_eq]
  · exact List.forall_mem_append.2 ⟨h.noCreate, h'.noCreate⟩

theorem isGrouping_preloads (pieces : List (List Candle)) :
    IsGrouping (pieces.flatten.map .past) (pieces.map .preload) := by
  constructor
  · rw [BatchInput.history, List.flatMap_map, List.map_flatten]
    rfl
  · rw [List.forall_mem_map]
    exact fun _ _ => rfl

theorem isGrouping_updates (pieces : List (List Candle)) :
    IsGrouping (pieces.flatten.map .present) (pieces.map .update) := by
  constructor
  · rw [BatchInput.history, List.flatMap_map, List.map_flatten]
    rfl
  · rw [List.forall_mem_map]
    exact fun _ _ => rfl

theorem IsGrouping.run_eq {σ : Type} [Strategic σ] (provider : Provider σ) (limits : ValidLimits)
    (request : CreateRequest) {history : List Feed} {inputs others : List BatchInput}
    (h : IsGrouping history inputs) (h' : IsGrouping history others) :
    (batchedSession provider limits (opening .create request inputs)).run .never none =
      (batchedSession provider limits (opening .create request others)).run .never none := by
  cases hopen : openStrategy provider request with
  | error e => rw [batchedSession_refused provider limits hopen, batchedSession_refused _ _ hopen]
  | ok strategy =>
      rw [batchedSession_never provider limits hopen h.noCreate,
        batchedSession_never provider limits hopen h'.noCreate, h.history_eq, h'.history_eq]

namespace Cli

variable (request : CreateRequest) (candles : List Candle) (preload : Nat)

theorem exists_replayMessages (size : Nat) :
    ∃ inputs, replayMessages request candles preload size = .create request :: inputs ∧
      IsGrouping ((candles.take preload).map .past ++ (candles.drop preload).map .present)
        inputs := by
  have hpast := isGrouping_preloads (chunks size (candles.take preload))
  have hpresent := isGrouping_updates (chunks size (candles.drop preload))
  rw [flatten_chunks] at hpast hpresent
  exact ⟨_, rfl, hpast.append hpresent⟩

theorem replayMessages_run {σ : Type} [Strategic σ] (provider : Provider σ) (limits : ValidLimits)
    (a b : Nat) :
    (batchedSession provider limits
        ((replayMessages request candles preload a).map .message)).run .never none =
      (batchedSession provider limits
        ((replayMessages request candles preload b).map .message)).run .never none := by
  obtain ⟨inputs, hinputs, h⟩ := exists_replayMessages request candles preload a
  obtain ⟨others, hothers, h'⟩ := exists_replayMessages request candles preload b
  rw [hinputs, hothers]
  exact h.run_eq provider limits request h'

theorem replay_batchSize {m : Type → Type} [Monad m] [Host m] (replayed : Replay) (config : String)
    {a b : Nat} (ha : 0 < a) (hb : 0 < b) :
    (replay { replayed with batchSize := a } config : Action m Unit) =
      replay { replayed with batchSize := b } config := by
  simp only [replay, if_neg ha.ne', if_neg hb.ne']
  refine bind_congr fun (s, registry) => ?_
  refine bind_congr fun strategyConfig => ?_
  refine bind_congr fun state => ?_
  refine bind_congr fun candles => ?_
  rw [replayMessages_run _ candles replayed.preload registry.provider s.session a b]

end Cli

/-- A batched session does the same for any two ways to group a history, and the messages of a
replay are one such way for each size of its batches. -/
theorem grouping_irrelevant {σ : Type} [Strategic σ] (provider : Provider σ) (limits : ValidLimits)
    (request : CreateRequest) :
    (∀ history inputs others, IsGrouping history inputs → IsGrouping history others →
      (batchedSession provider limits (opening .create request inputs)).run .never none =
        (batchedSession provider limits (opening .create request others)).run .never none) ∧
    (∀ candles preload size, 0 < size →
      let past := min preload candles.length
      ∃ inputs, Cli.replayMessages request candles preload size = .create request :: inputs ∧
        IsGrouping ((candles.take past).map .past ++ (candles.drop past).map .present) inputs) ∧
    ∀ (m : Type → Type) [Monad m] [Cli.Host m] (replayed : Cli.Replay) (config : String)
      (a b : Nat), 0 < a → 0 < b →
        (Cli.replay { replayed with batchSize := a } config : Cli.Action m Unit) =
          Cli.replay { replayed with batchSize := b } config := by
  refine ⟨?_, ?_, ?_⟩
  · intro history inputs others h h'
    exact h.run_eq provider limits request h'
  · intro candles preload size _
    obtain ⟨inputs, hinputs, h⟩ := Cli.exists_replayMessages request candles preload size
    refine ⟨inputs, hinputs, ?_⟩
    rcases Nat.le_total preload candles.length with hle | hge
    · rwa [Nat.min_eq_left hle]
    · rw [Nat.min_eq_right hge, List.take_length, List.drop_length]
      rwa [List.take_of_length_le hge, List.drop_of_length_le hge] at h
  · intro m _ _ replayed config a b ha hb
    exact Cli.replay_batchSize replayed config ha hb

/-- Three candles in two groupings, and a replay of more candles of the past than there are. -/
theorem grouping_irrelevant_three :
    let request : CreateRequest := ⟨"SuperTrend", "\x7b\"atrPeriod\":1\x7d", none, true⟩
    let first := Candle.ofPrices 0 2.0 3.0 1.0 3.0 0.0
    let second := Candle.ofPrices 1 3.0 4.0 2.0 4.0 0.0
    let third := Candle.ofPrices 2 4.0 5.0 3.0 1.0 0.0
    let history : List Feed := [.past first, .present second, .present third]
    let inputs : List BatchInput := [.preload [first], .update [second, third]]
    let others : List BatchInput :=
      [.update [], .preload [first], .update [second], .update [third]]
    let provider := Registry.builtIn.provider
    let replayed : Cli.Replay :=
      ⟨"SuperTrend", "candles.csv", none, none, 9, 1, "1m", 0, 0, true, none, .text⟩
    IsGrouping history inputs ∧ IsGrouping history others ∧
      (batchedSession provider ⟨⟨1, 2⟩, rfl⟩ (opening .create request inputs)).run .never none =
        (batchedSession provider ⟨⟨1, 2⟩, rfl⟩ (opening .create request others)).run .never none ∧
      (∃ inputs, Cli.replayMessages request [first, second] 9 5 = .create request :: inputs ∧
        IsGrouping [.past first, .past second] inputs) ∧
      (Cli.replay replayed "app.toml" : Cli.Action (StateM Cli.Desk) Unit) =
        Cli.replay { replayed with batchSize := 2 } "app.toml" := by
  intro request first second third history inputs others provider replayed
  have hinputs : IsGrouping history inputs := ⟨rfl, by decide +kernel⟩
  have hothers : IsGrouping history others := ⟨rfl, by decide +kernel⟩
  have hsame := grouping_irrelevant provider ⟨⟨1, 2⟩, rfl⟩ request
  refine ⟨hinputs, hothers, hsame.1 history inputs others hinputs hothers, ?_, ?_⟩
  · exact hsame.2.1 [first, second] 9 5 (by decide)
  · exact hsame.2.2 (StateM Cli.Desk) replayed "app.toml" 1 2 (by decide) (by decide)

/-- The message that brings a candle. -/
def StreamInput.single : Feed → StreamInput
  | .past c => .preload c
  | .present c => .update c

theorem StreamInput.create?_single (f : Feed) : (single f).create? = none := by
  cases f <;> rfl

theorem StreamInput.history_single (history : List Feed) :
    StreamInput.history (history.map single) = history := by
  induction history with
  | nil => rfl
  | cons f rest ih =>
      cases f with
      | past c => exact congrArg (Feed.past c :: ·) ih
      | present c => exact congrArg (Feed.present c :: ·) ih

def Feed.present? : Feed → Option Candle
  | .past _ => none
  | .present c => some c

theorem Strategic.answers_candles {σ : Type} [Strategic σ] (s : σ) (history : List Feed) :
    (answers s history).map Prod.fst = history.filterMap Feed.present? := by
  induction history generalizing s with
  | nil => rfl
  | cons f rest ih =>
      cases f with
      | past c => exact ih _
      | present c => exact congrArg (c :: ·) (ih _)

/-- Two sessions over the same candles that end alike: in the one protocol each candle of the
present is answered by a tick, and the ticks with a signal make up the records of the other. -/
structure EndAlike (history : List Feed) (streamed : SessionOutcome StreamOutput)
    (batched : SessionOutcome BatchOutput) (ticks : List (Option Signal)) (text : String)
    (summary summary' : SessionSummary) : Prop where
  streamed_eq : streamed = ⟨ticks.map .tick ++ [.state text], .ok summary⟩
  batched_result : batched.result = .ok summary'
  length_ticks : ticks.length = (history.filterMap Feed.present?).length
  records_eq : batched.records = ((history.filterMap Feed.present?).zip ticks).filterMap
    fun (c, signal) => signal.map (.ofSignal c)
  states_eq : batched.states = [text]
  preloaded_eq : summary.preloaded = summary'.preloaded
  updated_eq : summary.updated = summary'.updated
  signals_eq : summary.signals = summary'.signals

/-- The two protocols agree on a request and on all candles, in whatever groups one takes them. -/
theorem protocols_agree {σ : Type} [Durable σ] (provider : Provider σ) (limits : ValidLimits)
    (request : CreateRequest) {history : List Feed} {inputs : List BatchInput}
    (h : IsGrouping history inputs) :
    let streamed := (streamingSession provider
      (opening .create request (history.map StreamInput.single))).run .never none
    let batched := (batchedSession provider limits (opening .create request inputs)).run .never none
    (∃ e, openStrategy provider request = .error e ∧ streamed = ⟨[], .error e⟩ ∧
      batched = ⟨[], .error e⟩) ∨
    ∃ ticks text summary summary',
      EndAlike history streamed batched ticks text summary summary' := by
  intro streamed batched
  cases hopen : openStrategy provider request with
  | error e =>
      exact .inl ⟨e, rfl, streamingSession_refused provider hopen,
        batchedSession_refused provider limits hopen⟩
  | ok strategy =>
      have hstreamed := streamingSession_durable provider hopen
        (List.forall_mem_map.2 fun f (_ : f ∈ history) => StreamInput.create?_single f)
      have hbatched := batchedSession_durable provider limits hopen h.noCreate
      simp only [StreamInput.history_single, Strategic.ticks_eq] at hstreamed
      rw [h.history_eq] at hbatched
      have hpairs : Strategic.answers strategy history = (history.filterMap Feed.present?).zip
          ((Strategic.answers strategy history).map Prod.snd) :=
        List.zip_of_prod (Strategic.answers_candles strategy history) rfl
      refine .inr ⟨(Strategic.answers strategy history).map Prod.snd,
        checkpoint (Strategic.after strategy history), ⟨_, _, _, _, _, _⟩, ⟨_, _, _, _, _, _⟩, hstreamed, congrArg SessionOutcome.result hbatched,
        ?_, ?_, ?_, rfl, rfl, rfl⟩
      · rw [← Strategic.answers_candles strategy, List.length_map, List.length_map]
      · rw [← hpairs, SessionOutcome.records, congrArg SessionOutcome.sent hbatched,
          BatchOutput.records_outline, flatten_chunks]
        rfl
      · rw [SessionOutcome.states, congrArg SessionOutcome.sent hbatched,
          BatchOutput.states_outline]

/-- A request that is granted, with one message for three candles and one for none. -/
theorem protocols_agree_granted :
    let request : CreateRequest := ⟨"SuperTrend", "\x7b\"atrPeriod\":1\x7d", none, true⟩
    let history : List Feed := [.present (.ofPrices 0 2.0 3.0 1.0 3.0 0.0),
      .present (.ofPrices 1 3.0 4.0 2.0 4.0 0.0), .present (.ofPrices 2 4.0 5.0 3.0 1.0 0.0)]
    let inputs : List BatchInput := [.preload [], .update (history.map Feed.candle)]
    let provider := Registry.builtIn.provider
    IsGrouping history inputs ∧
      ∃ ticks text summary summary', EndAlike history
        ((streamingSession provider
          (opening .create request (history.map StreamInput.single))).run .never none)
        ((batchedSession provider ⟨⟨1, 2⟩, rfl⟩ (opening .create request inputs)).run .never none)
        ticks text summary summary' := by
  have hopen : openStrategy Registry.builtIn.provider
      ⟨"SuperTrend", "\x7b\"atrPeriod\":1\x7d", none, true⟩ =
    .ok (.superTrend (.fresh { SuperTrend.Config.standard with rangePeriod := 1 })) := by rfl
  intro request history inputs provider
  have hgrouping : IsGrouping history inputs := ⟨rfl, by decide +kernel⟩
  have hagree := protocols_agree provider ⟨⟨1, 2⟩, rfl⟩ request hgrouping
  refine ⟨hgrouping, hagree.resolve_left ?_⟩
  rintro ⟨e, he, -⟩
  cases hopen.symm.trans he

end SignalEngine
