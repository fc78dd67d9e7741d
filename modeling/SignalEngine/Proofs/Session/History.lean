import SignalEngine.Proofs.Session.Collection
import SignalEngine.Strategy.Interface

namespace SignalEngine

/-- A candle as a strategy takes it. -/
inductive Feed where
  | past (candle : Candle)
  | present (candle : Candle)

namespace Feed

def candle : Feed → Candle
  | past c => c
  | present c => c

def isPresent : Feed → Bool
  | past _ => false
  | present _ => true

end Feed

def BatchInput.feeds : BatchInput → List Feed
  | .create _ => []
  | .preload candles => candles.map .past
  | .update candles => candles.map .present

def StreamInput.feeds : StreamInput → List Feed
  | .create _ => []
  | .preload candle => [.past candle]
  | .update candle => [.present candle]

namespace Strategic

variable {σ : Type} [Strategic σ]

/-- The state after a history. -/
def after (s : σ) : List Feed → σ
  | [] => s
  | .past c :: rest => after (preload s c) rest
  | .present c :: rest => after (update s c).1 rest

/-- The answers to the candles of the present. -/
def answers (s : σ) : List Feed → List (Candle × Option Signal)
  | [] => []
  | .past c :: rest => answers (preload s c) rest
  | .present c :: rest => (c, (update s c).2) :: answers (update s c).1 rest

/-- The records of the answers that are signals. -/
def records (s : σ) (history : List Feed) : List SignalRecord :=
  (answers s history).filterMap fun (c, signal) => signal.map (.ofSignal c)

/-- The probes of the candles of the present, each at its time. -/
def samples (s : σ) : List Feed → List (Int × Probe)
  | [] => []
  | .past c :: rest => samples (preload s c) rest
  | .present c :: rest =>
      (probes (update s c).1 c).map (c.wholeSecond, ·) ++ samples (update s c).1 rest

/-- The series of a history. Without debugging there are none. -/
def series (s : σ) (debug : Bool) (history : List Feed) : List DebugSeries :=
  if debug then seriesOf (samples s history) else []

theorem after_nil (s : σ) : after s [] = s := rfl

theorem after_append (s : σ) (first second : List Feed) :
    after s (first ++ second) = after (after s first) second := by
  induction first generalizing s with
  | nil => rfl
  | cons f rest ih =>
      cases f with
      | past c => exact ih _
      | present c => exact ih _

theorem after_past (s : σ) (history : List Feed) (c : Candle) :
    after s (history ++ [.past c]) = preload (after s history) c :=
  after_append s history [.past c]

theorem after_present (s : σ) (history : List Feed) (c : Candle) :
    after s (history ++ [.present c]) = (update (after s history) c).1 :=
  after_append s history [.present c]

/-- What is so of a fresh state, and is kept by each candle, is so after every history. -/
theorem exists_after {State : Type} (kind : State → σ) (Inv : State → List Feed → Prop)
    {fresh : State} (hfresh : Inv fresh [])
    (hstep : ∀ {s : State} {history : List Feed}, Inv s history → ∀ f : Feed,
      ∃ s' : State, after (kind s) [f] = kind s' ∧ Inv s' (history ++ [f]))
    (history : List Feed) : ∃ s : State, after (kind fresh) history = kind s ∧ Inv s history := by
  induction history using List.reverseRecOn with
  | nil => exact ⟨fresh, rfl, hfresh⟩
  | append_singleton history f ih =>
      obtain ⟨s, hs, hinv⟩ := ih
      rw [after_append, hs]
      exact hstep hinv f

theorem answers_append (s : σ) (first second : List Feed) :
    answers s (first ++ second) = answers s first ++ answers (after s first) second := by
  induction first generalizing s with
  | nil => rfl
  | cons f rest ih =>
      cases f with
      | past c => exact ih _
      | present c => exact congrArg _ (ih _)

theorem answers_past (s : σ) (history : List Feed) (c : Candle) :
    answers s (history ++ [.past c]) = answers s history :=
  (answers_append s history [.past c]).trans (List.append_nil _)

theorem answers_present (s : σ) (history : List Feed) (c : Candle) :
    answers s (history ++ [.present c]) =
      answers s history ++ [(c, (update (after s history) c).2)] :=
  answers_append s history [.present c]

theorem exists_of_mem_answers {s : σ} {history : List Feed}
    {answer : Candle × Option Signal} (h : answer ∈ answers s history) :
    ∃ before c, answer = (c, (update (after s before) c).2) := by
  induction history generalizing s with
  | nil => cases h
  | cons f rest ih =>
      cases f with
      | past c =>
          obtain ⟨before, c', hanswer⟩ := ih h
          exact ⟨.past c :: before, c', hanswer⟩
      | present c =>
          rcases List.mem_cons.1 h with hfirst | hrest
          · exact ⟨[], c, hfirst⟩
          · obtain ⟨before, c', hanswer⟩ := ih hrest
            exact ⟨.present c :: before, c', hanswer⟩

theorem records_append (s : σ) (first second : List Feed) :
    records s (first ++ second) = records s first ++ records (after s first) second := by
  rw [records, answers_append, List.filterMap_append]
  rfl

theorem records_past (s : σ) (history : List Feed) (c : Candle) :
    records s (history ++ [.past c]) = records s history := by
  rw [records, answers_past, records]

theorem records_present (s : σ) (history : List Feed) (c : Candle) :
    records s (history ++ [.present c]) =
      records s history ++ (update (after s history) c).2.toList.map (.ofSignal c) := by
  rw [records, answers_present, List.filterMap_append, records]
  cases (update (after s history) c).2 with
  | none => rfl
  | some signal => rfl

theorem samples_append (s : σ) (first second : List Feed) :
    samples s (first ++ second) = samples s first ++ samples (after s first) second := by
  induction first generalizing s with
  | nil => rfl
  | cons f rest ih =>
      cases f with
      | past c => exact ih _
      | present c =>
          rw [List.cons_append, samples, ih, samples, List.append_assoc]
          rfl

theorem length_answers (s : σ) (history : List Feed) :
    (answers s history).length = history.countP Feed.isPresent := by
  induction history generalizing s with
  | nil => rfl
  | cons f rest ih =>
      cases f with
      | past c =>
          rw [answers, ih, List.countP_cons_of_neg]
          exact Bool.false_ne_true
      | present c =>
          rw [answers, List.length_cons, ih, List.countP_cons_of_pos]
          rfl

end Strategic

end SignalEngine
