import SignalEngine.Proofs.Session.Flow
import SignalEngine.Proofs.Session.History
import SignalEngine.Session.Streaming

namespace SignalEngine

namespace Strategic

variable {σ : Type} [Strategic σ]

/-- The ticks of a history. -/
def ticks (s : σ) (history : List Feed) : List StreamOutput :=
  (answers s history).map fun (_, signal) => .tick signal

theorem ticks_nil (s : σ) : ticks s [] = [] := rfl

theorem ticks_eq (s : σ) (history : List Feed) :
    ticks s history = ((answers s history).map Prod.snd).map .tick := by
  rw [ticks, List.map_map]
  rfl

theorem ticks_append (s : σ) (first second : List Feed) :
    ticks s (first ++ second) = ticks s first ++ ticks (after s first) second := by
  rw [ticks, answers_append, List.map_append]
  rfl

theorem length_ticks (s : σ) (history : List Feed) :
    (ticks s history).length = history.countP Feed.isPresent := by
  rw [ticks, List.length_map, length_answers]

end Strategic

def StreamInput.history (inputs : List StreamInput) : List Feed :=
  inputs.flatMap feeds

namespace StreamingRun

attribute [ext] StreamingRun

variable {σ : Type} [Strategic σ]

def fed (strategy : σ) (history : List Feed) : StreamingRun σ where
  strategy := Strategic.after strategy history
  preloaded := history.countP fun f => !f.isPresent
  updated := history.countP Feed.isPresent
  signals := (Strategic.records strategy history).length

theorem start_eq (strategy : σ) : start strategy = fed strategy [] := rfl

theorem fed_past (strategy : σ) (history : List Feed) (c : Candle) :
    fed strategy (history ++ [.past c]) = ⟨Strategic.preload (Strategic.after strategy history) c,
      (fed strategy history).preloaded + 1, (fed strategy history).updated,
      (fed strategy history).signals⟩ := by
  refine StreamingRun.ext ?_ ?_ ?_ ?_
  · exact Strategic.after_append strategy history [.past c]
  · simp [fed, Feed.isPresent]
  · simp [fed, Feed.isPresent]
  · exact congrArg List.length (Strategic.records_past strategy history c)

theorem fed_present (strategy : σ) (history : List Feed) (c : Candle) :
    fed strategy (history ++ [.present c]) =
      ⟨(Strategic.update (Strategic.after strategy history) c).1,
        (fed strategy history).preloaded, (fed strategy history).updated + 1,
        (fed strategy history).signals +
          (Strategic.update (Strategic.after strategy history) c).2.toList.length⟩ := by
  refine StreamingRun.ext ?_ ?_ ?_ ?_
  · exact Strategic.after_append strategy history [.present c]
  · simp [fed, Feed.isPresent]
  · simp [fed, Feed.isPresent]
  · simp only [fed, Strategic.records_present, List.length_append, List.length_map]

/-- A message is answered at once, and its candle is taken in. -/
theorem apply_fed (strategy : σ) (history : List Feed) {m : StreamInput}
    (hm : m.create? = none) {w : Wire StreamOutput} (hroom : w.room = none) :
    (fed strategy history).apply m w = .ok (fed strategy (history ++ m.feeds))
      { w with sent := w.sent ++ Strategic.ticks (Strategic.after strategy history) m.feeds } := by
  cases m with
  | create request => cases hm
  | preload c =>
      rw [StreamInput.feeds, fed_past, Strategic.ticks, Strategic.answers, Strategic.answers,
        List.map_nil, List.append_nil]
      rfl
  | update c =>
      have hsend := Session.send_eq hroom
        (StreamOutput.tick (Strategic.update (Strategic.after strategy history) c).2)
      rw [StreamInput.feeds, fed_present]
      simp only [apply, bind, EStateM.bind, fed] at hsend ⊢
      rw [hsend]
      rfl

theorem process_fed (strategy : σ) (history : List Feed) {inputs : List StreamInput}
    (hinputs : ∀ m ∈ inputs, m.create? = none) {w : Wire StreamOutput} (hroom : w.room = none) :
    ∃ n, StopsAt (fun i => w.cancellation.inForce (w.received + i)
          (w.sent.length + (StreamInput.history (inputs.take i)).countP Feed.isPresent))
            inputs.length n ∧
      (fed strategy history).process (inputs.map .message) w =
        .ok (fed strategy (history ++ StreamInput.history (inputs.take n)))
          { w with
            received := w.received + n
            sent := w.sent ++
              Strategic.ticks (Strategic.after strategy history) (StreamInput.history (inputs.take n)) } := by
  induction inputs generalizing history w with
  | nil =>
      refine ⟨0, ⟨le_rfl, nofun, nofun⟩, ?_⟩
      rw [List.take_nil, StreamInput.history, List.flatMap_nil, Strategic.ticks_nil, List.append_nil,
        List.append_nil]
      rfl
  | cons m inputs ih =>
      obtain ⟨hm, hinputs⟩ := List.forall_mem_cons.1 hinputs
      cases hcancelled : w.isCancelled with
      | true =>
          refine ⟨0, .zero hcancelled, ?_⟩
          simp only [List.map_cons, process, bind, EStateM.bind, Session.isCancelled, hcancelled,
            if_true]
          rw [List.take_zero, StreamInput.history, List.flatMap_nil, Strategic.ticks_nil,
            List.append_nil, List.append_nil]
          rfl
      | false =>
          have happly := apply_fed strategy history hm
            (w := { w with received := w.received + 1 }) hroom
          obtain ⟨n, hn, hrest⟩ := ih (history ++ m.feeds) hinputs (w := { w with
            received := w.received + 1
            sent := w.sent ++ Strategic.ticks (Strategic.after strategy history) m.feeds }) hroom
          refine ⟨n + 1, .succ hcancelled (hn.congr fun i => ?_), ?_⟩
          · rw [List.take_succ_cons, StreamInput.history, StreamInput.history, List.flatMap_cons,
              List.countP_append, List.length_append, Strategic.length_ticks, Nat.add_assoc,
              Nat.add_comm 1 i, Nat.add_assoc]
          · simp only [List.map_cons, process, bind, EStateM.bind, Session.isCancelled, hcancelled,
              Bool.false_eq_true, if_false, Session.receive, happly, hrest, List.take_succ_cons,
              StreamInput.history, List.flatMap_cons, List.append_assoc, Strategic.ticks_append,
              Strategic.after_append]
            rw [Nat.add_assoc, Nat.add_comm 1 n]

end StreamingRun

section Run

variable {σ : Type} [Strategic σ] (provider : Provider σ) {request : CreateRequest} {strategy : σ}
  {inputs : List StreamInput} {c : Cancellation}

theorem streamingSession_cancelled (hc : c.inForce 0 0 = true) :
    (streamingSession provider (opening .create request inputs)).run c none =
      ⟨[], .error .cancelled⟩ := by
  have hfirst := Session.open?_cancelled (ο := StreamOutput) StreamInput.create? .create request
    inputs hc
  simp only [Session.run, EStateM.run, streamingSession, bind, EStateM.bind, hfirst]
  rfl

theorem streamingSession_refused {e : SessionError}
    (hopen : openStrategy provider request = .error e) :
    (streamingSession provider (opening .create request inputs)).run .never none =
      ⟨[], .error e⟩ := by
  have hfirst := Session.open?_opening (ο := StreamOutput) StreamInput.create? .create request
    inputs (fun _ => rfl) (Cancellation.inForce_never 0 0)
  simp only [Session.run, EStateM.run, streamingSession, bind, EStateM.bind, hfirst, hopen,
    Session.ofExcept]
  rfl

/-- A whole streaming session: some messages are taken in and answered, and the state follows if it
can be saved. -/
theorem streamingSession_run (hopen : openStrategy provider request = .ok strategy)
    (hinputs : ∀ m ∈ inputs, m.create? = none) (hc : c.inForce 0 0 = false) :
    ∃ n,
      let history := StreamInput.history (inputs.take n)
      let ticks := Strategic.ticks strategy history
      StopsAt
          (fun i => c.inForce (i + 1) ((StreamInput.history (inputs.take i)).countP Feed.isPresent))
          inputs.length n ∧
        (streamingSession provider (opening .create request inputs)).run c none =
          match Strategic.save (Strategic.after strategy history) with
          | .ok text =>
              ⟨ticks ++ [.state text],
                .ok ⟨request.name, history.countP fun f => !f.isPresent,
                  history.countP Feed.isPresent, (Strategic.records strategy history).length, 0,
                  c.inForce (n + 1) (history.countP Feed.isPresent + 1)⟩⟩
          | .error e => ⟨ticks, .error (.checkpoint e)⟩ := by
  have hfirst := Session.open?_opening (ο := StreamOutput) StreamInput.create? .create request
    inputs (fun _ => rfl) hc
  simp only [Wire.fresh] at hfirst
  obtain ⟨n, hn, hprocess⟩ := StreamingRun.process_fed strategy [] hinputs
    (w := ⟨c, none, 1, [], 0, [.processing, .awaitingCreate]⟩) rfl
  rw [List.nil_append, List.nil_append, Nat.add_comm 1 n] at hprocess
  refine ⟨n, hn.congr fun i => ?_, ?_⟩
  · rw [Nat.add_comm 1 i, List.length_nil, Nat.zero_add]
  · simp only [Session.run, EStateM.run, streamingSession, bind, EStateM.bind, hfirst, hopen,
      Session.ofExcept, pure, EStateM.pure, Session.advance, Wire.fresh, StreamingRun.start_eq,
      hprocess]
    simp only [StreamingRun.fed, Strategic.after_nil]
    cases Strategic.save (Strategic.after strategy (StreamInput.history (inputs.take n))) with
    | error e => rfl
    | ok text =>
        have hstate := Session.send_eq (w := ⟨c, none, n + 1,
          Strategic.ticks strategy (StreamInput.history (inputs.take n)), 0,
          [.finalizing, .processing, .awaitingCreate]⟩) rfl (.state text)
        simp only [Except.mapError, EStateM.pure, hstate, Session.isCancelled, Wire.isCancelled_eq,
          List.length_append, Strategic.length_ticks, List.length_singleton]

theorem streamingSession_never (hopen : openStrategy provider request = .ok strategy)
    (hinputs : ∀ m ∈ inputs, m.create? = none) :
    let history := StreamInput.history inputs
    let ticks := Strategic.ticks strategy history
    (streamingSession provider (opening .create request inputs)).run .never none =
      match Strategic.save (Strategic.after strategy history) with
      | .ok text =>
          ⟨ticks ++ [.state text],
            .ok ⟨request.name, history.countP fun f => !f.isPresent,
              history.countP Feed.isPresent, (Strategic.records strategy history).length, 0, false⟩⟩
      | .error e => ⟨ticks, .error (.checkpoint e)⟩ := by
  obtain ⟨n, hn, hrun⟩ := streamingSession_run provider hopen hinputs
    (Cancellation.inForce_never 0 0)
  obtain rfl := hn.eq_whole fun _ => rfl
  rwa [List.take_length] at hrun

end Run

theorem streamingSession_durable {σ : Type} [Durable σ] (provider : Provider σ)
    {request : CreateRequest} {strategy : σ} {inputs : List StreamInput}
    (hopen : openStrategy provider request = .ok strategy)
    (hinputs : ∀ m ∈ inputs, m.create? = none) :
    let history := StreamInput.history inputs
    (streamingSession provider (opening .create request inputs)).run .never none =
      ⟨Strategic.ticks strategy history ++
          [.state (checkpoint (Strategic.after strategy history))],
        .ok ⟨request.name, history.countP fun f => !f.isPresent, history.countP Feed.isPresent,
          (Strategic.records strategy history).length, 0, false⟩⟩ := by
  have hrun := streamingSession_never provider hopen hinputs
  simp only [Durable.save_eq] at hrun
  exact hrun

end SignalEngine
