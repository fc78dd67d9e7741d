import SignalEngine.Proofs.Session.Flow
import SignalEngine.Proofs.Session.History
import SignalEngine.Session.Batched
import SignalEngine.Strategy.Registry

namespace SignalEngine

/-- The candles of a list of messages. -/
def BatchInput.history (inputs : List BatchInput) : List Feed :=
  inputs.flatMap feeds

theorem BatchInput.history_append (first second : List BatchInput) :
    history (first ++ second) = history first ++ history second :=
  List.flatMap_append

/-- Chunks of signals, the state, and chunks of series. -/
def BatchOutput.outline (signals : List (List SignalRecord)) (text : String)
    (debug : List (List DebugSeries)) : List BatchOutput :=
  signals.map .signals ++ [.state text] ++ debug.map .debug

namespace BatchOutput

def records : BatchOutput → List SignalRecord
  | signals records => records
  | state _ => []
  | debug _ => []

def state? : BatchOutput → Option String
  | signals _ => none
  | state text => some text
  | debug _ => none

theorem records_outline (pieces : List (List SignalRecord)) (text : String)
    (series : List (List DebugSeries)) :
    (outline pieces text series).flatMap records = pieces.flatten := by
  have hpieces : (pieces.map signals).flatMap records = pieces.flatten := by
    rw [List.flatMap_map]
    exact List.flatMap_id
  have hseries : (series.map debug).flatMap records = [] := by
    rw [List.flatMap_map]
    exact List.flatMap_eq_nil_iff.2 fun _ _ => rfl
  rw [outline, List.flatMap_append, List.flatMap_append, hpieces, hseries, List.append_nil]
  exact List.append_nil _

theorem states_outline (pieces : List (List SignalRecord)) (text : String)
    (series : List (List DebugSeries)) :
    (outline pieces text series).filterMap state? = [text] := by
  have hpieces : (pieces.map signals).filterMap state? = [] := by
    rw [List.filterMap_map]
    exact List.filterMap_eq_nil_iff.2 fun _ _ => rfl
  have hseries : (series.map debug).filterMap state? = [] := by
    rw [List.filterMap_map]
    exact List.filterMap_eq_nil_iff.2 fun _ _ => rfl
  rw [outline, List.filterMap_append, List.filterMap_append, hpieces, hseries]
  rfl

end BatchOutput

namespace SessionOutcome

/-- All records that were sent. -/
def records (o : SessionOutcome BatchOutput) : List SignalRecord :=
  o.sent.flatMap BatchOutput.records

/-- All states that were sent. -/
def states (o : SessionOutcome BatchOutput) : List String :=
  o.sent.filterMap BatchOutput.state?

end SessionOutcome

namespace BatchedRun

attribute [ext] BatchedRun

variable {σ : Type} [Strategic σ]

def take (r : BatchedRun σ) : Feed → BatchedRun σ
  | .past c => r.preload c
  | .present c => r.update c

/-- A session that has taken in a history. -/
def fed (strategy : σ) (debug : Bool) (history : List Feed) : BatchedRun σ where
  strategy := Strategic.after strategy history
  records := (Strategic.records strategy history).toArray
  collector := if debug then some (.ofSamples (Strategic.samples strategy history)) else none
  preloaded := history.countP fun f => !f.isPresent
  updated := history.countP Feed.isPresent

theorem start_eq (strategy : σ) (debug : Bool) :
    start strategy debug = fed strategy debug [] := rfl

theorem take_fed (strategy : σ) (debug : Bool) (history : List Feed) (f : Feed) :
    (fed strategy debug history).take f = fed strategy debug (history ++ [f]) := by
  cases f with
  | past c =>
      refine BatchedRun.ext ?_ ?_ ?_ ?_ ?_
      · exact (Strategic.after_past strategy history c).symm
      · exact congrArg List.toArray (Strategic.records_past strategy history c).symm
      · simp only [take, preload, fed, Strategic.samples_append, Strategic.samples, List.append_nil]
      · simp [take, preload, fed, Feed.isPresent]
      · simp [take, preload, fed, Feed.isPresent]
  | present c =>
      refine BatchedRun.ext ?_ ?_ ?_ ?_ ?_
      · exact (Strategic.after_present strategy history c).symm
      · simp only [take, update, fed, Strategic.records_present]
        cases (Strategic.update (Strategic.after strategy history) c).2 with
        | none => simp
        | some s => simp
      · cases debug with
        | false => rfl
        | true =>
            simp only [take, update, fed, if_true, Option.map_some, Collector.record_ofSamples,
              Strategic.samples_append, Strategic.samples, List.append_nil]
      · simp [take, update, fed, Feed.isPresent]
      · simp [take, update, fed, Feed.isPresent]

theorem foldl_take (strategy : σ) (debug : Bool) (history rest : List Feed) :
    rest.foldl take (fed strategy debug history) = fed strategy debug (history ++ rest) := by
  induction rest generalizing history with
  | nil => rw [List.append_nil, List.foldl_nil]
  | cons f rest ih => rw [List.foldl_cons, take_fed, ih, List.append_assoc, List.singleton_append]

theorem apply_eq (r : BatchedRun σ) {m : BatchInput} (h : m.create? = none) :
    r.apply m = .ok (m.feeds.foldl take r) := by
  cases m with
  | create request => cases h
  | preload candles => rw [apply, BatchInput.feeds, List.foldl_map]; rfl
  | update candles => rw [apply, BatchInput.feeds, List.foldl_map]; rfl

/-- Messages are taken in up to the first one before which the session is cancelled. -/
theorem process_eq {inputs : List BatchInput} (hinputs : ∀ m ∈ inputs, m.create? = none)
    (r : BatchedRun σ) (w : Wire BatchOutput) :
    ∃ n, StopsAt (fun i => w.cancellation.inForce (w.received + i) w.sent.length) inputs.length n ∧
      r.process (inputs.map .message) w = .ok ((BatchInput.history (inputs.take n)).foldl take r)
        { w with received := w.received + n } := by
  induction inputs generalizing r w with
  | nil => exact ⟨0, ⟨le_rfl, nofun, nofun⟩, rfl⟩
  | cons m inputs ih =>
      obtain ⟨hm, hinputs⟩ := List.forall_mem_cons.1 hinputs
      cases hcancelled : w.isCancelled with
      | true =>
          refine ⟨0, .zero hcancelled, ?_⟩
          simp only [List.map_cons, process, bind, EStateM.bind, Session.isCancelled, hcancelled,
            if_true]
          rfl
      | false =>
          obtain ⟨n, hn, hrest⟩ := ih hinputs (m.feeds.foldl take r)
            { w with received := w.received + 1 }
          refine ⟨n + 1, .succ hcancelled (hn.congr fun i => ?_), ?_⟩
          · rw [Nat.add_assoc, Nat.add_comm 1 i]
          · rw [List.take_succ_cons, BatchInput.history, List.flatMap_cons, List.foldl_append]
            simp only [List.map_cons, process, bind, EStateM.bind, Session.isCancelled, hcancelled,
              Bool.false_eq_true, if_false, Session.receive, apply_eq r hm, Session.ofExcept, pure,
              EStateM.pure]
            rw [hrest, Nat.add_assoc, Nat.add_comm 1 n]
            rfl

def series (r : BatchedRun σ) : List DebugSeries :=
  match r.collector with
  | some d => d.series
  | none => []

theorem series_fed (strategy : σ) (debug : Bool) (history : List Feed) :
    (fed strategy debug history).series = Strategic.series strategy debug history := by
  cases debug with
  | false => rfl
  | true => exact (Collector.files_ofSamples _).series

theorem finish_series (r : BatchedRun σ) (limits : ValidLimits) (name : String) :
    r.finish limits name = do
      Session.sendAll ((chunks limits.signalChunk r.records.toList).map .signals)
      let text ← Session.ofExcept ((Strategic.save r.strategy).mapError .checkpoint)
      Session.send (.state text)
      Session.sendAll ((chunks limits.debugChunk r.series).map .debug)
      return ⟨name, r.preloaded, r.updated, r.records.size, r.series.length,
        ← Session.isCancelled⟩ := rfl

/-- The state goes out in any case in which it can be saved, and the chunks on both sides of it until
the session is cancelled. -/
theorem finish_eq (r : BatchedRun σ) (limits : ValidLimits) (name : String) {w : Wire BatchOutput}
    (hroom : w.room = none) (hsent : w.sent = []) :
    ∃ a b,
      let signals := chunks limits.signalChunk r.records.toList
      let debug := chunks limits.debugChunk r.series
      StopsAt (w.cancellation.inForce w.received) signals.length a ∧
        StopsAt (fun i => w.cancellation.inForce w.received (a + 1 + i)) debug.length b ∧
        r.finish limits name w =
          match Strategic.save r.strategy with
          | .ok text =>
              .ok ⟨name, r.preloaded, r.updated, r.records.size, r.series.length,
                  w.cancellation.inForce w.received (a + 1 + b)⟩
                { w with sent := BatchOutput.outline (signals.take a) text (debug.take b) }
          | .error e =>
              .error (.checkpoint e) { w with sent := (signals.take a).map .signals } := by
  obtain ⟨a, ha, hsignals⟩ := Session.sendAll_eq
    ((chunks limits.signalChunk r.records.toList).map BatchOutput.signals) hroom
  rw [hsent, List.length_map, List.length_nil] at ha
  rw [hsent, List.nil_append, ← List.map_take] at hsignals
  let first := ((chunks limits.signalChunk r.records.toList).take a).map BatchOutput.signals
  have hfirst : first.length = a := by
    rw [List.length_map, List.length_take, Nat.min_eq_left ha.le]
  have hrest (text : String) := Session.sendAll_eq
    ((chunks limits.debugChunk r.series).map BatchOutput.debug)
    (w := { w with sent := first ++ [.state text] }) hroom
  simp only [List.length_map, List.length_append, List.length_singleton, hfirst,
    ← List.map_take] at hrest
  cases hsave : Strategic.save r.strategy with
  | error e =>
      obtain ⟨b, hb, -⟩ := hrest ""
      refine ⟨a, b, ha.congr fun i => by rw [Nat.zero_add], hb, ?_⟩
      simp only [finish_series, bind, EStateM.bind, hsignals, hsave, Except.mapError,
        Session.ofExcept]
      rfl
  | ok text =>
      have hstate := Session.send_eq (w := { w with sent := first }) hroom (.state text)
      obtain ⟨b, hb, hdebug⟩ := hrest text
      refine ⟨a, b, ha.congr fun i => by rw [Nat.zero_add], hb, ?_⟩
      simp only [first] at hstate hdebug
      simp only [finish_series, bind, EStateM.bind, hsignals, hsave, Except.mapError,
        Session.ofExcept, hstate, hdebug, pure, EStateM.pure, Session.isCancelled,
        Wire.isCancelled_eq, BatchOutput.outline, List.length_append, List.length_map,
        List.length_take, List.length_singleton, Nat.min_eq_left ha.le, Nat.min_eq_left hb.le]

end BatchedRun

section Run

variable {σ : Type} [Strategic σ] (provider : Provider σ) (limits : ValidLimits)
  {request : CreateRequest} {strategy : σ} {inputs : List BatchInput} {c : Cancellation}

theorem batchedSession_cancelled (hc : c.inForce 0 0 = true) :
    (batchedSession provider limits (opening .create request inputs)).run c none =
      ⟨[], .error .cancelled⟩ := by
  have hfirst := Session.open?_cancelled (ο := BatchOutput) BatchInput.create? .create request
    inputs hc
  simp only [Session.run, EStateM.run, batchedSession, bind, EStateM.bind, hfirst]
  rfl

theorem batchedSession_refused {e : SessionError}
    (hopen : openStrategy provider request = .error e) :
    (batchedSession provider limits (opening .create request inputs)).run .never none =
      ⟨[], .error e⟩ := by
  have hfirst := Session.open?_opening (ο := BatchOutput) BatchInput.create? .create request inputs
    (fun _ => rfl) (Cancellation.inForce_never 0 0)
  simp only [Session.run, EStateM.run, batchedSession, bind, EStateM.bind, hfirst, hopen,
    Session.ofExcept]
  rfl

/-- A whole batched session: some messages are taken in, and then some of the chunks go out. A state
that cannot be saved ends it in front of the series. -/
theorem batchedSession_run (hopen : openStrategy provider request = .ok strategy)
    (hinputs : ∀ m ∈ inputs, m.create? = none) (hc : c.inForce 0 0 = false) :
    ∃ n a b,
      let history := BatchInput.history (inputs.take n)
      let records := Strategic.records strategy history
      let series := Strategic.series strategy request.debug history
      let signals := chunks limits.signalChunk records
      let debug := chunks limits.debugChunk series
      StopsAt (fun i => c.inForce (i + 1) 0) inputs.length n ∧
        StopsAt (c.inForce (n + 1)) signals.length a ∧
        StopsAt (fun i => c.inForce (n + 1) (a + 1 + i)) debug.length b ∧
        (batchedSession provider limits (opening .create request inputs)).run c none =
          match Strategic.save (Strategic.after strategy history) with
          | .ok text =>
              ⟨BatchOutput.outline (signals.take a) text (debug.take b),
                .ok ⟨request.name, history.countP fun f => !f.isPresent,
                  history.countP Feed.isPresent, records.length, series.length,
                  c.inForce (n + 1) (a + 1 + b)⟩⟩
          | .error e => ⟨(signals.take a).map .signals, .error (.checkpoint e)⟩ := by
  have hfirst := Session.open?_opening (ο := BatchOutput) BatchInput.create? .create request inputs
    (fun _ => rfl) hc
  simp only [Wire.fresh] at hfirst
  obtain ⟨n, hn, hprocess⟩ := BatchedRun.process_eq hinputs (.fed strategy request.debug [])
    ⟨c, none, 1, [], 0, [.processing, .awaitingCreate]⟩
  rw [BatchedRun.foldl_take, List.nil_append, Nat.add_comm 1 n] at hprocess
  obtain ⟨a, b, ha, hb, hfinish⟩ := BatchedRun.finish_eq
    (.fed strategy request.debug (BatchInput.history (inputs.take n))) limits request.name
    (w := ⟨c, none, n + 1, [], 0, [.finalizing, .processing, .awaitingCreate]⟩) rfl rfl
  rw [BatchedRun.series_fed] at hb hfinish
  refine ⟨n, a, b, hn.congr fun i => by rw [Nat.add_comm 1 i]; rfl, ha, hb, ?_⟩
  simp only [Session.run, EStateM.run, batchedSession, bind, EStateM.bind, hfirst, hopen,
    Session.ofExcept, pure, EStateM.pure, Session.advance, Wire.fresh, BatchedRun.start_eq, hprocess,
    hfinish]
  simp only [BatchedRun.fed]
  cases Strategic.save (Strategic.after strategy (BatchInput.history (inputs.take n))) with
  | ok text => rfl
  | error e => rfl

theorem batchedSession_never (hopen : openStrategy provider request = .ok strategy)
    (hinputs : ∀ m ∈ inputs, m.create? = none) :
    let history := BatchInput.history inputs
    let records := Strategic.records strategy history
    let series := Strategic.series strategy request.debug history
    (batchedSession provider limits (opening .create request inputs)).run .never none =
      match Strategic.save (Strategic.after strategy history) with
      | .ok text =>
          ⟨BatchOutput.outline (chunks limits.signalChunk records) text
              (chunks limits.debugChunk series),
            .ok ⟨request.name, history.countP fun f => !f.isPresent,
              history.countP Feed.isPresent, records.length, series.length, false⟩⟩
      | .error e =>
          ⟨(chunks limits.signalChunk records).map .signals, .error (.checkpoint e)⟩ := by
  obtain ⟨n, a, b, hn, ha, hb, hrun⟩ := batchedSession_run provider limits hopen hinputs
    (Cancellation.inForce_never 0 0)
  obtain rfl := hn.eq_whole fun _ => rfl
  obtain rfl := ha.eq_whole fun _ => rfl
  obtain rfl := hb.eq_whole fun _ => rfl
  rwa [List.take_length, List.take_length, List.take_length] at hrun

end Run

section Durable

variable {σ : Type} [Durable σ] (provider : Provider σ) (limits : ValidLimits)
  {request : CreateRequest} {strategy : σ} {inputs : List BatchInput}

theorem batchedSession_durable (hopen : openStrategy provider request = .ok strategy)
    (hinputs : ∀ m ∈ inputs, m.create? = none) :
    let history := BatchInput.history inputs
    let records := Strategic.records strategy history
    let series := Strategic.series strategy request.debug history
    (batchedSession provider limits (opening .create request inputs)).run .never none =
      ⟨BatchOutput.outline (chunks limits.signalChunk records)
          (checkpoint (Strategic.after strategy history)) (chunks limits.debugChunk series),
        .ok ⟨request.name, history.countP fun f => !f.isPresent, history.countP Feed.isPresent,
          records.length, series.length, false⟩⟩ := by
  have hrun := batchedSession_never provider limits hopen hinputs
  simp only [Durable.save_eq] at hrun
  exact hrun

/-- A session that is left alone sends the records of all signals, the state after all candles, and
with debugging all series, each in full chunks but for the last. -/
theorem batchedSession_output (hopen : openStrategy provider request = .ok strategy)
    (hinputs : ∀ m ∈ inputs, m.create? = none) :
    let history := BatchInput.history inputs
    let records := Strategic.records strategy history
    let series := Strategic.series strategy request.debug history
    ∃ signals debug,
      IsChunking limits.signalChunk records signals ∧ IsChunking limits.debugChunk series debug ∧
        (batchedSession provider limits (opening .create request inputs)).run .never none =
          ⟨signals.map .signals ++ [.state (checkpoint (Strategic.after strategy history))] ++
              debug.map .debug,
            .ok ⟨request.name, history.countP fun f => !f.isPresent,
              history.countP Feed.isPresent, records.length, series.length, false⟩⟩ := by
  obtain ⟨hsignal, hdebug⟩ := limits.isValid_iff.1 limits.valid
  exact ⟨_, _, isChunking_chunks hsignal _, isChunking_chunks hdebug _,
    batchedSession_durable provider limits hopen hinputs⟩

end Durable

/-- Three signals in messages of one each, and three series in messages of at most two. -/
theorem batchedSession_output_rising :
    let request : CreateRequest := ⟨"SuperTrend", "\x7b\"atrPeriod\":1\x7d", none, true⟩
    let strategy : Strategy :=
      .superTrend (.fresh { SuperTrend.Config.standard with rangePeriod := 1 })
    let inputs : List BatchInput := [.preload [.ofPrices 0 1.0 2.0 1.0 2.0 0.0],
      .update [.ofPrices 0 2.0 3.0 1.0 3.0 0.0, .ofPrices 1 3.0 4.0 2.0 4.0 0.0],
      .update [.ofPrices 2 4.0 5.0 3.0 1.0 0.0]]
    let history := BatchInput.history inputs
    let records := Strategic.records strategy history
    let series := Strategic.series strategy true history
    records.length = 3 ∧ series.length = 3 ∧
      ∃ signals debug, IsChunking 1 records signals ∧ IsChunking 2 series debug ∧
        (batchedSession Registry.builtIn.provider ⟨⟨1, 2⟩, rfl⟩
            (opening .create request inputs)).run .never none =
          ⟨signals.map .signals ++ [.state (checkpoint (Strategic.after strategy history))] ++
              debug.map .debug,
            .ok ⟨"SuperTrend", history.countP fun f => !f.isPresent,
              history.countP Feed.isPresent, records.length, series.length, false⟩⟩ := by
  have hopen : openStrategy Registry.builtIn.provider
      ⟨"SuperTrend", "\x7b\"atrPeriod\":1\x7d", none, true⟩ =
    .ok (.superTrend (.fresh { SuperTrend.Config.standard with rangePeriod := 1 })) := by rfl
  have hinputs : ∀ m ∈ [BatchInput.preload [.ofPrices 0 1.0 2.0 1.0 2.0 0.0],
      .update [.ofPrices 0 2.0 3.0 1.0 3.0 0.0, .ofPrices 1 3.0 4.0 2.0 4.0 0.0],
      .update [.ofPrices 2 4.0 5.0 3.0 1.0 0.0]], m.create? = none := by decide +kernel
  have houtput := batchedSession_output Registry.builtIn.provider ⟨⟨1, 2⟩, rfl⟩ hopen hinputs
  exact ⟨by decide +kernel, by decide +kernel, houtput⟩

end SignalEngine
