import SignalEngine.Proofs.Checkpoint.Loaded
import SignalEngine.Proofs.Session.Failure
import SignalEngine.Proofs.Session.Invariant
import SignalEngine.Proofs.Session.Messages
import SignalEngine.Proofs.Session.Resumption
import SignalEngine.Proofs.Strategy.Confidence
import SignalEngine.Session.Protocol

namespace SignalEngine

theorem savable_of_makeFrom {codec : Json.Codec α} [Recorded α] {standard : α}
    {validate : α → Except ConfigFault Unit} {build : α → Strategy} {text : String} {s : Strategy}
    (hyields : codec.Yields Savable) (hstandard : Savable standard)
    (hbuild : ∀ c, Savable c → Savable (build c))
    (h : makeFrom codec standard validate build text = .ok s) : Savable s := by
  obtain ⟨c, hread, -, rfl⟩ := makeFrom_eq_ok h
  apply hbuild
  rw [readConfig] at hread
  split at hread
  · cases hread
    exact hstandard
  · cases hdecode : codec.decode text with
    | ok c' =>
        rw [hdecode] at hread
        cases hread
        exact hyields.decode hdecode
    | error fault =>
        rw [hdecode] at hread
        cases hread

namespace Strategy

theorem savable_of_make {kind : StrategyKind} {config : String} {s : Strategy}
    (h : kind.make config = .ok s) : Savable s := by
  cases kind with
  | superTrend =>
      exact savable_of_makeFrom SuperTrend.Config.yields_savable SuperTrend.Config.savable_standard
        (fun _ hc => (wraps_superTrend.savable_iff _).2 (SuperTrend.savable_fresh hc)) h
  | turtle =>
      exact savable_of_makeFrom Turtle.Config.yields_savable Turtle.Config.savable_standard
        (fun _ hc => (wraps_turtle.savable_iff _).2 (Turtle.savable_fresh hc)) h
  | aldo =>
      exact savable_of_makeFrom Aldo.Config.yields_savable Aldo.Config.savable_standard
        (fun _ hc => (wraps_aldo.savable_iff _).2 (Aldo.savable_fresh hc)) h
  | agreement =>
      exact savable_of_makeFrom Agreement.Config.yields_savable Agreement.Config.savable_standard
        (fun _ hc => (wraps_agreement.savable_iff _).2 (Agreement.savable_fresh hc)) h

theorem savable_of_create {name config : String} {s : Strategy}
    (h : Registry.builtIn.create name config = .ok s) : Savable s := by
  obtain ⟨entry, hfind, hmake⟩ := Registry.create_eq_ok.1 h
  obtain ⟨kind, rfl⟩ := Registry.mem_builtIn (List.mem_of_find?_eq_some hfind)
  exact savable_of_make hmake

/-- A strategy that is opened can be saved at once, be it made from settings or from a state. -/
theorem savable_of_openStrategy {request : CreateRequest} {s : Strategy}
    (h : openStrategy Registry.builtIn.provider request = .ok s) : Savable s := by
  cases hcreate : Registry.builtIn.provider.create request.name request.config with
  | error e =>
      rw [openStrategy_unmade hcreate] at h
      cases h
  | ok t =>
      rw [openStrategy_made hcreate] at h
      split at h
      · cases h
        exact savable_of_create hcreate
      · rename_i text _
        rw [Durable.restore_eq] at h
        cases hload : Persistent.load t text with
        | ok t' =>
            rw [restore_of_load_ok hload] at h
            cases h
            exact savable_of_load hload
        | error e =>
            rw [restore_of_load_error hload] at h
            cases h

end Strategy

theorem Strategy.index_probes (s : Strategy) (c : Candle) :
    ∀ p ∈ s.probes c, -2 ^ 31 ≤ p.index ∧ p.index < 2 ^ 31 := by
  have hsmall : ∀ index : Int, 0 ≤ index ∧ index ≤ 5 → -2 ^ 31 ≤ index ∧ index < 2 ^ 31 := by omega
  have htrend : ∀ s : SuperTrend.State, ∀ p ∈ s.probes, 0 ≤ p.index ∧ p.index ≤ 5 := by
    intro s
    simp [SuperTrend.State.probes]
  intro p hp
  apply hsmall
  cases s with
  | superTrend s => exact htrend s p hp
  | turtle s => cases hp
  | aldo s =>
      revert p
      simp only [Strategy.probes, Aldo.State.probes]
      split
      · exact nofun
      · simp [Probe.flag]
  | agreement s => exact htrend s.superTrend p hp

namespace Collector

theorem onWire_place {d : Collector} (h : ∀ s ∈ d.series, s.OnWire) {p : Probe}
    (hindex : -2 ^ 31 ≤ p.index ∧ p.index < 2 ^ 31) : ∀ s ∈ (d.place p).2.series, s.OnWire := by
  rw [place]
  split
  · exact h
  · rw [series, Array.toList_push]
    exact List.forall_mem_append.2 ⟨h, List.forall_mem_singleton.2 ⟨hindex, List.forall_mem_nil _⟩⟩

theorem onWire_add {d : Collector} (h : ∀ s ∈ d.series, s.OnWire) {time : Int} {p : Probe}
    (htime : -2 ^ 63 ≤ time ∧ time < 2 ^ 63) (hindex : -2 ^ 31 ≤ p.index ∧ p.index < 2 ^ 31) :
    ∀ s ∈ (d.add time p).series, s.OnWire := by
  have hplace : ∀ s ∈ (d.place p).2.entries.toList, s.OnWire := onWire_place h hindex
  intro s hs
  rw [add, series, Array.toList_modify] at hs
  obtain ⟨i, hi, rfl⟩ := List.getElem_of_mem hs
  rw [List.length_modify] at hi
  have hold := hplace _ (List.getElem_mem hi)
  rw [List.getElem_modify]
  split
  · refine ⟨hold.index, ?_⟩
    rw [DebugSeries.push, Array.toList_push]
    exact List.forall_mem_append.2 ⟨hold.points, List.forall_mem_singleton.2 htime⟩
  · exact hold

theorem onWire_record {d : Collector} (h : ∀ s ∈ d.series, s.OnWire) (c : Candle)
    {probes : List Probe} (hprobes : ∀ p ∈ probes, -2 ^ 31 ≤ p.index ∧ p.index < 2 ^ 31) :
    ∀ s ∈ (d.record c probes).series, s.OnWire := by
  rw [record]
  induction probes generalizing d with
  | nil => exact h
  | cons p probes ih =>
      obtain ⟨hp, hprobes⟩ := List.forall_mem_cons.1 hprobes
      exact ih (onWire_add h (Number.wrapSigned_bounds 63 _) hp) hprobes

end Collector

open Session (Keeps)

namespace BatchedRun

/-- The next confidences are finite, and what is queued and collected can be read back. -/
structure OnWire (r : BatchedRun Strategy) : Prop where
  strategy : r.strategy.Guarded
  records : ∀ x ∈ r.records.toList, x.OnWire
  series : ∀ s ∈ r.series, s.OnWire

theorem onWire_start {s : Strategy} (h : s.Guarded) (debug : Bool) : (start s debug).OnWire := by
  refine ⟨h, List.forall_mem_nil _, ?_⟩
  cases debug with
  | true => exact nofun
  | false => exact nofun

theorem onWire_take {r : BatchedRun Strategy} (h : r.OnWire) {f : Feed} (hf : f.candle.OnWire) :
    (r.take f).OnWire := by
  cases f with
  | past c => exact ⟨Strategy.guarded_preload h.strategy c, h.records, h.series⟩
  | present c =>
      obtain ⟨hguarded, hsignal⟩ := Strategy.guarded_update h.strategy c
      refine ⟨hguarded, ?_, ?_⟩
      · simp only [take, update]
        split
        · rename_i signal heq
          rw [Array.toList_push]
          exact List.forall_mem_append.2
            ⟨h.records, List.forall_mem_singleton.2 ⟨hf, hsignal signal heq⟩⟩
        · exact h.records
      · have hseries := h.series
        obtain ⟨strategy, records, collector, preloaded, updated⟩ := r
        cases collector with
        | none =>
            intro x hx
            cases hx
        | some d => exact Collector.onWire_record hseries c (Strategy.index_probes _ c)

theorem onWire_apply {r r' : BatchedRun Strategy} (h : r.OnWire) {m : BatchInput}
    (hm : ∀ f ∈ m.feeds, f.candle.OnWire) (happly : r.apply m = .ok r') : r'.OnWire := by
  cases hcreate : m.create? with
  | some request =>
      -- a second request is refused
      obtain rfl := BatchInput.eq_create_of_create? m request hcreate
      cases happly
  | none =>
      rw [apply_eq r hcreate] at happly
      cases happly
      clear hcreate
      generalize m.feeds = feeds at hm
      induction feeds generalizing r with
      | nil => exact h
      | cons f feeds ih =>
          obtain ⟨hf, hfeeds⟩ := List.forall_mem_cons.1 hm
          exact ih (onWire_take h hf) hfeeds

theorem onWire_finish {r : BatchedRun Strategy} (h : r.OnWire) (limits : ValidLimits)
    (name : String) :
    Keeps (.allSent BatchOutput.OnWire) (fun _ => True) (r.finish limits name) := by
  refine keeps_finish r limits name ?_ (fun _ => trivial) ?_
  · intro piece hpiece x hx
    refine h.records x ?_
    rw [← flatten_chunks limits.signalChunk r.records.toList]
    exact List.mem_flatten_of_mem hpiece hx
  · intro piece hpiece s hs
    refine h.series s ?_
    rw [← flatten_chunks limits.debugChunk r.series]
    exact List.mem_flatten_of_mem hpiece hs

end BatchedRun

theorem keeps_batchedSession (limits : ValidLimits) {items : List (Inbound BatchInput)}
    (hitems : ∀ m, .message m ∈ items → ∀ f ∈ m.feeds, f.candle.OnWire) :
    Keeps (.allSent BatchOutput.OnWire) (fun _ => True)
      (batchedSession Registry.builtIn.provider limits items) := by
  refine .bind (.open? _ items) fun (request, rest) hrest => ?_
  refine .bind (.ofExcept _) fun s hopen => ?_
  have hguarded := Strategy.guarded_of_savable (Strategy.savable_of_openStrategy hopen)
  refine .bind (.advance_allSent _) fun _ _ => ?_
  refine .bind (BatchedRun.keeps_process ?_ (BatchedRun.onWire_start hguarded _)) fun r hr => ?_
  · exact fun r m r' hr hm => BatchedRun.onWire_apply hr (hitems m (hrest hm))
  · refine .bind (.advance_allSent _) fun _ _ => .bind (BatchedRun.onWire_finish hr limits _) ?_
    exact fun _ _ => .bind (.advance_allSent _) fun _ _ => .pure trivial

theorem StreamingRun.onWire_apply (r : StreamingRun Strategy) (m : StreamInput)
    (h : r.strategy.Guarded) :
    Keeps (.allSent StreamOutput.OnWire) (fun r' => r'.strategy.Guarded) (r.apply m) := by
  cases m with
  | create request => exact .throw _
  | preload c => exact .pure (Strategy.guarded_preload h c)
  | update c =>
      obtain ⟨hguarded, hsignal⟩ := Strategy.guarded_update h c
      exact .bind (.send hsignal) fun _ _ => .pure hguarded

theorem keeps_streamingSession (items : List (Inbound StreamInput)) :
    Keeps (.allSent StreamOutput.OnWire) (fun _ => True)
      (streamingSession Registry.builtIn.provider items) := by
  refine .bind (.open? _ items) fun (request, rest) _ => ?_
  refine .bind (.ofExcept _) fun s hopen => ?_
  have hguarded := Strategy.guarded_of_savable (Strategy.savable_of_openStrategy hopen)
  refine .bind (.advance_allSent _) fun _ _ => ?_
  refine .bind (StreamingRun.keeps_process StreamingRun.onWire_apply hguarded rest) fun r _ => ?_
  refine .bind (.advance_allSent _) fun _ _ => .bind (.ofExcept _) fun _ _ => ?_
  refine .bind (.send trivial) fun _ _ => .bind (.advance_allSent _) fun _ _ => ?_
  exact .bind .isCancelled fun _ _ => .pure trivial

/-- The lines that a session has written are read again as the messages that it sent, whatever came
in, whenever it was cancelled or turned away, and however it ended: one message comes from each line.
All candles and confidences among them are finite, so that none is written as a null; the debug
values are any numbers. -/
theorem runLines_carries (limits : ValidLimits) (cancellation : Cancellation)
    (room : Option Nat) (bytes : List UInt8) :
    let written (protocol : Protocol) :=
      Lines.written
        (runLines .builtIn limits.toSessionLimits protocol cancellation room bytes).lines
    let batched := (batchedSession Registry.builtIn.provider limits
      (Lines.items BatchInput.codec bytes)).run cancellation room
    let streamed := (streamingSession Registry.builtIn.provider
      (Lines.items StreamInput.codec bytes)).run cancellation room
    Lines.Carries BatchOutput.codec (written .batched) batched.sent ∧
      (∀ r ∈ batched.records, r.candle.isFinite = true ∧ r.confidence.isFinite = true) ∧
      Lines.Carries StreamOutput.codec (written .streaming) streamed.sent ∧
      ∀ signal, .tick (some signal) ∈ streamed.sent → signal.confidence.isFinite = true := by
  intro written batched streamed
  have hbatched : ∀ m ∈ batched.sent, m.OnWire :=
    (keeps_batchedSession limits (Lines.yields_items BatchInput.yields_codec bytes)).run _ _
  have hstreamed : ∀ m ∈ streamed.sent, m.OnWire := (keeps_streamingSession _).run _ _
  have hwritten : written .batched =
      Lines.written (Lines.texts BatchOutput.codec batched.sent) := by
    simp only [written, runLines, limits.atLeastOne_eq]
    rfl
  refine ⟨?_, ?_, ?_, ?_⟩
  · rw [hwritten]
    exact Lines.carries_written fun m hm => BatchOutput.holds (hbatched m hm)
  · intro r hr
    obtain ⟨m, hm, hr⟩ := List.mem_flatMap.1 hr
    have hwire := hbatched m hm
    cases m with
    | signals records => exact ⟨(hwire r hr).candle.finite, (hwire r hr).confidence⟩
    | state text => cases hr
    | debug series => cases hr
  · exact Lines.carries_written fun m hm => StreamOutput.holds (hstreamed m hm)
  · exact fun signal hm => hstreamed _ hm signal rfl

end SignalEngine
