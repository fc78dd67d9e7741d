import SignalEngine.Proofs.Session.Batched
import SignalEngine.Proofs.Session.Streaming

namespace SignalEngine

namespace BatchOutput

def isState : BatchOutput → Bool
  | state _ => true
  | signals _ => false
  | debug _ => false

variable (signals : List (List SignalRecord)) (text : String) (series : List (List DebugSeries))

theorem length_outline :
    (outline signals text series).length = signals.length + 1 + series.length := by
  simp only [outline, List.length_append, List.length_map, List.length_singleton]

theorem getElem?_outline {i : Nat} {m : BatchOutput}
    (h : (outline signals text series)[i]? = some m) (hm : m.isState = false) :
    i < signals.length ∨ ∃ j < series.length, i = signals.length + 1 + j := by
  have hlength := length_outline signals text series
  obtain ⟨hi, -⟩ := List.getElem?_eq_some_iff.1 h
  rw [hlength] at hi
  rcases lt_trichotomy i signals.length with hlt | heq | hgt
  · exact .inl hlt
  · have hstate : (outline signals text series)[i]? = some (.state text) := by
      rw [outline, List.append_assoc, List.getElem?_append_right (by rw [List.length_map]; omega),
        List.length_map, heq, Nat.sub_self]
      rfl
    rw [hstate] at h
    cases h
    cases hm
  · exact .inr ⟨i - (signals.length + 1), by omega, by omega⟩

end BatchOutput

section Cut

variable {σ : Type} [Durable σ]

/-- What a batched session does of which the cancellation lets through `n` messages, `a` chunks of
signals and `b` chunks of series. -/
structure BatchedCut (provider : Provider σ) (limits : ValidLimits) (request : CreateRequest)
    (strategy : σ) (inputs : List BatchInput) (c : Cancellation) (n a b : Nat)
    (signals : List (List SignalRecord)) (debug : List (List DebugSeries))
    (sent : List BatchOutput) : Prop where
  /-- The messages before the cancellation come in, and no others. -/
  taken : StopsAt (fun i => c.inForce (i + 1) 0) inputs.length n
  /-- The chunks are those of a session over these messages that is left alone. -/
  alone :
    let whole := batchedSession provider limits (opening .create request (inputs.take n))
    (whole.run .never none).sent = BatchOutput.outline signals
      (checkpoint (Strategic.after strategy (BatchInput.history (inputs.take n)))) debug
  /-- The first of them go out, with the state of these messages between. -/
  sent_eq : sent = BatchOutput.outline (signals.take a)
    (checkpoint (Strategic.after strategy (BatchInput.history (inputs.take n)))) (debug.take b)
  /-- The session ends well. -/
  outcome : (batchedSession provider limits (opening .create request inputs)).run c none = ⟨sent,
    .ok ⟨request.name, (BatchInput.history (inputs.take n)).countP fun f => !f.isPresent,
      (BatchInput.history (inputs.take n)).countP Feed.isPresent,
      (Strategic.records strategy (BatchInput.history (inputs.take n))).length,
      (Strategic.series strategy request.debug (BatchInput.history (inputs.take n))).length,
      c.inForce (n + 1) sent.length⟩⟩
  /-- Only the state is sent after the cancellation. -/
  silent : ∀ i m, sent[i]? = some m → m.isState = false → c.inForce (n + 1) i = false
  /-- A cancellation that comes before the session would have ended is reported. -/
  reported :
    let whole := batchedSession provider limits (opening .create request inputs)
    c.inForce (inputs.length + 1) (whole.run .never none).sent.length = true →
      c.inForce (n + 1) sent.length = true

/-- What a streaming session does of which the cancellation lets through `n` messages. -/
structure StreamingCut (provider : Provider σ) (request : CreateRequest) (strategy : σ)
    (inputs : List StreamInput) (c : Cancellation) (n : Nat) (sent : List StreamOutput) : Prop where
  /-- The messages before the cancellation come in, and no others. -/
  taken : StopsAt
    (fun i => c.inForce (i + 1)
      (Strategic.ticks strategy (StreamInput.history (inputs.take i))).length)
    inputs.length n
  /-- They are answered, and the state of these messages follows. -/
  sent_eq : sent = Strategic.ticks strategy (StreamInput.history (inputs.take n)) ++
    [.state (checkpoint (Strategic.after strategy (StreamInput.history (inputs.take n))))]
  /-- The session ends well. -/
  outcome : (streamingSession provider (opening .create request inputs)).run c none = ⟨sent,
    .ok ⟨request.name, (StreamInput.history (inputs.take n)).countP fun f => !f.isPresent,
      (StreamInput.history (inputs.take n)).countP Feed.isPresent,
      (Strategic.records strategy (StreamInput.history (inputs.take n))).length, 0,
      c.inForce (n + 1) sent.length⟩⟩
  /-- A cancellation that comes before the session would have ended is reported. -/
  reported :
    let whole := streamingSession provider (opening .create request inputs)
    c.inForce (inputs.length + 1) (whole.run .never none).sent.length = true →
      c.inForce (n + 1) sent.length = true

variable (provider : Provider σ) (limits : ValidLimits) {request : CreateRequest} {strategy : σ}
  (hopen : openStrategy provider request = .ok strategy) {c : Cancellation}

include hopen

theorem exists_batchedCut {inputs : List BatchInput} (hinputs : ∀ m ∈ inputs, m.create? = none)
    (hc : c.inForce 0 0 = false) :
    ∃ n a b signals debug sent,
      BatchedCut provider limits request strategy inputs c n a b signals debug sent := by
  obtain ⟨n, a, b, hn, ha, hb, hrun⟩ := batchedSession_run provider limits hopen hinputs hc
  simp only [Durable.save_eq] at hrun
  have htaken : ∀ m ∈ inputs.take n, m.create? = none :=
    fun m hm => hinputs m (List.mem_of_mem_take hm)
  have hnever := batchedSession_durable provider limits hopen htaken
  have hwhole := batchedSession_durable provider limits hopen hinputs
  refine ⟨n, a, b, _, _, _, hn, congrArg SessionOutcome.sent hnever, rfl, ?_, ?_, ?_⟩
  · rw [BatchOutput.length_outline, List.length_take, Nat.min_eq_left ha.le, List.length_take,
      Nat.min_eq_left hb.le]
    exact hrun
  · intro i m hm hstate
    rcases BatchOutput.getElem?_outline _ _ _ hm hstate with hi | ⟨j, hj, rfl⟩
    · rw [List.length_take, Nat.min_eq_left ha.le] at hi
      exact ha.before i hi
    · rw [List.length_take, Nat.min_eq_left hb.le] at hj
      rw [List.length_take, Nat.min_eq_left ha.le]
      exact hb.before j hj
  · dsimp only
    rw [congrArg SessionOutcome.sent hwhole, BatchOutput.length_outline, BatchOutput.length_outline,
      List.length_take, Nat.min_eq_left ha.le, List.length_take, Nat.min_eq_left hb.le]
    intro hcomes
    -- the first of the three loops that stops early has seen the cancellation
    rcases Nat.lt_or_eq_of_le hn.le with hlt | rfl
    · exact Cancellation.inForce_mono le_rfl (Nat.zero_le _) (hn.after hlt)
    rw [List.take_length] at ha hb
    rcases Nat.lt_or_eq_of_le ha.le with hlt | rfl
    · exact Cancellation.inForce_mono le_rfl (by omega) (ha.after hlt)
    rcases Nat.lt_or_eq_of_le hb.le with hlt | rfl
    · exact hb.after hlt
    · exact hcomes

theorem exists_streamingCut {inputs : List StreamInput} (hinputs : ∀ m ∈ inputs, m.create? = none)
    (hc : c.inForce 0 0 = false) :
    ∃ n sent, StreamingCut provider request strategy inputs c n sent := by
  obtain ⟨n, hn, hrun⟩ := streamingSession_run provider hopen hinputs hc
  simp only [Durable.save_eq] at hrun
  have hwhole := streamingSession_durable provider hopen hinputs
  refine ⟨n, _, hn.congr fun i => by rw [Strategic.length_ticks], rfl, ?_, ?_⟩
  · rw [List.length_append, Strategic.length_ticks, List.length_singleton]
    exact hrun
  · dsimp only
    rw [congrArg SessionOutcome.sent hwhole, List.length_append, Strategic.length_ticks,
      List.length_append, Strategic.length_ticks]
    intro hcomes
    rcases Nat.lt_or_eq_of_le hn.le with hlt | rfl
    · exact Cancellation.inForce_mono le_rfl (Nat.le_succ _) (hn.after hlt)
    · rw [List.take_length]
      exact hcomes

/-- Whenever a session of either protocol is cancelled: before its request has come in it fails and
sends nothing, and after that it ends well and sends the state of the messages before the
cancellation. -/
theorem session_cancellation :
    (∀ inputs : List BatchInput, (∀ m ∈ inputs, m.create? = none) →
      (c.inForce 0 0 = true →
        (batchedSession provider limits (opening .create request inputs)).run c none =
          ⟨[], .error .cancelled⟩) ∧
      (c.inForce 0 0 = false → ∃ n a b signals debug sent,
        BatchedCut provider limits request strategy inputs c n a b signals debug sent)) ∧
    ∀ inputs : List StreamInput, (∀ m ∈ inputs, m.create? = none) →
      (c.inForce 0 0 = true →
        (streamingSession provider (opening .create request inputs)).run c none =
          ⟨[], .error .cancelled⟩) ∧
      (c.inForce 0 0 = false → ∃ n sent,
        StreamingCut provider request strategy inputs c n sent) := by
  constructor
  · intro inputs hinputs
    exact ⟨batchedSession_cancelled provider limits,
      exists_batchedCut provider limits hopen hinputs⟩
  · intro inputs hinputs
    exact ⟨streamingSession_cancelled provider, exists_streamingCut provider hopen hinputs⟩

end Cut

/-- Both protocols, cancelled right after the second message that goes out. -/
theorem session_cancellation_second :
    let request : CreateRequest := ⟨"SuperTrend", "\x7b\"atrPeriod\":1\x7d", none, true⟩
    let strategy : Strategy :=
      .superTrend (.fresh { SuperTrend.Config.standard with rangePeriod := 1 })
    let first := Candle.ofPrices 0 2.0 3.0 1.0 3.0 0.0
    let second := Candle.ofPrices 1 3.0 4.0 2.0 4.0 0.0
    let third := Candle.ofPrices 2 4.0 5.0 3.0 1.0 0.0
    (∃ n a b signals debug sent, BatchedCut Registry.builtIn.provider ⟨⟨1, 2⟩, rfl⟩ request strategy
        [.preload [first], .update [first, second, third]] ⟨false, none, some 2⟩ n a b signals
        debug sent) ∧
      ∃ n sent, StreamingCut Registry.builtIn.provider request strategy
        [.update first, .update second, .update third]
        ⟨false, none, some 2⟩ n sent := by
  have hopen : openStrategy Registry.builtIn.provider
      ⟨"SuperTrend", "\x7b\"atrPeriod\":1\x7d", none, true⟩ =
    .ok (.superTrend (.fresh { SuperTrend.Config.standard with rangePeriod := 1 })) := by rfl
  have hcut := session_cancellation Registry.builtIn.provider ⟨⟨1, 2⟩, rfl⟩ hopen
    (c := ⟨false, none, some 2⟩)
  intro request strategy first second third
  constructor
  · exact (hcut.1 [.preload [first], .update [first, second, third]] (by decide +kernel)).2 rfl
  · exact (hcut.2 [.update first, .update second, .update third] (by decide +kernel)).2 rfl

end SignalEngine
