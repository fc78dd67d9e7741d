import SignalEngine.Proofs.Checkpoint.RoundTrip
import SignalEngine.Proofs.Session.Batched

/-!
Sessions that go on from the state of another. Whether two of them do what one would have done over
all candles hangs on the numbers of that state alone: a plain number that is not finite is handed
out as a checkpoint that cannot be loaded.
-/

namespace SignalEngine

namespace Registry

theorem mem_builtIn {r : Registration} (h : r ∈ builtIn.registrations) :
    ∃ kind : StrategyKind, r = kind.registration kind.name kind.description := by
  have hall : builtIn.registrations =
    StrategyKind.all.map fun kind => kind.registration kind.name kind.description := by rfl
  rw [hall, List.mem_map] at h
  obtain ⟨kind, _, rfl⟩ := h
  exact ⟨kind, rfl⟩

theorem create_eq_ok {r : Registry} {name config : String} {s : Strategy} :
    r.create name config = .ok s ↔
      ∃ entry, r.find? name = some entry ∧ entry.make config = .ok s := by
  rw [create, lookup]
  cases r.find? name with
  | none => exact ⟨nofun, fun ⟨_, h, _⟩ => nomatch h⟩
  | some entry => exact ⟨fun h => ⟨entry, rfl, h⟩, fun ⟨_, h, hmake⟩ => Option.some.inj h ▸ hmake⟩

end Registry

theorem makeFrom_eq_ok {codec : Json.Codec α} {standard : α}
    {validate : α → Except ConfigFault Unit} {build : α → Strategy} {text : String} {s : Strategy}
    (h : makeFrom codec standard validate build text = .ok s) :
    ∃ c, readConfig codec standard text = .ok c ∧ validate c = .ok () ∧ s = build c := by
  obtain ⟨c, hread, h⟩ := bind_eq_ok.1 h
  obtain ⟨u, hvalid, h⟩ := bind_eq_ok.1 h
  refine ⟨c, hread, ?_, (Except.ok.inj h).symm⟩
  cases hvalidate : validate c with
  | ok u => rfl
  | error fault =>
      rw [hvalidate] at hvalid
      cases hvalid

namespace Strategy

theorem reached_of_make {kind : StrategyKind} {config : String} {s : Strategy}
    (h : kind.make config = .ok s) : s.name = kind.name ∧ s.Reached ∧ Priced s := by
  cases kind with
  | superTrend =>
      obtain ⟨c, -, hvalid, rfl⟩ := makeFrom_eq_ok h
      exact ⟨rfl, .superTrend hvalid, trivial⟩
  | turtle =>
      obtain ⟨c, -, hvalid, rfl⟩ := makeFrom_eq_ok h
      exact ⟨rfl, .turtle hvalid, trivial⟩
  | aldo =>
      obtain ⟨c, -, hvalid, rfl⟩ := makeFrom_eq_ok h
      exact ⟨rfl, .aldo hvalid, Aldo.State.priced_fresh c⟩
  | agreement =>
      obtain ⟨c, -, hvalid, rfl⟩ := makeFrom_eq_ok h
      exact ⟨rfl, .agreement hvalid, trivial⟩

theorem reached_of_create {name config : String} {s : Strategy}
    (h : Registry.builtIn.create name config = .ok s) : s.name = name ∧ s.Reached ∧ Priced s := by
  obtain ⟨entry, hfind, hmake⟩ := Registry.create_eq_ok.1 h
  obtain ⟨kind, rfl⟩ := Registry.mem_builtIn (List.mem_of_find?_eq_some hfind)
  obtain ⟨hname, hreached, hprice⟩ := reached_of_make hmake
  have hown := List.find?_some hfind
  exact ⟨hname.trans (beq_iff_eq.1 hown), hreached, hprice⟩

theorem name_after (s : Strategy) (history : List Feed) :
    (Strategic.after s history).name = s.name := by
  induction history generalizing s with
  | nil => rfl
  | cons f rest ih =>
      cases f with
      | past c => exact (ih _).trans (name_preload s c)
      | present c => exact (ih _).trans (name_update s c)

theorem Reached.after {s : Strategy} (h : s.Reached) (history : List Feed) :
    (Strategic.after s history).Reached := by
  induction history generalizing s with
  | nil => exact h
  | cons f rest ih =>
      cases f with
      | past c => exact ih (h.preload c)
      | present c => exact ih (h.update c)

theorem priced_after {s : Strategy} (h : Priced s) {history : List Feed}
    (hfinite : ∀ f ∈ history, f.candle.close.isFinite = true) :
    Priced (Strategic.after s history) := by
  induction history generalizing s with
  | nil => exact h
  | cons f rest ih =>
      obtain ⟨hf, hrest⟩ := List.forall_mem_cons.1 hfinite
      cases f with
      | past c => exact ih (priced_preload h hf) hrest
      | present c => exact ih (priced_update h hf) hrest

end Strategy

/-- A session with the built-in strategies that is left alone. -/
def undisturbed (limits : ValidLimits) (request : CreateRequest) (inputs : List BatchInput) :
    SessionOutcome BatchOutput :=
  (batchedSession Registry.builtIn.provider limits (opening .create request inputs)).run .never none

section Undisturbed

variable (limits : ValidLimits) {request : CreateRequest} {inputs : List BatchInput}

theorem undisturbed_ok {s : Strategy}
    (hopen : openStrategy Registry.builtIn.provider request = .ok s)
    (hinputs : ∀ m ∈ inputs, m.create? = none) :
    (undisturbed limits request inputs).records =
        Strategic.records s (BatchInput.history inputs) ∧
      (undisturbed limits request inputs).states =
        [checkpoint (Strategic.after s (BatchInput.history inputs))] ∧
      ∃ summary, (undisturbed limits request inputs).result = .ok summary := by
  rw [undisturbed, batchedSession_durable Registry.builtIn.provider limits hopen hinputs]
  refine ⟨?_, BatchOutput.states_outline _ _ _, _, rfl⟩
  rw [SessionOutcome.records, BatchOutput.records_outline, flatten_chunks]

theorem undisturbed_error {e : SessionError}
    (hopen : openStrategy Registry.builtIn.provider request = .error e) :
    (undisturbed limits request inputs).result = .error e :=
  congrArg SessionOutcome.result (batchedSession_refused Registry.builtIn.provider limits hopen)

end Undisturbed

theorem openStrategy_fresh {name config : String} {s : Strategy} (debug : Bool)
    (h : Registry.builtIn.create name config = .ok s) :
    openStrategy Registry.builtIn.provider ⟨name, config, none, debug⟩ = .ok s :=
  openStrategy_made h

/-- A strategy that is asked for with a state is the one that the state is loaded into. -/
theorem openStrategy_state {name config text : String} {t : Strategy} (debug : Bool)
    (htext : Text.isBlank text = false) (h : Registry.builtIn.create name config = .ok t) :
    openStrategy Registry.builtIn.provider ⟨name, config, some text, debug⟩ =
      (Persistent.load t text).mapError .restore := by
  have hresume : CreateRequest.resumeState? ⟨name, config, some text, debug⟩ = some text := by
    rw [CreateRequest.resumeState?, Option.filter_some, htext]
    rfl
  have hopen : openStrategy Registry.builtIn.provider ⟨name, config, some text, debug⟩ = _ :=
    openStrategy_made h
  simp only [hresume, Durable.restore_eq] at hopen
  rw [hopen]
  cases hload : Persistent.load t text with
  | ok s => rw [restore_of_load_ok hload]; rfl
  | error e => rw [restore_of_load_error hload]; rfl

theorem openStrategy_checkpoint {name config : String} {t : Strategy} (debug : Bool) (s : Strategy)
    (h : Registry.builtIn.create name config = .ok t) :
    openStrategy Registry.builtIn.provider ⟨name, config, some (checkpoint s), debug⟩ =
      (Persistent.load t (checkpoint s)).mapError .restore :=
  openStrategy_state debug (Strategy.isBlank_checkpoint s) h

/-- The state of a session over the first messages can be gone on from: whatever messages come
next, a second session is opened with it, and both together send what one session over all messages
sends. -/
def Resumable (name config config' : String) (first : List BatchInput) : Prop :=
  ∀ (limits limits' : ValidLimits) (debug debug' : Bool) (second : List BatchInput),
    (∀ m ∈ second, m.create? = none) →
    (∀ f ∈ BatchInput.history second, f.candle.isFinite = true) →
    let before := undisturbed limits ⟨name, config, none, debug⟩ first
    let whole := undisturbed limits ⟨name, config, none, debug⟩ (first ++ second)
    ∃ text summary, before.states = [text] ∧
      let rest := undisturbed limits' ⟨name, config', some text, debug'⟩ second
      rest.result = .ok summary ∧ before.records ++ rest.records = whole.records ∧
        rest.states = whole.states

section Resumption

variable {name config config' : String} {s t : Strategy} {first : List BatchInput}

theorem resumable_of_savable (hcreate : Registry.builtIn.create name config = .ok s)
    (htarget : Registry.builtIn.create name config' = .ok t)
    (hinputs : ∀ m ∈ first, m.create? = none)
    (h : Savable (Strategic.after s (BatchInput.history first))) :
    Resumable name config config' first := by
  intro limits limits' debug debug' second hsecond _
  obtain ⟨hname, hreached, -⟩ := Strategy.reached_of_create hcreate
  have hkind : t.name = (Strategic.after s (BatchInput.history first)).name := by
    rw [Strategy.name_after, hname, (Strategy.reached_of_create htarget).1]
  have hopen := openStrategy_checkpoint debug' (Strategic.after s (BatchInput.history first)) htarget
  have hsound := (hreached.after (BatchInput.history first)).sound
  rw [Faithful.load_checkpoint hsound (Strategy.sameKind_of_name hkind) h] at hopen
  have hboth : ∀ m ∈ first ++ second, m.create? = none :=
    List.forall_mem_append.2 ⟨hinputs, hsecond⟩
  have hfresh := openStrategy_fresh debug hcreate
  obtain ⟨hbefore, hstate, -⟩ := undisturbed_ok limits hfresh hinputs
  obtain ⟨hrest, hrestState, summary, hsummary⟩ := undisturbed_ok limits' hopen hsecond
  obtain ⟨hwhole, hwholeState, -⟩ := undisturbed_ok limits hfresh hboth
  refine ⟨_, summary, hstate, hsummary, ?_, ?_⟩
  · rw [hbefore, hrest, hwhole, BatchInput.history_append, Strategic.records_append]
  · rw [hrestState, hwholeState, BatchInput.history_append, Strategic.after_append]

/-- It takes no more than a second session without messages to see what the state has lost. -/
theorem savable_of_resumable (hcreate : Registry.builtIn.create name config = .ok s)
    (htarget : Registry.builtIn.create name config' = .ok t)
    (hinputs : ∀ m ∈ first, m.create? = none)
    (hfinite : ∀ f ∈ BatchInput.history first, f.candle.isFinite = true)
    (h : Resumable name config config' first) :
    Savable (Strategic.after s (BatchInput.history first)) := by
  obtain ⟨hname, hreached, hprice⟩ := Strategy.reached_of_create hcreate
  have hkind : t.name = (Strategic.after s (BatchInput.history first)).name := by
    rw [Strategy.name_after, hname, (Strategy.reached_of_create htarget).1]
  have hprice := Strategy.priced_after hprice fun f hf => Candle.isFinite_close (hfinite f hf)
  refine (Strategy.savable_iff_load hkind (hreached.after _).sound hprice).2 ?_
  have hnone : ∀ m ∈ ([] : List BatchInput), m.create? = none := nofun
  obtain ⟨text, summary, hstate, hresult, -, hstates⟩ :=
    h .standard .standard false false [] hnone nofun
  obtain ⟨-, hbefore, -⟩ :=
    undisturbed_ok .standard (openStrategy_fresh false hcreate) hinputs
  rw [hbefore] at hstate
  obtain rfl := List.singleton_inj.1 hstate
  have hopen := openStrategy_checkpoint false (Strategic.after s (BatchInput.history first)) htarget
  cases hload : Persistent.load t (checkpoint (Strategic.after s (BatchInput.history first))) with
  | error e =>
      rw [hload] at hopen
      rw [undisturbed_error .standard hopen] at hresult
      cases hresult
  | ok s' =>
      rw [hload] at hopen
      obtain ⟨-, hrest, -⟩ := undisturbed_ok .standard hopen hnone
      rw [List.append_nil, hbefore, hrest] at hstates
      exact ⟨s', rfl, List.singleton_inj.1 hstates⟩

/-- The state of a session can be gone on from just when all its plain numbers are finite and its
integers are those of their machine words. -/
theorem resumable_iff_savable (hcreate : Registry.builtIn.create name config = .ok s)
    (htarget : Registry.builtIn.create name config' = .ok t)
    (hinputs : ∀ m ∈ first, m.create? = none)
    (hfinite : ∀ f ∈ BatchInput.history first, f.candle.isFinite = true) :
    Resumable name config config' first ↔ Savable (Strategic.after s (BatchInput.history first)) :=
  ⟨savable_of_resumable hcreate htarget hinputs hfinite,
    resumable_of_savable hcreate htarget hinputs⟩

end Resumption

/-- A session is gone on from under other settings, which those of the state replace. -/
theorem resumable_iff_savable_rising :
    let first : List BatchInput :=
      [.update [.ofPrices 0 2.0 3.0 1.0 3.0 0.0, .ofPrices 1 3.0 4.0 2.0 4.0 0.0]]
    (∀ f ∈ BatchInput.history first, f.candle.isFinite = true) ∧
      Resumable "SuperTrend" "\x7b\"atrPeriod\":1\x7d" "" first := by
  have hcreate : Registry.builtIn.create "SuperTrend" "\x7b\"atrPeriod\":1\x7d" =
    .ok (.superTrend (.fresh { SuperTrend.Config.standard with rangePeriod := 1 })) := by rfl
  have htarget : Registry.builtIn.create "SuperTrend" "" =
    .ok (.superTrend (.fresh .standard)) := by rfl
  have hinputs :
    ∀ m ∈ [BatchInput.update [.ofPrices 0 2.0 3.0 1.0 3.0 0.0, .ofPrices 1 3.0 4.0 2.0 4.0 0.0]],
    m.create? = none := by decide +kernel
  have hfinite : ∀ f ∈ BatchInput.history [BatchInput.update [.ofPrices 0 2.0 3.0 1.0 3.0 0.0,
    .ofPrices 1 3.0 4.0 2.0 4.0 0.0]], f.candle.isFinite = true := by decide +kernel
  refine ⟨hfinite, (resumable_iff_savable hcreate htarget hinputs hfinite).2 ?_⟩
  exact savable_iff.2 (by decide +kernel)

/-- Prices of zero make the confidence a quotient of zeros, and the state that holds it cannot be
gone on from. -/
theorem not_resumable_zero :
    let first : List BatchInput := [.update [.ofPrices 0 0.0 0.0 0.0 0.0 0.0]]
    (∀ m ∈ first, m.create? = none) ∧ (∀ f ∈ BatchInput.history first, f.candle.isFinite = true) ∧
      ¬ Resumable "SuperTrend" "\x7b\"atrPeriod\":1\x7d" "\x7b\"atrPeriod\":1\x7d" first := by
  have hcreate : Registry.builtIn.create "SuperTrend" "\x7b\"atrPeriod\":1\x7d" =
    .ok (.superTrend (.fresh { SuperTrend.Config.standard with rangePeriod := 1 })) := by rfl
  have hinputs : ∀ m ∈ [BatchInput.update [.ofPrices 0 0.0 0.0 0.0 0.0 0.0]], m.create? = none := by
    decide +kernel
  have hfinite : ∀ f ∈ BatchInput.history [BatchInput.update [.ofPrices 0 0.0 0.0 0.0 0.0 0.0]],
    f.candle.isFinite = true := by decide +kernel
  refine ⟨hinputs, hfinite, fun h => ?_⟩
  have hsave := (savable_of_resumable hcreate hcreate hinputs hfinite h).finite
  exact absurd hsave (by decide +kernel)

end SignalEngine
