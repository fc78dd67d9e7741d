import SignalEngine.Proofs.Session.Streaming
import SignalEngine.Proofs.Session.Transcript

namespace SignalEngine

section Refused

variable {σ : Type} [Strategic σ]

/-- Why a request is refused: there is no strategy of its name and settings, or the strategy cannot go
on from its state. -/
inductive CreateRequest.Refused (provider : Provider σ) (r : CreateRequest) : SessionError → Prop
  | unmade {e : StrategyError} : provider.create r.name r.config = .error e →
      Refused provider r (.ofStrategy e)
  | unrestorable {s : σ} {text : String} {e : CheckpointError} :
      provider.create r.name r.config = .ok s → r.resumeState? = some text →
      (Strategic.restore s text).error = some e → Refused provider r (.restore e)

theorem CreateRequest.refused_iff {provider : Provider σ} {r : CreateRequest} {e : SessionError} :
    r.Refused provider e ↔ openStrategy provider r = .error e := by
  constructor
  · intro h
    cases h with
    | unmade hcreate => exact openStrategy_unmade hcreate
    | unrestorable hcreate hstate hrestore =>
        simp only [openStrategy_made hcreate, hstate, hrestore]
  · intro h
    cases hcreate : provider.create r.name r.config with
    | error fault =>
        rw [openStrategy_unmade hcreate] at h
        cases h
        exact .unmade hcreate
    | ok s =>
        rw [openStrategy_made hcreate] at h
        split at h
        · cases h
        · rename_i text hstate
          split at h
          · cases h
          · rename_i fault hrestore
            cases h
            exact .unrestorable hcreate hstate hrestore

theorem CreateRequest.Refused.code_eq {provider : Provider σ} {r : CreateRequest} {e : SessionError}
    (h : r.Refused provider e) : e.code = .invalidArgument := by
  cases h with
  | unmade _ => rename_i fault _; cases fault <;> rfl
  | unrestorable => rfl

end Refused

/-- A registry refuses the names that it does not have, and the settings that the strategy of a name
does not take. -/
theorem Registry.refused_iff {registry : Registry} {r : CreateRequest} {e : SessionError} :
    r.Refused registry.provider e ↔
      (registry.find? r.name = none ∧ e = .unknownStrategy r.name) ∨
      ∃ entry, registry.find? r.name = some entry ∧
        ((∃ fault, entry.make r.config = .error fault ∧ e = .ofStrategy fault) ∨
          ∃ s text fault, entry.make r.config = .ok s ∧ r.resumeState? = some text ∧
            (restore s text).error = some fault ∧ e = .restore fault) := by
  have hcreate : registry.provider.create r.name r.config = registry.create r.name r.config := rfl
  rw [create, lookup] at hcreate
  cases hfind : registry.find? r.name with
  | none =>
      rw [hfind] at hcreate
      constructor
      · intro h
        cases h with
        | unmade h =>
            rw [hcreate] at h
            cases h
            exact .inl ⟨rfl, rfl⟩
        | unrestorable h =>
            rw [hcreate] at h
            cases h
      · rintro (⟨-, rfl⟩ | ⟨_, hsome, -⟩)
        · exact .unmade hcreate
        · cases hsome
  | some entry =>
      rw [hfind] at hcreate
      constructor
      · intro h
        refine .inr ⟨entry, rfl, ?_⟩
        cases h with
        | unmade h => exact .inl ⟨_, hcreate.symm.trans h, rfl⟩
        | unrestorable h hstate hrestore =>
            exact .inr ⟨_, _, _, hcreate.symm.trans h, hstate, hrestore, rfl⟩
      · rintro (⟨hnone, -⟩ | ⟨_, hsome, hrefused⟩)
        · cases hnone
        · cases hsome
          rcases hrefused with ⟨fault, h, rfl⟩ | ⟨s, text, fault, h, hstate, hrestore, rfl⟩
          · exact .unmade (hcreate.trans h)
          · exact .unrestorable (hcreate.trans h) hstate hrestore

section Items

variable {σ : Type} [Strategic σ]

/-- An item that a session cannot go on from at its place, and the error that it ends with. The first
item must not be missing, and only the first one may be a request. -/
inductive Fatal (provider : Provider σ) (create? : ι → Option CreateRequest) :
    Nat → Option (Inbound ι) → SessionError → Prop
  | missing : Fatal provider create? 0 none .notCreate
  | notCreate {m : ι} : create? m = none →
      Fatal provider create? 0 (some (.message m)) .notCreate
  | refused {m : ι} {r : CreateRequest} {e : SessionError} : create? m = some r →
      r.Refused provider e → Fatal provider create? 0 (some (.message m)) e
  | repeatedCreate {place : Nat} {m : ι} {r : CreateRequest} : create? m = some r →
      Fatal provider create? (place + 1) (some (.message m)) .repeatedCreate
  | undecodable {place : Nat} {fault : Json.Error} :
      Fatal provider create? place (some (.undecodable fault)) (.unrecognized fault)
  | broken {place : Nat} {text : String} :
      Fatal provider create? place (some (.broken text)) (.transport (.io text))

def Inbound.isBroken : Inbound ι → Bool
  | .broken _ => true
  | .message _ => false
  | .undecodable _ => false

/-- The first fatal item is at this place. -/
structure FirstFatal (provider : Provider σ) (create? : ι → Option CreateRequest)
    (items : List (Inbound ι)) (place : Nat) (e : SessionError) : Prop where
  fatal : Fatal provider create? place items[place]? e
  before : ∀ i < place, ∀ e', ¬ Fatal provider create? i items[i]? e'

section Fatal

variable {provider : Provider σ} {create? : ι → Option CreateRequest} {items : List (Inbound ι)}
  {place : Nat} {e : SessionError}

theorem Fatal.code_eq {item? : Option (Inbound ι)} (h : Fatal provider create? place item? e) :
    e.code = if item?.any Inbound.isBroken then .unavailable else .invalidArgument := by
  cases h with
  | refused _ hrefused => exact hrefused.code_eq
  | _ => rfl

theorem Fatal.elsewhere {item? : Option (Inbound ι)}
    (h : Fatal provider create? (place + 1) item? e) (other : Nat) :
    Fatal provider create? (other + 1) item? e := by
  cases h with
  | repeatedCreate hm => exact .repeatedCreate hm
  | undecodable => exact .undecodable
  | broken => exact .broken

theorem exists_firstFatal (h : ∃ place e, Fatal provider create? place items[place]? e) :
    ∃ place e, FirstFatal provider create? items place e := by
  classical
  obtain ⟨e, hfatal⟩ := Nat.find_spec h
  refine ⟨Nat.find h, e, hfatal, ?_⟩
  intro i hi e' hearlier
  exact Nat.find_min h hi ⟨e', hearlier⟩

theorem FirstFatal.congr {others : List (Inbound ι)}
    (h : FirstFatal provider create? items place e)
    (hsame : others.take (place + 1) = items.take (place + 1)) :
    FirstFatal provider create? others place e := by
  have hget : ∀ i < place + 1, others[i]? = items[i]? := by
    intro i hi
    rw [← List.getElem?_take_of_lt hi, hsame, List.getElem?_take_of_lt hi]
  constructor
  · rw [hget place (Nat.lt_succ_self place)]
    exact h.fatal
  · intro i hi
    rw [hget i (Nat.lt_succ_of_lt hi)]
    exact h.before i hi

theorem exists_opened {first : Inbound ι}
    (h : ∀ e, ¬ Fatal provider create? 0 (some first) e) :
    ∃ m request strategy, first = .message m ∧ create? m = some request ∧
      openStrategy provider request = .ok strategy := by
  cases first with
  | undecodable fault => exact absurd .undecodable (h _)
  | broken text => exact absurd .broken (h _)
  | message m =>
      cases hm : create? m with
      | none => exact absurd (.notCreate hm) (h _)
      | some request =>
          cases hopen : openStrategy provider request with
          | error e => exact absurd (.refused hm (CreateRequest.refused_iff.2 hopen)) (h e)
          | ok strategy => exact ⟨m, request, strategy, rfl, hm, hopen⟩

theorem exists_messages {tail : List (Inbound ι)}
    (hfatal : Fatal provider create? (place + 1) tail[place]? e)
    (hbefore : ∀ i < place, ∀ e', ¬ Fatal provider create? (i + 1) tail[i]? e') :
    ∃ (inputs : List ι) (item : Inbound ι) (rest : List (Inbound ι)),
      tail = inputs.map .message ++ item :: rest ∧ inputs.length = place ∧
      (∀ m ∈ inputs, create? m = none) ∧ Fatal provider create? (place + 1) (some item) e := by
  induction tail generalizing place with
  | nil => cases hfatal
  | cons item tail ih =>
      cases place with
      | zero => exact ⟨[], item, tail, rfl, rfl, nofun, hfatal⟩
      | succ place =>
          have hitem : ∀ e', ¬ Fatal provider create? 1 (some item) e' :=
            hbefore 0 (Nat.succ_pos place)
          obtain ⟨inputs, item', rest, rfl, hlength, hinputs, hfatal'⟩ :=
            ih (hfatal.elsewhere place) fun i hi e' hearlier =>
              hbefore (i + 1) (Nat.succ_lt_succ hi) e' (hearlier.elsewhere (i + 1))
          cases item with
          | undecodable fault => exact absurd .undecodable (hitem _)
          | broken text => exact absurd .broken (hitem _)
          | message m =>
              refine ⟨m :: inputs, item', rest, rfl, congrArg (· + 1) hlength, ?_,
                hfatal'.elsewhere (place + 1)⟩
              refine List.forall_mem_cons.2 ⟨?_, hinputs⟩
              cases hm : create? m with
              | none => rfl
              | some request => exact absurd (.repeatedCreate hm) (hitem _)

/-- Before a fatal item behind the first one a session has been opened and has taken in messages. -/
theorem FirstFatal.exists_opening {create : CreateRequest → ι}
    (hcreate : ∀ m r, create? m = some r → m = create r)
    (h : FirstFatal provider create? items (place + 1) e) :
    ∃ request strategy inputs item rest, openStrategy provider request = .ok strategy ∧
      (∀ m ∈ inputs, create? m = none) ∧ items.take (place + 1) = opening create request inputs ∧
      items = opening create request inputs ++ item :: rest ∧
      Fatal provider create? (place + 1) (some item) e := by
  obtain ⟨hfatal, hbefore⟩ := h
  cases items with
  | nil => cases hfatal
  | cons first tail =>
      obtain ⟨m, request, strategy, rfl, hm, hopen⟩ :=
        exists_opened (hbefore 0 (Nat.succ_pos place))
      obtain ⟨inputs, item, rest, rfl, hlength, hinputs, hitem⟩ := exists_messages hfatal
        fun i hi => hbefore (i + 1) (Nat.succ_lt_succ hi)
      obtain rfl := hcreate m request hm
      refine ⟨request, strategy, inputs, item, rest, hopen, hinputs, ?_, rfl, hitem⟩
      rw [List.take_succ_cons, List.take_left' (by rw [List.length_map, hlength])]
      rfl

end Fatal

namespace Session

variable {provider : Provider σ} {create? : ι → Option CreateRequest}
  {items rest : List (Inbound ι)}
  {next : CreateRequest × List (Inbound ι) → σ → Session ο α} {e : SessionError}

theorem goesBy_open {m : ι} {request : CreateRequest} (hm : create? m = some request) :
    GoesBy (open? create? (.message m :: rest) : Session ο (CreateRequest × List (Inbound ι))) []
      (.ok (request, rest)) := by
  refine GoesBy.unlessCancelled ((GoesBy.receive _).bind_silent ?_)
  rw [hm]
  exact .pure _

/-- A first item that is fatal ends a session before it has sent anything. -/
theorem goesBy_fatal_first (h : Fatal provider create? 0 items[0]? e) :
    GoesBy (do
      let opened ← open? create? items
      let strategy ← ofExcept (openStrategy provider opened.1)
      next opened strategy) [] (.error e) := by
  cases items with
  | nil =>
      cases h with
      | missing => exact (GoesBy.throw _).unlessCancelled.bind_error
  | cons item rest =>
      cases h with
      | notCreate hm =>
          refine (GoesBy.unlessCancelled ((GoesBy.receive _).bind_silent ?_)).bind_error
          rw [hm]
          exact .throw _
      | refused hm hrefused =>
          refine (goesBy_open hm).bind_silent (GoesBy.bind_error ?_)
          rw [CreateRequest.refused_iff.1 hrefused]
          exact .throw _
      | undecodable => exact (GoesBy.receive _).bind_error.unlessCancelled.bind_error
      | broken => exact (GoesBy.receive _).bind_error.unlessCancelled.bind_error

theorem goesBy_opened {m : ι} {request : CreateRequest} {strategy : σ}
    {messages : List ο} {result : Except SessionError α} (hm : create? m = some request)
    (hopen : openStrategy provider request = .ok strategy)
    (h : GoesBy (next (request, rest) strategy) messages result) :
    GoesBy (do
      let opened ← open? create? (.message m :: rest)
      let strategy ← ofExcept (openStrategy provider opened.1)
      next opened strategy) messages result := by
  refine (goesBy_open hm).bind_silent (GoesBy.bind_silent ?_ h)
  rw [hopen]
  exact .pure strategy

theorem goesBy_fatal_later {place : Nat} {item : Inbound ι} {f : ι → Session ο α}
    (h : Fatal provider create? (place + 1) (some item) e)
    (hf : ∀ m r, create? m = some r → GoesBy (f m) [] (.error .repeatedCreate)) :
    GoesBy (receive item >>= f) [] (.error e) := by
  cases h with
  | undecodable => exact (GoesBy.receive _).bind_error
  | broken => exact (GoesBy.receive _).bind_error
  | repeatedCreate hm => exact (GoesBy.receive _).bind_silent (hf _ _ hm)

end Session

theorem BatchInput.eq_create_of_create? (m : BatchInput) (r : CreateRequest)
    (h : m.create? = some r) : m = create r := by
  cases m with
  | create request => exact congrArg create (Option.some.inj h)
  | preload candles => cases h
  | update candles => cases h

theorem StreamInput.eq_create_of_create? (m : StreamInput) (r : CreateRequest)
    (h : m.create? = some r) : m = create r := by
  cases m with
  | create request => exact congrArg create (Option.some.inj h)
  | preload candle => cases h
  | update candle => cases h

open Session (GoesBy)

section Process

variable {provider : Provider σ} {place : Nat} {e : SessionError}

theorem BatchedRun.goesBy_process_fatal (r : BatchedRun σ) {item : Inbound BatchInput}
    (h : Fatal provider BatchInput.create? (place + 1) (some item) e)
    (rest : List (Inbound BatchInput)) : GoesBy (r.process (item :: rest)) [] (.error e) := by
  apply GoesBy.unlessCancelled
  refine Session.goesBy_fatal_later h fun m request hm => ?_
  obtain rfl := BatchInput.eq_create_of_create? m request hm
  exact (GoesBy.throw _).bind_error

theorem BatchedRun.goesBy_process_append {inputs : List BatchInput}
    (hinputs : ∀ m ∈ inputs, m.create? = none) {rest : List (Inbound BatchInput)} {r : BatchedRun σ}
    {result : Except SessionError (BatchedRun σ)}
    (h : GoesBy (((BatchInput.history inputs).foldl take r).process rest) [] result) :
    GoesBy (r.process (inputs.map .message ++ rest)) [] result := by
  induction inputs generalizing r with
  | nil => exact h
  | cons m inputs ih =>
      obtain ⟨hm, hinputs⟩ := List.forall_mem_cons.1 hinputs
      rw [BatchInput.history, List.flatMap_cons, List.foldl_append] at h
      apply GoesBy.unlessCancelled
      refine (GoesBy.receive (.message m)).bind_silent ?_
      rw [apply_eq r hm]
      exact (GoesBy.pure _).bind_silent (ih hinputs h)

theorem StreamingRun.goesBy_process_fatal (r : StreamingRun σ) {item : Inbound StreamInput}
    (h : Fatal provider StreamInput.create? (place + 1) (some item) e)
    (rest : List (Inbound StreamInput)) : GoesBy (r.process (item :: rest)) [] (.error e) := by
  apply GoesBy.unlessCancelled
  refine Session.goesBy_fatal_later h fun m request hm => ?_
  obtain rfl := StreamInput.eq_create_of_create? m request hm
  exact (GoesBy.throw _).bind_error

theorem StreamingRun.goesBy_apply (strategy : σ) (history : List Feed) {m : StreamInput}
    (hm : m.create? = none) :
    GoesBy ((fed strategy history).apply m)
      (Strategic.ticks (Strategic.after strategy history) m.feeds)
      (.ok (fed strategy (history ++ m.feeds))) := by
  cases m with
  | create request => cases hm
  | preload c =>
      rw [StreamInput.feeds, fed_past]
      exact .pure _
  | update c =>
      rw [StreamInput.feeds, fed_present]
      exact (GoesBy.send _).bind (.pure _)

theorem StreamingRun.goesBy_process_append {strategy : σ} {history : List Feed}
    {inputs : List StreamInput} (hinputs : ∀ m ∈ inputs, m.create? = none)
    {rest : List (Inbound StreamInput)} {result : Except SessionError (StreamingRun σ)}
    (h : GoesBy ((fed strategy (history ++ StreamInput.history inputs)).process rest) [] result) :
    GoesBy ((fed strategy history).process (inputs.map .message ++ rest))
      (Strategic.ticks (Strategic.after strategy history) (StreamInput.history inputs)) result := by
  induction inputs generalizing history with
  | nil =>
      rw [StreamInput.history, List.flatMap_nil, List.append_nil] at h
      exact h
  | cons m inputs ih =>
      obtain ⟨hm, hinputs⟩ := List.forall_mem_cons.1 hinputs
      rw [StreamInput.history, List.flatMap_cons, ← List.append_assoc] at h
      rw [StreamInput.history, List.flatMap_cons, Strategic.ticks_append, ← Strategic.after_append]
      apply GoesBy.unlessCancelled
      refine (GoesBy.receive (.message m)).bind_silent ?_
      exact (goesBy_apply strategy history hm).bind (ih hinputs h)

end Process

def StreamOutput.tick? : StreamOutput → Option (Option Signal)
  | .tick signal => some signal
  | .state _ => none

theorem StreamOutput.tick?_map (ticks : List (Option Signal)) :
    (ticks.map tick).filterMap tick? = ticks := by
  rw [List.filterMap_map]
  exact List.filterMap_some

def Inbound.isUpdate : Inbound StreamInput → Bool
  | .message (.update _) => true
  | .message (.create _) => false
  | .message (.preload _) => false
  | .undecodable _ => false
  | .broken _ => false

theorem countP_isUpdate (inputs : List StreamInput) :
    (inputs.map Inbound.message).countP Inbound.isUpdate =
      (StreamInput.history inputs).countP Feed.isPresent := by
  induction inputs with
  | nil => rfl
  | cons m inputs ih =>
      rw [List.map_cons, StreamInput.history, List.flatMap_cons, List.countP_append,
        List.countP_cons, ih, Nat.add_comm]
      cases m <;> rfl

section FirstFatal

variable {provider : Provider σ} {place : Nat} {e : SessionError}

theorem batchedSession_firstFatal (limits : ValidLimits) {items : List (Inbound BatchInput)}
    (h : FirstFatal provider BatchInput.create? items place e) :
    (batchedSession provider limits items).run .never none = ⟨[], .error e⟩ := by
  cases place with
  | zero => exact (Session.goesBy_fatal_first h.fatal).run
  | succ place =>
      obtain ⟨request, strategy, inputs, item, rest, hopen, hinputs, -, rfl, hitem⟩ :=
        h.exists_opening BatchInput.eq_create_of_create?
      refine GoesBy.run (Session.goesBy_opened rfl hopen ?_)
      refine (GoesBy.advance _).bind_silent (GoesBy.bind_error ?_)
      exact BatchedRun.goesBy_process_append hinputs (BatchedRun.goesBy_process_fatal _ hitem rest)

theorem streamingSession_ticks {request : CreateRequest} {strategy : σ} {inputs : List StreamInput}
    (hopen : openStrategy provider request = .ok strategy)
    (hinputs : ∀ m ∈ inputs, m.create? = none) :
    ((streamingSession provider (opening .create request inputs)).run .never none).sent.filterMap
        StreamOutput.tick? =
      (Strategic.answers strategy (StreamInput.history inputs)).map Prod.snd := by
  rw [streamingSession_never provider hopen hinputs]
  cases Strategic.save (Strategic.after strategy (StreamInput.history inputs)) with
  | error e => rw [Strategic.ticks_eq, StreamOutput.tick?_map]
  | ok text =>
      rw [List.filterMap_append, Strategic.ticks_eq, StreamOutput.tick?_map]
      exact List.append_nil _

/-- A streaming session has answered the candles before the fatal item, as it would have done had no
more items come. -/
theorem streamingSession_firstFatal {items : List (Inbound StreamInput)}
    (h : FirstFatal provider StreamInput.create? items place e) :
    ∃ ticks : List (Option Signal),
      (streamingSession provider items).run .never none = ⟨ticks.map .tick, .error e⟩ ∧
        ticks.length = (items.take place).countP Inbound.isUpdate ∧
        ((streamingSession provider (items.take place)).run .never none).sent.filterMap
          StreamOutput.tick? = ticks := by
  cases place with
  | zero => exact ⟨[], (Session.goesBy_fatal_first h.fatal).run, rfl, rfl⟩
  | succ place =>
      obtain ⟨request, strategy, inputs, item, rest, hopen, hinputs, htaken, rfl, hitem⟩ :=
        h.exists_opening StreamInput.eq_create_of_create?
      let history := StreamInput.history inputs
      let ticks := (Strategic.answers strategy history).map Prod.snd
      have hticks : Strategic.ticks strategy history = ticks.map .tick :=
        Strategic.ticks_eq strategy history
      have hrun : (streamingSession provider (opening .create request inputs ++ item :: rest)).run
          .never none = ⟨Strategic.ticks strategy history, .error e⟩ := by
        refine GoesBy.run (Session.goesBy_opened rfl hopen ?_)
        refine (GoesBy.advance _).bind_silent (GoesBy.bind_error ?_)
        rw [StreamingRun.start_eq]
        exact StreamingRun.goesBy_process_append hinputs
          (StreamingRun.goesBy_process_fatal _ hitem rest)
      refine ⟨ticks, hticks ▸ hrun, ?_, ?_⟩
      · rw [htaken, opening, List.countP_cons_of_neg Bool.false_ne_true, countP_isUpdate,
          List.length_map, Strategic.length_answers]
      · rw [htaken, streamingSession_ticks hopen hinputs]

end FirstFatal

/-- What a failure at an item means: it is the first fatal one, the session has sent no more than
this, the items after it do not count, and only a failure of reading is one of the transport. -/
structure FailsAt (provider : Provider σ) (create? : ι → Option CreateRequest)
    (run : List (Inbound ι) → SessionOutcome ο) (items : List (Inbound ι)) (place : Nat)
    (e : SessionError) (sent : List ο) : Prop where
  first : FirstFatal provider create? items place e
  outcome : run items = ⟨sent, .error e⟩
  unaffected : ∀ others, others.take (place + 1) = items.take (place + 1) → run others = run items
  code_eq : e.code =
    if items[place]?.any Inbound.isBroken then .unavailable else .invalidArgument

/-- A session with a fatal item ends at the first one. In the batched protocol it has sent nothing
then, and in the streaming protocol the ticks of a session over the items before. -/
theorem session_failsAt (provider : Provider σ) (limits : ValidLimits) :
    (∀ items : List (Inbound BatchInput),
      (∃ place e, Fatal provider BatchInput.create? place items[place]? e) →
        ∃ place e, FailsAt provider BatchInput.create?
          (fun items => (batchedSession provider limits items).run .never none) items place e []) ∧
    ∀ items : List (Inbound StreamInput),
      (∃ place e, Fatal provider StreamInput.create? place items[place]? e) →
        ∃ place e, ∃ ticks : List (Option Signal),
          FailsAt provider StreamInput.create?
            (fun items => (streamingSession provider items).run .never none) items place e
            (ticks.map .tick) ∧
          ticks.length = (items.take place).countP Inbound.isUpdate ∧
          ((streamingSession provider (items.take place)).run .never none).sent.filterMap
            StreamOutput.tick? = ticks := by
  constructor
  · intro items hitems
    obtain ⟨place, e, hfirst⟩ := exists_firstFatal hitems
    have houtcome := batchedSession_firstFatal limits hfirst
    refine ⟨place, e, hfirst, houtcome, ?_, hfirst.fatal.code_eq⟩
    intro others hsame
    exact (batchedSession_firstFatal limits (hfirst.congr hsame)).trans houtcome.symm
  · intro items hitems
    obtain ⟨place, e, hfirst⟩ := exists_firstFatal hitems
    obtain ⟨ticks, houtcome, hlength, halone⟩ := streamingSession_firstFatal hfirst
    refine ⟨place, e, ticks, ⟨hfirst, houtcome, ?_, hfirst.fatal.code_eq⟩, hlength, halone⟩
    intro others hsame
    obtain ⟨ticks', houtcome', -, halone'⟩ := streamingSession_firstFatal (hfirst.congr hsame)
    -- the ticks are those of the items before, which are the same
    have hbefore : others.take place = items.take place := by
      have htake := congrArg (List.take place) hsame
      rwa [List.take_take, List.take_take, Nat.min_eq_left (Nat.le_succ place)] at htake
    rw [hbefore, halone] at halone'
    rw [houtcome', houtcome, halone']

end Items

/-- A second request ends the one session, and a reader that fails the other. -/
theorem session_failsAt_middle :
    let request : CreateRequest := ⟨"SuperTrend", "\x7b\"atrPeriod\":1\x7d", none, true⟩
    let first := Candle.ofPrices 0 2.0 3.0 1.0 3.0 0.0
    let second := Candle.ofPrices 1 3.0 4.0 2.0 4.0 0.0
    let provider := Registry.builtIn.provider
    let batched : List (Inbound BatchInput) := [.message (.create request),
      .message (.update [first]), .message (.create request), .undecodable .expectedValue]
    let streamed : List (Inbound StreamInput) := [.message (.create request),
      .message (.update first), .broken "reset", .message (.update second)]
    Fatal provider BatchInput.create? 2 batched[2]? .repeatedCreate ∧
      Fatal provider StreamInput.create? 2 streamed[2]? (.transport (.io "reset")) ∧
      (∃ place e, FailsAt provider BatchInput.create?
        (fun items => (batchedSession provider ⟨⟨1, 2⟩, rfl⟩ items).run .never none) batched
        place e []) ∧
      ∃ place e, ∃ ticks : List (Option Signal),
        FailsAt provider StreamInput.create?
          (fun items => (streamingSession provider items).run .never none) streamed place e
          (ticks.map .tick) ∧
        ticks.length = (streamed.take place).countP Inbound.isUpdate ∧
        ((streamingSession provider (streamed.take place)).run .never none).sent.filterMap
          StreamOutput.tick? = ticks := by
  intro request first second provider batched streamed
  have hbatched : Fatal provider BatchInput.create? 2 batched[2]? .repeatedCreate :=
    .repeatedCreate rfl
  have hstreamed : Fatal provider StreamInput.create? 2 streamed[2]? (.transport (.io "reset")) :=
    .broken
  have hfails := session_failsAt provider ⟨⟨1, 2⟩, rfl⟩
  exact ⟨hbatched, hstreamed, hfails.1 batched ⟨2, _, hbatched⟩,
    hfails.2 streamed ⟨2, _, hstreamed⟩⟩

end SignalEngine
