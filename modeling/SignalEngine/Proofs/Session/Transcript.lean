import SignalEngine.Proofs.Session.Batched
import SignalEngine.Session.Streaming

/-!
Sessions that are never cancelled. What such a session sends, and how it ends, is settled by its
items alone. A side that closes on the way gets the first of those messages; the next one is turned
away, and that is the end of the session.
-/

namespace SignalEngine

theorem Wire.isCancelled_never {w : Wire ο} (h : w.cancellation = .never) :
    w.isCancelled = false := by
  rw [isCancelled_eq, h, Cancellation.inForce_never]

/-- The other side takes so many more messages. -/
def Wire.HasRoom (w : Wire ο) (n : Nat) : Prop :=
  ∀ k, w.room = some k → w.sent.length + n ≤ k

/-- What an item brings in, or the error that it ends a session with. -/
def Inbound.read : Inbound ι → Except SessionError ι
  | .message m => .ok m
  | .undecodable fault => .error (.unrecognized fault)
  | .broken text => .error (.transport (.io text))

namespace Session

def ending : Except SessionError α → Wire ο → EStateM.Result SessionError (Wire ο) α
  | .ok a, w => .ok a w
  | .error e, w => .error e w

/-- Left alone, the part of a session sends these messages and ends with this result, if there is
room for all of them. Otherwise the message after the last that has room is turned away. -/
structure GoesBy (p : Session ο α) (messages : List ο) (result : Except SessionError α) : Prop where
  whole : ∀ w : Wire ο, w.cancellation = .never → w.HasRoom messages.length →
    ∃ n ps, p w = ending result { w with
      received := n, sent := w.sent ++ messages, phases := ps }
  cut : ∀ (w : Wire ο) (j : Nat), w.cancellation = .never → w.room = some (w.sent.length + j) →
    j < messages.length →
      ∃ n ps, p w = .error (.transport .closed) { w with
        received := n, sent := w.sent ++ messages.take j, refused := w.refused + 1, phases := ps }

namespace GoesBy

variable {p : Session ο α} {f : α → Session ο β} {a : α} {e : SessionError}
  {first second messages : List ο} {result : Except SessionError β}

theorem silent {result : Except SessionError α}
    (h : ∀ w : Wire ο, w.cancellation = .never →
      ∃ n ps, p w = ending result { w with received := n, phases := ps }) :
    GoesBy p [] result where
  whole w hw _ := by simpa only [List.append_nil] using h w hw
  cut w j _ _ hj := absurd hj (Nat.not_lt_zero j)

theorem pure (a : α) : GoesBy (Pure.pure a : Session ο α) [] (.ok a) :=
  silent fun w _ => ⟨w.received, w.phases, rfl⟩

theorem throw (e : SessionError) : GoesBy (MonadExcept.throw e : Session ο α) [] (.error e) :=
  silent fun w _ => ⟨w.received, w.phases, rfl⟩

theorem ofExcept (r : Except SessionError α) : GoesBy (Session.ofExcept r : Session ο α) [] r := by
  cases r with
  | ok a => exact pure a
  | error e => exact throw e

theorem isCancelled : GoesBy (Session.isCancelled : Session ο Bool) [] (.ok false) := by
  apply silent
  intro w hw
  rw [Session.isCancelled, Wire.isCancelled_never hw]
  exact ⟨w.received, w.phases, rfl⟩

theorem receive (item : Inbound ι) : GoesBy (Session.receive item : Session ο ι) [] item.read := by
  apply silent
  intro w _
  cases item <;> exact ⟨w.received + 1, w.phases, rfl⟩

theorem advance (next : Phase) : GoesBy (Session.advance next : Session ο Unit) [] (.ok ()) :=
  silent fun w _ => ⟨w.received, next :: w.phases, rfl⟩

theorem send (m : ο) : GoesBy (Session.send m) [m] (.ok ()) where
  whole w _ hroom := by
    have hopen : w.isOpen = true := by
      rw [Wire.isOpen]
      cases h : w.room with
      | none => rfl
      | some k => exact decide_eq_true (hroom k h)
    refine ⟨w.received, w.phases, ?_⟩
    rw [Session.send, if_pos hopen]
    rfl
  cut w j _ hroom hj := by
    obtain rfl : j = 0 := Nat.lt_one_iff.1 hj
    have hclosed : w.isOpen = false := by
      rw [Wire.isOpen, hroom]
      exact decide_eq_false (Nat.lt_irrefl _)
    refine ⟨w.received, w.phases, ?_⟩
    rw [Session.send, hclosed, List.take_zero, List.append_nil]
    rfl

/-- One part after another sends the messages of both. -/
theorem bind (hp : GoesBy p first (.ok a)) (hf : GoesBy (f a) second result) :
    GoesBy (p >>= f) (first ++ second) result where
  whole w hw hroom := by
    rw [Wire.HasRoom, List.length_append] at hroom
    obtain ⟨n, ps, hfirst⟩ := hp.whole w hw fun k hk => by have := hroom k hk; omega
    obtain ⟨n', ps', hsecond⟩ := hf.whole { w with
      received := n, sent := w.sent ++ first, phases := ps } hw fun k hk => by
        have := hroom k hk
        rw [List.length_append]
        omega
    refine ⟨n', ps', ?_⟩
    rw [List.append_assoc] at hsecond
    rw [← hsecond]
    simp only [Bind.bind, EStateM.bind, hfirst, ending]
  cut w j hw hroom hj := by
    rcases Nat.lt_or_ge j first.length with hlt | hge
    · obtain ⟨n, ps, hfirst⟩ := hp.cut w j hw hroom hlt
      refine ⟨n, ps, ?_⟩
      rw [List.take_append_of_le_length hlt.le]
      simp only [Bind.bind, EStateM.bind, hfirst]
    · rw [List.length_append] at hj
      obtain ⟨n, ps, hfirst⟩ := hp.whole w hw fun k hk => by
        rw [hroom] at hk
        cases hk
        omega
      obtain ⟨n', ps', hsecond⟩ := hf.cut
        { w with received := n, sent := w.sent ++ first, phases := ps }
        (j - first.length) hw (by rw [List.length_append, hroom, Option.some_inj]; omega) (by omega)
      refine ⟨n', ps', ?_⟩
      rw [List.append_assoc] at hsecond
      rw [List.take_append, List.take_of_length_le hge, ← hsecond]
      simp only [Bind.bind, EStateM.bind, hfirst, ending]

theorem bind_silent (hp : GoesBy p [] (.ok a)) (hf : GoesBy (f a) messages result) :
    GoesBy (p >>= f) messages result :=
  hp.bind hf

theorem bind_error (hp : GoesBy p messages (.error e)) :
    GoesBy (p >>= f) messages (.error e) where
  whole w hw hroom := by
    obtain ⟨n, ps, hfirst⟩ := hp.whole w hw hroom
    refine ⟨n, ps, ?_⟩
    simp only [Bind.bind, EStateM.bind, hfirst, ending]
  cut w j hw hroom hj := by
    obtain ⟨n, ps, hfirst⟩ := hp.cut w j hw hroom hj
    refine ⟨n, ps, ?_⟩
    simp only [Bind.bind, EStateM.bind, hfirst]

theorem run {session : Session ο SessionSummary} {result : Except SessionError SessionSummary}
    (h : GoesBy session messages result) : session.run .never none = ⟨messages, result⟩ := by
  obtain ⟨n, ps, hrun⟩ := h.whole (Wire.fresh .never none) rfl nofun
  rw [Session.run, EStateM.run, hrun]
  cases result <;> rfl

theorem unlessCancelled {p q : Session ο α} {result : Except SessionError α}
    (h : GoesBy q messages result) :
    GoesBy (do if ← Session.isCancelled then p else q) messages result :=
  isCancelled.bind_silent h

end GoesBy

/-- Left alone, the part of a session does the same on every wire. -/
def Steady (p : Session ο α) : Prop :=
  ∃ messages result, GoesBy p messages result

namespace Steady

theorem bind {p : Session ο α} {f : α → Session ο β} (hp : Steady p) (hf : ∀ a, Steady (f a)) :
    Steady (p >>= f) := by
  obtain ⟨first, result, hp⟩ := hp
  cases result with
  | error e => exact ⟨first, .error e, hp.bind_error⟩
  | ok a =>
      obtain ⟨second, result, hf⟩ := hf a
      exact ⟨first ++ second, result, hp.bind hf⟩

theorem pure (a : α) : Steady (Pure.pure a : Session ο α) :=
  ⟨_, _, .pure a⟩

theorem throw (e : SessionError) : Steady (MonadExcept.throw e : Session ο α) :=
  ⟨_, _, .throw e⟩

theorem ofExcept (r : Except SessionError α) : Steady (Session.ofExcept r : Session ο α) :=
  ⟨_, _, .ofExcept r⟩

theorem receive (item : Inbound ι) : Steady (Session.receive item : Session ο ι) :=
  ⟨_, _, .receive item⟩

theorem send (m : ο) : Steady (Session.send m) :=
  ⟨_, _, .send m⟩

theorem advance (next : Phase) : Steady (Session.advance next : Session ο Unit) :=
  ⟨_, _, .advance next⟩

theorem isCancelled : Steady (Session.isCancelled : Session ο Bool) :=
  ⟨_, _, .isCancelled⟩

theorem unlessCancelled {p q : Session ο α} (h : Steady q) :
    Steady (do if ← Session.isCancelled then p else q) := by
  obtain ⟨messages, result, h⟩ := h
  exact ⟨messages, result, h.unlessCancelled⟩

theorem open? (create? : ι → Option CreateRequest) (items : List (Inbound ι)) :
    Steady (Session.open? create? items : Session ο (CreateRequest × List (Inbound ι))) := by
  cases items with
  | nil => exact unlessCancelled (throw _)
  | cons item rest =>
      refine unlessCancelled ((receive item).bind fun m => ?_)
      cases create? m with
      | none => exact throw _
      | some request => exact pure _

theorem sendAll (ms : List ο) : Steady (Session.sendAll ms) := by
  induction ms with
  | nil => exact pure ()
  | cons m ms ih => exact unlessCancelled ((send m).bind fun _ => ih)

end Steady

end Session

open Session (Steady)

section Steady

variable {σ : Type} [Strategic σ] (provider : Provider σ)

theorem BatchedRun.steady_process (r : BatchedRun σ) (items : List (Inbound BatchInput)) :
    Steady (r.process items) := by
  induction items generalizing r with
  | nil => exact .pure r
  | cons item rest ih =>
      apply Steady.unlessCancelled
      refine (Steady.receive item).bind fun m => ?_
      exact (Steady.ofExcept _).bind ih

theorem BatchedRun.steady_finish (r : BatchedRun σ) (limits : ValidLimits) (name : String) :
    Steady (r.finish limits name) := by
  rw [finish_series]
  refine (Steady.sendAll _).bind fun _ => ?_
  refine (Steady.ofExcept _).bind fun _ => ?_
  refine (Steady.send _).bind fun _ => ?_
  refine (Steady.sendAll _).bind fun _ => ?_
  exact Steady.isCancelled.bind fun _ => .pure _

theorem steady_batchedSession (limits : ValidLimits) (items : List (Inbound BatchInput)) :
    Steady (batchedSession provider limits items) := by
  refine (Steady.open? _ items).bind fun (request, rest) => ?_
  refine (Steady.ofExcept _).bind fun strategy => ?_
  refine (Steady.advance _).bind fun _ => ?_
  refine (BatchedRun.steady_process _ rest).bind fun r => ?_
  refine (Steady.advance _).bind fun _ => ?_
  refine (r.steady_finish limits request.name).bind fun summary => ?_
  exact (Steady.advance _).bind fun _ => .pure _

theorem StreamingRun.steady_apply (r : StreamingRun σ) (m : StreamInput) : Steady (r.apply m) := by
  cases m with
  | create request => exact .throw _
  | preload c => exact .pure _
  | update c => exact (Steady.send _).bind fun _ => .pure _

theorem StreamingRun.steady_process (r : StreamingRun σ) (items : List (Inbound StreamInput)) :
    Steady (r.process items) := by
  induction items generalizing r with
  | nil => exact .pure r
  | cons item rest ih =>
      apply Steady.unlessCancelled
      refine (Steady.receive item).bind fun m => ?_
      exact (r.steady_apply m).bind ih

theorem steady_streamingSession (items : List (Inbound StreamInput)) :
    Steady (streamingSession provider items) := by
  refine (Steady.open? _ items).bind fun (request, rest) => ?_
  refine (Steady.ofExcept _).bind fun strategy => ?_
  refine (Steady.advance _).bind fun _ => ?_
  refine (StreamingRun.steady_process _ rest).bind fun r => ?_
  refine (Steady.advance _).bind fun _ => ?_
  refine (Steady.ofExcept _).bind fun _ => ?_
  refine (Steady.send _).bind fun _ => ?_
  refine (Steady.advance _).bind fun _ => ?_
  exact Steady.isCancelled.bind fun _ => .pure _

end Steady

/-- How many messages have been turned away when a session has ended. -/
def Session.refusals (session : Session ο SessionSummary) (c : Cancellation) (room : Option Nat) :
    Nat :=
  match EStateM.run session (Wire.fresh c room) with
  | .ok _ w => w.refused
  | .error _ w => w.refused

/-- What becomes of a session when the other side closes after a number of messages, by what it is
with a side that never closes. -/
structure Truncates (session : Session ο SessionSummary) (room : Nat) : Prop where
  /-- The messages that go out are the first ones. -/
  sent_eq : (session.run .never (some room)).sent = (session.run .never none).sent.take room
  /-- A session of more messages fails when the other side has closed. -/
  result_eq : (session.run .never (some room)).result =
    if (session.run .never none).sent.length ≤ room then (session.run .never none).result
    else .error (.transport .closed)
  /-- It does not try again. -/
  refusals_eq : session.refusals .never (some room) =
    if (session.run .never none).sent.length ≤ room then 0 else 1

theorem Session.Steady.truncates {session : Session ο SessionSummary} (h : Steady session)
    (room : Nat) : Truncates session room := by
  obtain ⟨messages, result, h⟩ := h
  rcases Nat.lt_or_ge room messages.length with hlt | hge
  · obtain ⟨n, ps, hcut⟩ := h.cut (Wire.fresh .never (some room)) room rfl
      (congrArg some (Nat.zero_add room).symm) hlt
    constructor
    · rw [h.run, Session.run, EStateM.run, hcut]
      rfl
    · rw [h.run, Session.run, EStateM.run, hcut, if_neg (Nat.not_le.2 hlt)]
    · rw [h.run, Session.refusals, EStateM.run, hcut, if_neg (Nat.not_le.2 hlt)]
      rfl
  · obtain ⟨n, ps, hwhole⟩ := h.whole (Wire.fresh .never (some room)) rfl fun k hk => by
      cases hk
      exact (Nat.zero_add _).trans_le hge
    constructor
    · rw [h.run, Session.run, EStateM.run, hwhole, List.take_of_length_le hge]
      cases result <;> rfl
    · rw [h.run, Session.run, EStateM.run, hwhole, if_pos hge]
      cases result <;> rfl
    · rw [h.run, Session.refusals, EStateM.run, hwhole, if_pos hge]
      cases result <;> rfl

/-- In both protocols, and for all items, a side that closes only cuts a session short. -/
theorem session_truncates {σ : Type} [Strategic σ] (provider : Provider σ) (limits : ValidLimits)
    (room : Nat) :
    (∀ items, Truncates (batchedSession provider limits items) room) ∧
      ∀ items, Truncates (streamingSession provider items) room := by
  constructor
  · intro items
    exact (steady_batchedSession provider limits items).truncates room
  · intro items
    exact (steady_streamingSession provider items).truncates room

end SignalEngine
