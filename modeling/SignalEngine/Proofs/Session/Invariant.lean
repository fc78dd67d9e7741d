import SignalEngine.Proofs.Session.Batched
import SignalEngine.Session.Streaming

namespace SignalEngine

namespace Session

/-- A property of the ends of a session that stays so when something comes in or is turned away, and
when one of certain messages goes out. -/
structure Invariant (ο : Type) where
  Holds : Wire ο → Prop
  Allows : ο → Prop
  receive {w : Wire ο} (n : Nat) : Holds w → Holds { w with received := n }
  refuse {w : Wire ο} (n : Nat) : Holds w → Holds { w with refused := n }
  send {w : Wire ο} {m : ο} : Holds w → Allows m → Holds { w with sent := w.sent ++ [m] }

namespace Invariant

/-- Every message that has gone out has the property. -/
def allSent (P : ο → Prop) : Invariant ο where
  Holds w := ∀ m ∈ w.sent, P m
  Allows := P
  receive _ h := h
  refuse _ h := h
  send h hm := List.forall_mem_append.2 ⟨h, List.forall_mem_singleton.2 hm⟩

/-- The session has been in these phases. -/
def inPhases (phases : List Phase) : Invariant ο where
  Holds w := w.phases = phases
  Allows _ := True
  receive _ h := h
  refuse _ h := h
  send h _ := h

end Invariant

/-- The part of a session leaves the invariant as it is, and what it ends well with has the property. -/
def Keeps (I : Invariant ο) (Q : α → Prop) (p : Session ο α) : Prop :=
  ∀ w : Wire ο, I.Holds w →
    match p w with
    | .ok a w' => I.Holds w' ∧ Q a
    | .error _ w' => I.Holds w'

namespace Keeps

variable {I : Invariant ο} {Q : α → Prop} {R : β → Prop} {p : Session ο α} {f : α → Session ο β}

theorem pure {a : α} (h : Q a) : Keeps I Q (Pure.pure a : Session ο α) :=
  fun _ hw => ⟨hw, h⟩

theorem throw (e : SessionError) : Keeps I Q (MonadExcept.throw e : Session ο α) :=
  fun _ hw => hw

theorem bind (hp : Keeps I Q p) (hf : ∀ a, Q a → Keeps I R (f a)) : Keeps I R (p >>= f) := by
  intro w hw
  have hfirst := hp w hw
  simp only [Bind.bind, EStateM.bind]
  cases hend : p w with
  | ok a w' =>
      rw [hend] at hfirst
      exact hf a hfirst.2 w' hfirst.1
  | error e w' =>
      rw [hend] at hfirst
      exact hfirst

theorem ofExcept (r : Except SessionError α) :
    Keeps I (fun a => r = .ok a) (Session.ofExcept r : Session ο α) := by
  cases r with
  | ok a => exact .pure rfl
  | error e => exact .throw e

theorem isCancelled : Keeps I (fun _ => True) (Session.isCancelled : Session ο Bool) :=
  fun _ hw => ⟨hw, trivial⟩

theorem unlessCancelled {p q : Session ο α} (hp : Keeps I Q p) (hq : Keeps I Q q) :
    Keeps I Q (do if ← Session.isCancelled then p else q) := by
  refine bind isCancelled fun cancelled _ => ?_
  cases cancelled with
  | true => exact hp
  | false => exact hq

theorem receive (item : Inbound ι) :
    Keeps I (fun m => item = .message m) (Session.receive item : Session ο ι) := by
  intro w hw
  have hreceived := I.receive (w.received + 1) hw
  cases item with
  | message m => exact ⟨hreceived, rfl⟩
  | undecodable fault => exact hreceived
  | broken text => exact hreceived

theorem send {m : ο} (h : I.Allows m) : Keeps I (fun _ => True) (Session.send m) := by
  intro w hw
  cases hopen : w.isOpen with
  | true =>
      simp only [Session.send, hopen, if_true]
      exact ⟨I.send hw h, trivial⟩
  | false =>
      simp only [Session.send, hopen, Bool.false_eq_true, if_false]
      exact I.refuse _ hw

theorem sendAll {ms : List ο} (h : ∀ m ∈ ms, I.Allows m) :
    Keeps I (fun _ => True) (Session.sendAll ms) := by
  induction ms with
  | nil => exact .pure trivial
  | cons m ms ih =>
      obtain ⟨hm, hms⟩ := List.forall_mem_cons.1 h
      exact unlessCancelled (.pure trivial) (bind (.send hm) fun _ _ => ih hms)

/-- The items that are left behind the request are some of all. -/
theorem open? (create? : ι → Option CreateRequest) (items : List (Inbound ι)) :
    Keeps I (fun (_, rest) => rest ⊆ items)
      (Session.open? create? items : Session ο (CreateRequest × List (Inbound ι))) := by
  cases items with
  | nil => exact unlessCancelled (.throw _) (.throw _)
  | cons item rest =>
      refine unlessCancelled (.throw _) (bind (.receive item) fun m _ => ?_)
      split
      · exact .pure (List.subset_cons_self item rest)
      · exact .throw _

theorem advance_allSent {P : ο → Prop} (next : Phase) :
    Keeps (.allSent P) (fun _ => True) (Session.advance next : Session ο Unit) :=
  fun _ hw => ⟨hw, trivial⟩

theorem run {P : ο → Prop} {session : Session ο SessionSummary} {Q : SessionSummary → Prop}
    (h : Keeps (.allSent P) Q session) (cancellation : Cancellation) (room : Option Nat) :
    ∀ m ∈ (session.run cancellation room).sent, P m := by
  have hfresh := h (Wire.fresh cancellation room) (List.forall_mem_nil _)
  simp only [Session.run, EStateM.run]
  cases hend : session (Wire.fresh cancellation room) with
  | ok summary w =>
      rw [hend] at hfresh
      exact hfresh.1
  | error e w =>
      rw [hend] at hfresh
      exact hfresh

end Keeps

end Session

open Session (Keeps)

section Parts

variable {σ : Type} [Strategic σ]

namespace BatchedRun

variable {I : Session.Invariant BatchOutput}

/-- What each message leaves so of a run stays so while messages are taken in, and nothing is sent. -/
theorem keeps_process {R : BatchedRun σ → Prop} {items : List (Inbound BatchInput)}
    (happly : ∀ r m r', R r → .message m ∈ items → r.apply m = .ok r' → R r') {r : BatchedRun σ}
    (h : R r) : Keeps I R (r.process items) := by
  induction items generalizing r with
  | nil => exact .pure h
  | cons item items ih =>
      refine .unlessCancelled (.pure h) (.bind (.receive item) ?_)
      rintro m rfl
      refine .bind (.ofExcept _) fun r' hr' => ih ?_ (happly r m r' h List.mem_cons_self hr')
      exact fun r m r' hr hm => happly r m r' hr (List.mem_cons_of_mem _ hm)

theorem keeps_finish (r : BatchedRun σ) (limits : ValidLimits) (name : String)
    (hsignals : ∀ piece ∈ chunks limits.signalChunk r.records.toList, I.Allows (.signals piece))
    (hstate : ∀ text, I.Allows (.state text))
    (hdebug : ∀ piece ∈ chunks limits.debugChunk r.series, I.Allows (.debug piece)) :
    Keeps I (fun _ => True) (r.finish limits name) := by
  rw [finish_series]
  refine .bind (.sendAll (List.forall_mem_map.2 hsignals)) fun _ _ => ?_
  refine .bind (.ofExcept _) fun text _ => .bind (.send (hstate text)) fun _ _ => ?_
  refine .bind (.sendAll (List.forall_mem_map.2 hdebug)) fun _ _ => ?_
  exact .bind .isCancelled fun _ _ => .pure trivial

end BatchedRun

namespace StreamingRun

variable {I : Session.Invariant StreamOutput}

theorem keeps_process {R : StreamingRun σ → Prop} (happly : ∀ r m, R r → Keeps I R (r.apply m))
    {r : StreamingRun σ} (h : R r) (items : List (Inbound StreamInput)) :
    Keeps I R (r.process items) := by
  induction items generalizing r with
  | nil => exact .pure h
  | cons item items ih =>
      refine .unlessCancelled (.pure h) (.bind (.receive item) fun m _ => ?_)
      exact .bind (happly r m h) fun r' hr' => ih hr'

end StreamingRun

end Parts

end SignalEngine
