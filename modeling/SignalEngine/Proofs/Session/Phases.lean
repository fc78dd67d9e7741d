import Mathlib.Data.List.Chain
import SignalEngine.Proofs.Session.Invariant

namespace SignalEngine

namespace Session

/-- The part of a session goes through these phases. When it fails, it has not come to the last. -/
def Passes (phases : List Phase) (p : Session ο α) : Prop :=
  ∀ w : Wire ο,
    match p w with
    | .ok _ w' => w'.phases = phases.reverse ++ w.phases
    | .error _ w' => ∃ n < phases.length, w'.phases = (phases.take n).reverse ++ w.phases

namespace Passes

variable {p : Session ο α} {phases : List Phase}

theorem pure (a : α) : Passes [] (Pure.pure a : Session ο α) :=
  fun _ => rfl

theorem isCancelled {f : Bool → Session ο α} (hf : ∀ cancelled, Passes phases (f cancelled)) :
    Passes phases (Session.isCancelled >>= f) :=
  fun w => hf w.isCancelled w

theorem bind {Q : α → Prop} {f : α → Session ο β} {next : Phase}
    (hp : ∀ phases, Keeps (.inPhases phases) Q p) (hf : ∀ a, Passes (next :: phases) (f a)) :
    Passes (next :: phases) (p >>= f) := by
  intro w
  have hfirst := hp w.phases w rfl
  simp only [Bind.bind, EStateM.bind]
  cases hend : p w with
  | ok a w' =>
      rw [hend] at hfirst
      have hphases : w'.phases = w.phases := hfirst.1
      have hrest := hf a w'
      rwa [hphases] at hrest
  | error e w' =>
      rw [hend] at hfirst
      exact ⟨0, Nat.succ_pos _, hfirst⟩

theorem advance {f : Unit → Session ο α} (next : Phase) (hf : Passes phases (f ())) :
    Passes (next :: phases) (Session.advance next >>= f) := by
  intro w
  have hrest := hf { w with phases := next :: w.phases }
  simp only [Bind.bind, EStateM.bind, Session.advance]
  cases hend : f () { w with phases := next :: w.phases } with
  | ok a w' =>
      rw [hend] at hrest
      dsimp only at hrest ⊢
      rw [hrest, List.reverse_cons, List.append_assoc, List.singleton_append]
  | error e w' =>
      rw [hend] at hrest
      obtain ⟨n, hn, hrest⟩ := hrest
      refine ⟨n + 1, Nat.succ_lt_succ hn, ?_⟩
      rw [hrest, List.take_succ_cons, List.reverse_cons, List.append_assoc, List.singleton_append]

end Passes

/-- The phases that a session has been in when it ends, the first one first. -/
def phases (session : Session ο SessionSummary) (c : Cancellation) (room : Option Nat) :
    List Phase :=
  match EStateM.run session (Wire.fresh c room) with
  | .ok _ w => w.phases.reverse
  | .error _ w => w.phases.reverse

end Session

/-- Each phase of a session may follow the one before, none is left out, and the session has been
through all of them just when it ends well. -/
structure Advances (session : Session ο SessionSummary) (c : Cancellation) (room : Option Nat) :
    Prop where
  allowed : (session.phases c room).IsChain fun phase next => phase.canAdvanceTo next = true
  in_order : session.phases c room <+: Phase.all
  closed_iff : session.phases c room = Phase.all ↔
    ∃ summary, (session.run c room).result = .ok summary

theorem Phase.all_allowed : all.IsChain fun phase next => phase.canAdvanceTo next = true := by
  decide

open Session (Keeps Passes)

theorem Session.Passes.run_cases {session : Session ο SessionSummary}
    (h : Passes [.processing, .finalizing, .closed] session) (c : Cancellation)
    (room : Option Nat) :
    (∃ summary, (session.run c room).result = .ok summary ∧
      session.phases c room = Phase.all) ∨
    ∃ e, ∃ n < 3, (session.run c room).result = .error e ∧
      session.phases c room = Phase.all.take (n + 1) := by
  have hfresh := h (Wire.fresh c room)
  simp only [Session.phases, Session.run, EStateM.run]
  cases hend : session (Wire.fresh c room) with
  | ok summary w =>
      rw [hend] at hfresh
      exact .inl ⟨summary, rfl, congrArg List.reverse hfresh⟩
  | error e w =>
      rw [hend] at hfresh
      obtain ⟨n, hn, hphases⟩ := hfresh
      refine .inr ⟨e, n, hn, rfl, ?_⟩
      dsimp only
      rw [hphases, List.reverse_append, List.reverse_reverse]
      rfl

theorem Session.Passes.advances {session : Session ο SessionSummary}
    (h : Passes [.processing, .finalizing, .closed] session) (c : Cancellation)
    (room : Option Nat) : Advances session c room := by
  rcases h.run_cases c room with ⟨summary, hresult, hphases⟩ | ⟨e, n, hn, hresult, hphases⟩
  · refine ⟨?_, ?_, ?_⟩ <;> rw [hphases]
    · exact Phase.all_allowed
    · exact iff_of_true rfl ⟨summary, hresult⟩
  · have horder := List.take_prefix (n + 1) Phase.all
    have hallowed := List.IsChain.prefix Phase.all_allowed horder
    have hshort : Phase.all.take (n + 1) ≠ Phase.all := by
      intro hall
      have hlength := congrArg List.length hall
      have hfour : Phase.all.length = 4 := rfl
      rw [List.length_take] at hlength
      omega
    refine ⟨?_, ?_, ?_⟩ <;> rw [hphases]
    · exact hallowed
    · exact horder
    · refine iff_of_false hshort ?_
      rintro ⟨summary, hok⟩
      cases hresult.symm.trans hok

section Run

variable {σ : Type} [Strategic σ] (provider : Provider σ)

theorem passes_batchedSession (limits : ValidLimits) (items : List (Inbound BatchInput)) :
    Passes [.processing, .finalizing, .closed] (batchedSession provider limits items) := by
  refine .bind (fun _ => .open? _ items) fun (request, rest) => ?_
  refine .bind (fun _ => .ofExcept _) fun strategy => .advance _ ?_
  refine .bind (fun _ => BatchedRun.keeps_process (fun _ _ _ _ _ _ => trivial) trivial) fun r => ?_
  refine .advance _ (.bind (fun _ => r.keeps_finish limits _ ?_ ?_ ?_) fun summary => ?_)
  · exact fun _ _ => trivial
  · exact fun _ => trivial
  · exact fun _ _ => trivial
  · exact .advance _ (.pure summary)

theorem StreamingRun.keeps_phases (phases : List Phase) (r : StreamingRun σ) (m : StreamInput) :
    Keeps (.inPhases phases) (fun _ => True) (r.apply m) := by
  cases m with
  | create request => exact .throw _
  | preload c => exact .pure trivial
  | update c => exact .bind (.send trivial) fun _ _ => .pure trivial

theorem passes_streamingSession (items : List (Inbound StreamInput)) :
    Passes [.processing, .finalizing, .closed] (streamingSession provider items) := by
  refine .bind (fun _ => .open? _ items) fun (request, rest) => ?_
  refine .bind (fun _ => .ofExcept _) fun strategy => .advance _ ?_
  refine .bind (fun phases => StreamingRun.keeps_process
    (fun r m _ => r.keeps_phases phases m) trivial rest) fun r => .advance _ ?_
  refine .bind (fun _ => .ofExcept _) fun text => .bind (fun _ => .send trivial) fun _ => ?_
  exact .advance _ (.isCancelled fun _ => .pure _)

/-- Sessions of both protocols go through their phases in order, whatever comes in, whenever they are
cancelled, and whenever the other side closes. -/
theorem session_advances (limits : ValidLimits) (c : Cancellation) (room : Option Nat) :
    (∀ items, Advances (batchedSession provider limits items) c room) ∧
      ∀ items, Advances (streamingSession provider items) c room :=
  ⟨fun items => (passes_batchedSession provider limits items).advances c room,
    fun items => (passes_streamingSession provider items).advances c room⟩

end Run

end SignalEngine
