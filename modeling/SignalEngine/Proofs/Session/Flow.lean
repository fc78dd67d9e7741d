import Mathlib.Order.Nat
import SignalEngine.Session.Limits
import SignalEngine.Session.Wire

namespace SignalEngine

/-- The pieces make up the items in order: none is empty or longer than the size, and all but the
last are just as long. -/
structure IsChunking (size : Nat) (items : List α) (pieces : List (List α)) : Prop where
  flatten_eq : pieces.flatten = items
  ne_nil : ∀ p ∈ pieces, p ≠ []
  length_le : ∀ p ∈ pieces, p.length ≤ size
  length_eq : ∀ p ∈ pieces.dropLast, p.length = size

theorem chunks_cons (size : Nat) (a : α) (rest : List α) :
    chunks size (a :: rest) =
      (a :: rest.take (size - 1)) :: chunks size (rest.drop (size - 1)) := by
  rw [chunks]

theorem chunks_ne_nil {size : Nat} {items : List α} (h : items ≠ []) : chunks size items ≠ [] := by
  obtain ⟨a, rest, rfl⟩ := List.exists_cons_of_ne_nil h
  rw [chunks_cons]
  exact List.cons_ne_nil _ _

theorem flatten_chunks (size : Nat) (items : List α) : (chunks size items).flatten = items := by
  induction items using chunks.induct size with
  | case1 => rw [chunks, List.flatten_nil]
  | case2 a rest ih =>
      rw [chunks_cons, List.flatten_cons, ih, List.cons_append, List.take_append_drop]

theorem isChunking_chunks {size : Nat} (h : 0 < size) (items : List α) :
    IsChunking size items (chunks size items) := by
  induction items using chunks.induct size with
  | case1 =>
      rw [chunks]
      exact ⟨rfl, nofun, nofun, nofun⟩
  | case2 a rest ih =>
      rw [chunks_cons]
      refine ⟨?_, ?_, ?_, ?_⟩
      · rw [← chunks_cons, flatten_chunks]
      · exact List.forall_mem_cons.2 ⟨List.cons_ne_nil _ _, ih.ne_nil⟩
      · refine List.forall_mem_cons.2 ⟨?_, ih.length_le⟩
        rw [List.length_cons, List.length_take]
        omega
      · by_cases hrest : rest.drop (size - 1) = []
        · rw [hrest, chunks, List.dropLast_singleton]
          exact nofun
        · rw [List.dropLast_cons_of_ne_nil (chunks_ne_nil hrest)]
          refine List.forall_mem_cons.2 ⟨?_, ih.length_eq⟩
          have hlong : size - 1 < rest.length := by
            rw [List.drop_eq_nil_iff] at hrest
            omega
          rw [List.length_cons, List.length_take]
          omega

theorem SessionLimits.isValid_iff (l : SessionLimits) :
    l.isValid = true ↔ 0 < l.signalChunk ∧ 0 < l.debugChunk := by
  simp only [isValid, Bool.and_eq_true, decide_eq_true_eq]

theorem ValidLimits.atLeastOne_eq (l : ValidLimits) : l.toSessionLimits.atLeastOne = l := by
  obtain ⟨⟨signals, debug⟩, hvalid⟩ := l
  obtain ⟨hsignals, hdebug⟩ := (SessionLimits.isValid_iff _).1 hvalid
  simp only [SessionLimits.atLeastOne, ValidLimits.mk.injEq, SessionLimits.mk.injEq]
  exact ⟨Nat.max_eq_right hsignals, Nat.max_eq_right hdebug⟩

/-- A session is cancelled once so many messages have come in and gone out. -/
def Cancellation.inForce (c : Cancellation) (received sent : Nat) : Bool :=
  c.atStart ||
    (match c.afterReceived with
      | some k => k ≤ received
      | none => false) ||
    (match c.afterSent with
      | some k => 0 < k && k ≤ sent
      | none => false)

theorem Cancellation.inForce_never (received sent : Nat) :
    never.inForce received sent = false := rfl

theorem Cancellation.inForce_mono {c : Cancellation} {r r' s s' : Nat} (hr : r ≤ r') (hs : s ≤ s')
    (h : c.inForce r s = true) : c.inForce r' s' = true := by
  obtain ⟨atStart, afterReceived, afterSent⟩ := c
  simp only [inForce, Bool.or_eq_true] at h ⊢
  refine h.imp (Or.imp id fun h => ?_) fun h => ?_
  · cases afterReceived with
    | none => cases h
    | some k => exact decide_eq_true ((of_decide_eq_true h).trans hr)
  · cases afterSent with
    | none => cases h
    | some k =>
        simp only [Bool.and_eq_true, decide_eq_true_eq] at h ⊢
        exact ⟨h.1, h.2.trans hs⟩

theorem Wire.isCancelled_eq (w : Wire ο) :
    w.isCancelled = w.cancellation.inForce w.received w.sent.length := rfl

/-- The number of steps of a whole that are made when the cancellation is looked for before each of
them. -/
structure StopsAt (cancelled : Nat → Bool) (whole n : Nat) : Prop where
  le : n ≤ whole
  before : ∀ i < n, cancelled i = false
  after : n < whole → cancelled n = true

namespace StopsAt

theorem zero {cancelled : Nat → Bool} {whole : Nat} (h : cancelled 0 = true) :
    StopsAt cancelled whole 0 :=
  ⟨Nat.zero_le _, nofun, fun _ => h⟩

theorem succ {cancelled : Nat → Bool} {whole n : Nat} (h : cancelled 0 = false)
    (hn : StopsAt (fun i => cancelled (i + 1)) whole n) :
    StopsAt cancelled (whole + 1) (n + 1) where
  le := Nat.succ_le_succ hn.le
  before i hi := by
    cases i with
    | zero => exact h
    | succ i => exact hn.before i (by omega)
  after hlt := hn.after (by omega)

theorem congr {cancelled cancelled' : Nat → Bool} {whole n : Nat} (h : StopsAt cancelled whole n)
    (heq : ∀ i, cancelled i = cancelled' i) : StopsAt cancelled' whole n := by
  rwa [← funext heq]

theorem eq_whole {cancelled : Nat → Bool} {whole n : Nat} (h : StopsAt cancelled whole n)
    (hnever : ∀ i, cancelled i = false) : n = whole := by
  by_contra hne
  have hcancelled := h.after (lt_of_le_of_ne h.le hne)
  rw [hnever] at hcancelled
  cases hcancelled

end StopsAt

namespace Session

theorem send_eq {w : Wire ο} (hroom : w.room = none) (m : ο) :
    send m w = .ok () { w with sent := w.sent ++ [m] } := by
  rw [send, Wire.isOpen, hroom]
  rfl

/-- A list of messages goes out up to the first one before which the session is cancelled. -/
theorem sendAll_eq (ms : List ο) {w : Wire ο} (hroom : w.room = none) :
    ∃ n, StopsAt (fun i => w.cancellation.inForce w.received (w.sent.length + i)) ms.length n ∧
      sendAll ms w = .ok () { w with sent := w.sent ++ ms.take n } := by
  induction ms generalizing w with
  | nil => exact ⟨0, ⟨le_rfl, nofun, nofun⟩, by rw [sendAll, List.take_nil, List.append_nil]; rfl⟩
  | cons m ms ih =>
      cases hcancelled : w.isCancelled with
      | true =>
          refine ⟨0, .zero hcancelled, ?_⟩
          simp only [sendAll, bind, EStateM.bind, isCancelled, hcancelled, if_true, List.take_zero,
            List.append_nil]
          rfl
      | false =>
          have hsend := send_eq hroom m
          obtain ⟨n, hn, hrest⟩ := ih (w := { w with sent := w.sent ++ [m] }) hroom
          refine ⟨n + 1, .succ hcancelled (hn.congr fun i => ?_), ?_⟩
          · rw [List.length_append, List.length_singleton, Nat.add_assoc, Nat.add_comm 1 i]
          · simp only [sendAll, bind, EStateM.bind, isCancelled, hcancelled, Bool.false_eq_true,
              if_false, hsend, hrest, List.append_assoc, List.singleton_append, List.take_succ_cons]

end Session

section Open

variable {σ : Type} [Strategic σ] {provider : Provider σ} {r : CreateRequest}

theorem openStrategy_unmade {e : StrategyError} (h : provider.create r.name r.config = .error e) :
    openStrategy provider r = .error (.ofStrategy e) := by
  rw [openStrategy, h]
  rfl

theorem openStrategy_made {s : σ} (h : provider.create r.name r.config = .ok s) :
    openStrategy provider r =
      match r.resumeState? with
      | none => .ok s
      | some text =>
          match (Strategic.restore s text).error with
          | none => .ok (Strategic.restore s text).state
          | some e => .error (.restore e) := by
  rw [openStrategy, h]
  rfl

end Open

/-- The items of a session: the request that opens it, and messages. -/
def opening (create : CreateRequest → ι) (request : CreateRequest) (inputs : List ι) :
    List (Inbound ι) :=
  .message (create request) :: inputs.map .message

namespace Session

variable (create? : ι → Option CreateRequest) (create : CreateRequest → ι) (request : CreateRequest)
  (inputs : List ι) {c : Cancellation}

theorem open?_cancelled (hc : c.inForce 0 0 = true) :
    open? create? (opening create request inputs) (Wire.fresh (ο := ο) c none) =
      .error .cancelled (Wire.fresh c none) := by
  have hcancelled : (Wire.fresh (ο := ο) c none).isCancelled = true := hc
  simp only [opening, open?, bind, EStateM.bind, isCancelled, hcancelled, if_true]
  rfl

theorem open?_opening (hcreate : ∀ r, create? (create r) = some r) (hc : c.inForce 0 0 = false) :
    open? create? (opening create request inputs) (Wire.fresh (ο := ο) c none) =
      .ok (request, inputs.map .message) { Wire.fresh c none with received := 1 } := by
  have hcancelled : (Wire.fresh (ο := ο) c none).isCancelled = false := hc
  simp only [opening, open?, bind, EStateM.bind, isCancelled, hcancelled, Bool.false_eq_true,
    if_false, receive, hcreate]
  rfl

end Session

end SignalEngine
