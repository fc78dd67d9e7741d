import Mathlib.Data.List.Induction
import SignalEngine.Indicator.Sma
import SignalEngine.Proofs.Number.Exact
import SignalEngine.Proofs.Window.Rolling

/-!
The running sum of a simple moving average. The sum is carried on from candle to candle: a close that
leaves the window is taken out of it again, but not what rounding has made of it. So the sum is that of
the window and of all rounding errors since the first candle, and two histories that end in the same
window end in the same sum just when their rounding errors come to the same.
-/

namespace SignalEngine.Sma

open Number (amount Whole)

/-- The number that the next close evicts: the oldest one of the window. -/
def evicted (s : Sma) : Float :=
  s.closes.get s.age

structure Remembers (s : Sma) (period : Nat) (candles : List Candle) : Prop where
  span : s.period = period
  age : s.age = candles.length
  closes : s.closes.Rolls period (candles.map Candle.close)
  ready : s.ready = decide (period ≤ candles.length)

namespace Remembers

variable {s : Sma} {period : Nat} {candles : List Candle}

theorem fresh (hpos : 0 < period) : (Sma.fresh period).Remembers period [] where
  span := rfl
  age := rfl
  closes := .blank period
  ready := (decide_eq_false (Nat.not_le.2 hpos)).symm

theorem update (h : s.Remembers period candles) (hpos : 0 < period) (c : Candle) :
    (s.update c).Remembers period (candles ++ [c]) where
  span := h.span
  age := by
    rw [List.length_append, List.length_singleton, ← h.age]
    rfl
  closes := h.closes.set_map hpos h.age c
  ready := by
    rw [Sma.update, h.span, h.age, h.ready, List.length_append, List.length_singleton,
      ← Bool.decide_or]
    apply decide_eq_decide.2
    omega

theorem rolling_eq_cons (h : s.Remembers period candles) (hpos : 0 < period) :
    rolling period (candles.map Candle.close) =
      s.evicted :: (rolling period (candles.map Candle.close)).tail := by
  have hcons := h.closes.eq_cons hpos
  rwa [List.length_map, ← h.age] at hcons

theorem evicted_mem_rolling (h : s.Remembers period candles) (hpos : 0 < period) :
    s.evicted ∈ rolling period (candles.map Candle.close) := by
  rw [h.rolling_eq_cons hpos]
  exact List.mem_cons_self

end Remembers

theorem remembers_foldl {period : Nat} (hpos : 0 < period) (candles : List Candle) :
    (candles.foldl update (fresh period)).Remembers period candles := by
  apply foldl_history (Remembers · period ·) (.fresh hpos)
  intro s candles hs c
  exact hs.update hpos c

theorem ready_foldl {period : Nat} (hpos : 0 < period) (candles : List Candle) :
    (candles.foldl update (fresh period)).ready = true ↔ period ≤ candles.length := by
  rw [(remembers_foldl hpos candles).ready, decide_eq_true_iff]

theorem Remembers.evicted_of_lt {s : Sma} {period : Nat} {candles : List Candle}
    (h : s.Remembers period candles) (hlt : candles.length < period) : s.evicted = 0.0 := by
  have hrolling := h.rolling_eq_cons (Nat.zero_lt_of_lt hlt)
  obtain ⟨room, hroom⟩ := Nat.exists_eq_add_one_of_ne_zero (Nat.sub_ne_zero_of_lt hlt)
  rw [rolling_of_ge (by rw [List.length_map]; exact hlt.le), List.length_map, hroom,
    List.replicate_succ, List.cons_append] at hrolling
  exact (List.cons.inj hrolling).1.symm

theorem sum_foldl_of_le {period : Nat} (hpos : 0 < period) {candles : List Candle}
    (h : candles.length ≤ period) :
    (candles.foldl update (fresh period)).sum =
      (candles.map Candle.close).foldl (· + ·) 0.0 := by
  induction candles using List.reverseRecOn with
  | nil => rfl
  | append_singleton candles c ih =>
      rw [List.length_append, List.length_singleton] at h
      have hevicted := (remembers_foldl hpos candles).evicted_of_lt h
      rw [List.foldl_append, List.map_append, List.foldl_append, ← ih (Nat.le_of_succ_le h)]
      generalize candles.foldl update (fresh period) = s at hevicted ⊢
      change s.sum + (c.close - s.evicted) = s.sum + c.close
      rw [hevicted, Number.sub_positive_zero]

/-- What rounding adds to the running sum with a close: the error of the difference of the new close
and the evicted one, and the error of adding it. -/
def roundingError (s : Sma) (c : Candle) : ℚ :=
  let change := c.close - s.evicted
  (amount change - (amount c.close - amount s.evicted)) +
    (amount (s.sum + change) - (amount s.sum + amount change))

/-- What rounding has added to the running sum over some candles. -/
def residue (s : Sma) : List Candle → ℚ
  | [] => 0
  | c :: rest => s.roundingError c + (s.update c).residue rest

theorem residue_concat (s : Sma) (candles : List Candle) (c : Candle) :
    s.residue (candles ++ [c]) =
      s.residue candles + (candles.foldl update s).roundingError c := by
  induction candles generalizing s with
  | nil => rw [List.nil_append, residue, residue, residue, add_comm]; rfl
  | cons x rest ih => rw [List.cons_append, residue, ih, residue, add_assoc, List.foldl_cons]

theorem amount_sum_update (s : Sma) (c : Candle) :
    amount (s.update c).sum = amount s.sum + amount c.close - amount s.evicted + s.roundingError c := by
  rw [roundingError, update, Window.replace, ← evicted]
  dsimp only
  ring

/-- The exact sum of the window. -/
def windowSum (period : Nat) (candles : List Candle) : ℚ :=
  ((rolling period (candles.map Candle.close)).map amount).sum

theorem windowSum_concat {period : Nat} (hpos : 0 < period) (candles : List Candle) (c : Candle) :
    windowSum period (candles ++ [c]) = windowSum period candles + amount c.close -
      amount (candles.foldl update (fresh period)).evicted := by
  have hrolling := (remembers_foldl hpos candles).rolling_eq_cons hpos
  rw [windowSum, windowSum, List.map_append, List.map_singleton, rolling_concat hpos, hrolling]
  simp only [List.tail_cons, List.map_append, List.map_cons, List.map_nil, List.sum_append,
    List.sum_cons, List.sum_nil]
  ring

/-- The running sum is the sum of the window and of all rounding errors. -/
theorem amount_sum_foldl {period : Nat} (hpos : 0 < period) (candles : List Candle) :
    amount (candles.foldl update (fresh period)).sum =
      windowSum period candles + (fresh period).residue candles := by
  induction candles using List.reverseRecOn with
  | nil =>
      rw [windowSum, List.map_nil, rolling_nil, List.map_replicate, Number.amount_zero,
        List.sum_replicate, smul_zero, residue, add_zero]
      exact Number.amount_zero
  -- what is evicted leaves the window and the sum alike, so that only the error is new
  | append_singleton candles c ih =>
      rw [List.foldl_append, List.foldl_cons, List.foldl_nil, amount_sum_update, ih, residue_concat,
        windowSum_concat hpos]
      ring

theorem sum_ne_neg_zero (period : Nat) (candles : List Candle) :
    (candles.foldl update (fresh period)).sum ≠ -0.0 := by
  induction candles using List.reverseRecOn with
  | nil => exact (by decide : (0.0 : Float) ≠ -0.0)
  | append_singleton candles c ih =>
      rw [List.foldl_append]
      exact Number.add_ne_neg_zero ih _

theorem value_foldl {period : Nat} (hpos : 0 < period) {candles : List Candle} (h : candles ≠ []) :
    (candles.foldl update (fresh period)).value =
      (candles.foldl update (fresh period)).sum / Float.ofNat period := by
  obtain ⟨before, c, rfl⟩ := (List.eq_nil_or_concat candles).resolve_left h
  have hspan := (remembers_foldl hpos before).span
  rw [List.concat_eq_append, List.foldl_append]
  exact congrArg (_ / Float.ofNat ·) hspan

section Units

variable {period : Nat} {unit : Int} {bound : Nat} (hpos : 0 < period)
  (hbound : max 2 period * bound ≤ 2 ^ 53) (hlow : -1074 ≤ unit) (hhigh : unit ≤ 970)

include hpos hbound hlow hhigh

/-- Closes of whole units are never rounded, as long as a window has not too many of them. -/
theorem residue_eq_zero {candles : List Candle} (h : ∀ c ∈ candles, Whole unit bound c.close) :
    (candles.foldl update (fresh period)).sum.isFinite = true ∧
      (fresh period).residue candles = 0 := by
  have hchanges : 2 * bound ≤ 2 ^ 53 := (Nat.mul_le_mul_right _ (le_max_left _ _)).trans hbound
  have hwindows : period * bound ≤ 2 ^ 53 :=
    (Nat.mul_le_mul_right _ (le_max_right _ _)).trans hbound
  have hwhole {candles : List Candle} (h : ∀ c ∈ candles, Whole unit bound c.close) :
      ∀ x ∈ rolling period (candles.map Candle.close), Whole unit bound x := by
    intro x hx
    rcases mem_rolling hx with rfl | hx
    · exact .zero unit bound
    · obtain ⟨c, hc, rfl⟩ := List.mem_map.1 hx
      exact h c hc
  induction candles using List.reverseRecOn with
  | nil => exact ⟨(by decide : (0.0 : Float).isFinite = true), rfl⟩
  | append_singleton candles c ih =>
      obtain ⟨hcandles, hc⟩ := List.forall_mem_append.1 h
      rw [List.forall_mem_singleton] at hc
      obtain ⟨hfinite, hresidue⟩ := ih hcandles
      have hsum := amount_sum_foldl hpos candles
      have hconcat := windowSum_concat hpos candles c
      have hmem := (remembers_foldl hpos candles).evicted_mem_rolling hpos
      rw [hresidue, add_zero] at hsum
      rw [List.foldl_append, List.foldl_cons, List.foldl_nil, residue_concat, hresidue, zero_add]
      generalize candles.foldl update (fresh period) = s at hfinite hsum hconcat hmem ⊢
      obtain ⟨hchange, hexact⟩ := hc.amount_sub (hwhole hcandles _ hmem) hchanges hlow hhigh
      -- the new sum is that of the new window, and a window has few units
      obtain ⟨k, hk, hunits⟩ := Whole.exists_sum_eq (hwhole h)
      have hnew : amount s.sum + amount (c.close - s.evicted) = k * 2 ^ unit := by
        rw [hexact, hsum, ← hunits, ← windowSum, hconcat]
        ring
      rw [length_rolling] at hk
      obtain ⟨hfinite', hexact'⟩ :=
        Number.amount_add (hk.trans hwindows) hlow hhigh hfinite hchange hnew
      refine ⟨hfinite', ?_⟩
      rw [roundingError, hexact', hexact, sub_self, sub_self, add_zero]

end Units

section Append

variable {period : Nat} (hpos : 0 < period) {window : List Candle} (hwindow : window.length = period)

include hpos hwindow

theorem amount_sum_append (history : List Candle) :
    amount ((history ++ window).foldl update (fresh period)).sum =
      (window.map fun c => amount c.close).sum + (fresh period).residue (history ++ window) := by
  rw [amount_sum_foldl hpos, windowSum, List.map_append,
    rolling_append _ ((List.length_map _).trans hwindow), List.map_map]
  rfl

theorem value_append (history : List Candle) :
    ((history ++ window).foldl update (fresh period)).value =
      ((history ++ window).foldl update (fresh period)).sum / Float.ofNat period := by
  apply value_foldl hpos
  apply List.append_ne_nil_of_right_ne_nil
  rw [← List.length_pos_iff, hwindow]
  exact hpos

end Append

/-- Of two histories that end in the same window, and whose running sums have not overflowed, so that
all numbers on the way have been finite: each sum is that of the window and of all rounding errors since
the first candle. So the sums are the same just when these errors come to the same, and then the
averages are. Nothing is rounded at all as long as the closes are whole units and a window holds few
enough of them. -/
theorem sum_eq_iff_residue_eq {period : Nat} (hpos : 0 < period)
    (first second window : List Candle) (hwindow : window.length = period) :
    let s := (first ++ window).foldl update (fresh period)
    let t := (second ++ window).foldl update (fresh period)
    let added := fun history : List Candle => (fresh period).residue (history ++ window)
    (s.sum.isFinite = true → t.sum.isFinite = true →
      amount s.sum = (window.map fun c => amount c.close).sum + added first ∧
      amount t.sum = (window.map fun c => amount c.close).sum + added second ∧
      (s.sum = t.sum ↔ added first = added second) ∧
      (added first = added second → s.value = t.value)) ∧
    ∀ unit bound, -1074 ≤ unit → unit ≤ 970 → max 2 period * bound ≤ 2 ^ 53 →
      (∀ c ∈ first ++ second ++ window, Whole unit bound c.close) →
      added first = 0 ∧ added second = 0 ∧ s.value = t.value := by
  intro s t added
  have hsum := amount_sum_append hpos hwindow
  have hvalue (hst : s.sum = t.sum) : s.value = t.value := by
    rw [value_append hpos hwindow, value_append hpos hwindow]
    exact congrArg (· / Float.ofNat period) hst
  have hsame (hs : s.sum.isFinite = true) (ht : t.sum.isFinite = true)
      (hadded : added first = added second) : s.sum = t.sum := by
    apply Number.eq_of_amount_eq hs ht (sum_ne_neg_zero _ _) (sum_ne_neg_zero _ _)
    rw [hsum, hsum]
    exact congrArg _ hadded
  refine ⟨fun hs ht => ⟨hsum first, hsum second, ⟨fun hst => ?_, hsame hs ht⟩, fun hadded => ?_⟩, ?_⟩
  · have hamounts : amount s.sum = amount t.sum := congrArg amount hst
    rw [hsum, hsum] at hamounts
    exact add_left_cancel hamounts
  · exact hvalue (hsame hs ht hadded)
  · intro unit bound hlow hhigh hbound hwhole
    rw [List.forall_mem_append, List.forall_mem_append] at hwhole
    obtain ⟨⟨hfirst, hsecond⟩, hlast⟩ := hwhole
    obtain ⟨hs, hzero⟩ := residue_eq_zero hpos hbound hlow hhigh
      (List.forall_mem_append.2 ⟨hfirst, hlast⟩)
    obtain ⟨ht, hzero'⟩ := residue_eq_zero hpos hbound hlow hhigh
      (List.forall_mem_append.2 ⟨hsecond, hlast⟩)
    exact ⟨hzero, hzero', hvalue (hsame hs ht (hzero.trans hzero'.symm))⟩

/-- After prices in quarters nothing is left of what came before the window. -/
theorem sum_eq_iff_residue_eq_quarters :
    let first : List Candle := [.ofClose 100.25, .ofClose 99.5, .ofClose 101.75]
    let window : List Candle := [.ofClose 100.5, .ofClose 102.25]
    (∀ c ∈ first ++ [] ++ window, Whole (-2) 1000 c.close) ∧
      ((first ++ window).foldl update (fresh 2)).value = (window.foldl update (fresh 2)).value := by
  intro first window
  have hwhole : ∀ c ∈ first ++ [] ++ window, Whole (-2) 1000 c.close := by
    simp only [first, window, List.append_nil, List.cons_append, List.nil_append,
      List.forall_mem_cons, Candle.close_ofClose]
    exact ⟨⟨by decide, 401, by decide, by decide +kernel⟩,
      ⟨by decide, 398, by decide, by decide +kernel⟩, ⟨by decide, 407, by decide, by decide +kernel⟩,
      ⟨by decide, 402, by decide, by decide +kernel⟩, ⟨by decide, 409, by decide, by decide +kernel⟩,
      List.forall_mem_nil _⟩
  have htold := sum_eq_iff_residue_eq (by decide) first [] window rfl
  exact ⟨hwhole, (htold.2 (-2) 1000 (by decide) (by decide) (by decide) hwhole).2.2⟩

/-- A large close that has left the window takes the small ones along, and a sum that has overflowed
stays where it is. -/
theorem residue_remains :
    let window : List Candle := [.ofClose 1.0, .ofClose 1.0]
    let after := fun history : List Candle => (history ++ window).foldl update (fresh 2)
    (∀ c ∈ [Candle.ofClose 1e16, .ofClose 1.7e308] ++ window, c.close.isFinite = true) ∧
      (after []).value = 1.0 ∧ (after [.ofClose 1e16]).value = 0.0 ∧
      (after [.ofClose 1.7e308, .ofClose 1.7e308]).value = Number.infinity := by
  decide +kernel

end SignalEngine.Sma
