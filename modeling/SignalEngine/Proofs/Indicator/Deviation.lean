import SignalEngine.Indicator.Cci
import SignalEngine.Proofs.Number.Sizeless
import SignalEngine.Proofs.Window.Rolling
import SignalEngine.Proofs.Window.Slots

/-!
The commodity channel index, told by the typical prices. Nothing is computed before the ring has
gone round once, so no slot that is added up still has the zero that it began with. The slots are
added up in their own order, which begins with the price whose place is a multiple of the period.
-/

namespace SignalEngine.Cci

/-- The mean of some numbers, added up in their order. -/
def mean (xs : List Float) : Float :=
  Number.sum xs / Float.ofNat xs.length

/-- How far each of some numbers is from a centre. -/
def distances (centre : Float) (xs : List Float) : List Float :=
  xs.map fun x => (x - centre).abs

/-- The index of the last of a series of typical prices among the latest of them, as many as the
period. As long as there are not so many, it is zero. -/
def windowIndex (period : Nat) (constant : Float) (typicals : List Float) : Float :=
  let window := bySlot period typicals
  if typicals.length < period then 0.0
  else (typicals.getLastD 0.0 - mean window) / (constant * mean (distances (mean window) window))

/-- The state is that of an index that has seen these typical prices. -/
structure Remembers (s : Cci) (period : Nat) (constant : Float) (typicals : List Float) : Prop where
  span : s.period = period
  scale : s.constant = constant
  age : s.age = typicals.length
  capacity : s.typicals.capacity = period
  holds : s.typicals.Holds typicals
  ready : s.ready = decide (period ≤ typicals.length)
  value : s.value = windowIndex period constant typicals

namespace Remembers

variable {s : Cci} {period : Nat} {constant : Float} {typicals : List Float}

theorem withConstant (hpos : 0 < period) (constant : Float) :
    (Cci.withConstant period constant).Remembers period constant [] where
  span := rfl
  scale := rfl
  age := rfl
  capacity := Window.capacity_blank period
  holds := Window.holds_nil _
  ready := (decide_eq_false (Nat.not_le.2 hpos)).symm
  value := (if_pos hpos).symm

section Update

variable (h : s.Remembers period constant typicals) (hpos : 0 < period) (c : Candle)

include h

theorem capacity_set : (s.typicals.set s.age c.typical).capacity = period := by
  rw [Window.capacity_set, h.capacity]

include hpos

theorem holds_set : (s.typicals.set s.age c.typical).Holds (typicals ++ [c.typical]) := by
  rw [h.age]
  exact h.holds.set (h.capacity.symm ▸ hpos) c.typical

theorem value_full (hfull : period ≤ typicals.length + 1) :
    let ring := s.typicals.set s.age c.typical
    (c.typical - ring.mean) /
        (s.constant * deviation ring.toList ring.mean (Float.ofNat s.period)) =
      windowIndex period constant (typicals ++ [c.typical]) := by
  intro ring
  have hlength : period ≤ (typicals ++ [c.typical]).length := by
    rwa [List.length_append, List.length_singleton]
  have hcapacity : ring.capacity = period := h.capacity_set c
  have hlist : ring.toList = bySlot period (typicals ++ [c.typical]) := by
    rw [← hcapacity] at hlength ⊢
    exact (h.holds_set hpos c).toList_eq (hcapacity.symm ▸ hpos) hlength
  have hmean : ring.mean = mean (bySlot period (typicals ++ [c.typical])) := by
    rw [mean, length_bySlot hlength, ← hlist, Window.mean, hcapacity, Window.sum]
  rw [windowIndex, if_neg (Nat.not_lt.2 hlength), List.getLastD_concat, hmean, hlist, deviation,
    h.span, h.scale]
  simp only [mean, distances, List.length_map, length_bySlot hlength]

theorem update : (s.update c).Remembers period constant (typicals ++ [c.typical]) := by
  have hlength : (typicals ++ [c.typical]).length = typicals.length + 1 := by
    rw [List.length_append, List.length_singleton]
  have hage : s.age + 1 = (typicals ++ [c.typical]).length := by rw [hlength, h.age]
  by_cases hlt : s.age + 1 < s.period
  · have hstep : s.update c =
        { s with age := s.age + 1, typicals := s.typicals.set s.age c.typical } := if_pos hlt
    rw [hage, h.span] at hlt
    rw [hstep]
    constructor
    case span => exact h.span
    case scale => exact h.scale
    case age => exact hage
    case capacity => exact h.capacity_set c
    case holds => exact h.holds_set hpos c
    case ready =>
      rw [h.ready, decide_eq_false (Nat.not_le.2 hlt), decide_eq_false]
      omega
    case value =>
      rw [h.value, windowIndex, if_pos (by omega), windowIndex, if_pos hlt]
  · have hvalue := h.value_full hpos c (by rw [← h.span, ← h.age]; omega)
    have hstep : s.update c =
        { s with
          age := s.age + 1
          typicals := s.typicals.set s.age c.typical
          ready := true
          value := windowIndex period constant (typicals ++ [c.typical]) } :=
      hvalue ▸ if_neg hlt
    rw [hage, h.span] at hlt
    rw [hstep]
    constructor
    case span => exact h.span
    case scale => exact h.scale
    case age => exact hage
    case capacity => exact h.capacity_set c
    case holds => exact h.holds_set hpos c
    case ready => exact (decide_eq_true (Nat.not_lt.1 hlt)).symm
    case value => rfl

end Update

end Remembers

theorem remembers_foldl {period : Nat} (hpos : 0 < period) (constant : Float)
    (candles : List Candle) :
    (candles.foldl update (withConstant period constant)).Remembers period constant
      (candles.map Candle.typical) := by
  apply foldl_history (fun s candles => Remembers s period constant (candles.map Candle.typical))
    (.withConstant hpos constant)
  intro s candles hs c
  rw [List.map_append]
  exact hs.update hpos c

/-- Of equal prices, and a mean that is the same again, no distances are left to divide by. -/
theorem isNaN_windowIndex {period : Nat} {typicals : List Float} (constant : Float) {x : Float}
    (hpos : 0 < period) (hle : period ≤ typicals.length)
    (hflat : ∀ t ∈ latest period typicals, (t == x) = true)
    (hmean : (mean (bySlot period typicals) == x) = true) :
    (windowIndex period constant typicals).isNaN = true := by
  have hdifference : ∀ t ∈ latest period typicals,
      Number.Sizeless (Number.unpacked (t - mean (bySlot period typicals))) := fun t ht =>
    Number.sizeless_sub (Number.beq_of_beq_of_beq (hflat t ht) hmean)
  have hlast := getLastD_mem_latest hpos hle 0.0
  have hdistances : ∀ d ∈ distances (mean (bySlot period typicals)) (bySlot period typicals),
      Number.Sizeless (Number.unpacked d) := by
    intro d hd
    obtain ⟨t, ht, rfl⟩ := List.mem_map.1 hd
    exact (hdifference t ((bySlot_perm period typicals).mem_iff.1 ht)).abs
  rw [windowIndex, if_neg (Nat.not_lt.2 hle)]
  apply Number.Sizeless.isNaN_div (hdifference _ hlast)
  exact .mul_right _ ((Number.Sizeless.sum hdistances).div_left _)

/-- After every tick the index is that of the latest typical prices, each of them taken once; until
there are as many as the period it is zero and not ready. If all of these are equal, and their mean
is rounded to the same number, it is no number. -/
theorem value_eq_windowIndex {period : Nat} (hpos : 0 < period) (constant : Float)
    (candles : List Candle) :
    let typicals := candles.map Candle.typical
    let s := candles.foldl update (withConstant period constant)
    s.value = windowIndex period constant typicals ∧
      s.ready = decide (period ≤ candles.length) ∧
      (bySlot period typicals).Perm (latest period typicals) ∧
      ∀ x, period ≤ candles.length → (∀ t ∈ latest period typicals, (t == x) = true) →
        (mean (bySlot period typicals) == x) = true → s.value.isNaN = true := by
  intro typicals s
  have hlength : typicals.length = candles.length := List.length_map _
  have hremembers : s.Remembers period constant typicals := remembers_foldl hpos constant candles
  refine ⟨hremembers.value, ?_, bySlot_perm period typicals, ?_⟩
  · rw [hremembers.ready, hlength]
  · intro x hle hflat hmean
    rw [hremembers.value]
    exact isNaN_windowIndex constant hpos (hlength.symm ▸ hle) hflat hmean

/-- The fourth price goes to the slot of the first, and is added up before the two between them. A
window of three equal ones gives no number. -/
theorem value_eq_windowIndex_wrapped :
    let flat (x : Float) := Candle.ofPrices 0 x x x x 0.0
    let rising := [1.0, 2.0, 4.0, 9.0]
    let level := [5.0, 2.0, 2.0, 2.0]
    let after := fun xs : List Float => (xs.map flat).foldl update (fresh 3)
    0 < 3 ∧ bySlot 3 rising = [9.0, 2.0, 4.0] ∧
      (after rising).value = windowIndex 3 standardConstant rising ∧
      (after level).value.isNaN = true := by
  intro flat rising level after
  have hpos : 0 < 3 := by decide
  have hrising : (rising.map flat).map Candle.typical = rising := by decide +kernel
  have hlevel : (level.map flat).map Candle.typical = level := by decide +kernel
  have hvalue := (value_eq_windowIndex hpos standardConstant (rising.map flat)).1
  obtain ⟨-, -, -, hnan⟩ := value_eq_windowIndex hpos standardConstant (level.map flat)
  rw [hrising] at hvalue
  rw [hlevel] at hnan
  exact ⟨hpos, by decide +kernel, hvalue,
    hnan 2.0 (by decide) (by decide +kernel) (by decide +kernel)⟩

end SignalEngine.Cci
