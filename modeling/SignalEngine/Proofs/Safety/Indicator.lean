import SignalEngine.Proofs.Checkpoint.Indicator
import SignalEngine.Proofs.Safety.Window

namespace SignalEngine

def requirePeriod (period : Nat) : Except Panic Unit :=
  if period = 0 then .error (.fault .zeroPeriod) else .ok ()

theorem requirePeriod_eq {period : Nat} (h : 0 < period) : requirePeriod period = .ok () :=
  if_neg h.ne'

section Making

variable (period : Nat)

def Sma.tryFresh : Except Panic Sma := do
  requirePeriod period
  let closes ← Window.tryOfCapacity period
  return ⟨period, 0, 0.0, closes, false, 0.0⟩

def Ema.tryFresh : Except Panic Ema := do
  requirePeriod period
  return ⟨period, false, 0.0⟩

def Smma.tryFresh : Except Panic Smma := do
  let sma ← Sma.tryFresh period
  return ⟨period, 0, sma, false, 0.0⟩

def Rsi.tryFresh : Except Panic Rsi := do
  let up ← Smma.tryFresh period
  let down ← Smma.tryFresh period
  return ⟨period, none, up, down, false, 0.0⟩

def Cci.tryFresh : Except Panic Cci := do
  requirePeriod period
  let typicals ← Window.tryOfCapacity period
  return ⟨period, Cci.standardConstant, 0, typicals, false, 0.0⟩

def Atr.tryFresh : Except Panic Atr := do
  requirePeriod period
  let highs ← Window.tryOfCapacity period
  let lows ← Window.tryOfCapacity period
  let closes ← Window.tryOfCapacity period
  return ⟨period, 0, highs, lows, closes, false, 0.0⟩

def Macd.tryFresh (fast slow signal : Nat) : Except Panic Macd := do
  let fast ← Ema.tryFresh fast
  let slow ← Ema.tryFresh slow
  let signal ← Ema.tryFresh signal
  return ⟨fast, slow, signal, false, 0.0⟩

variable {period}

theorem Sma.tryFresh_eq (h : 0 < period) : Sma.tryFresh period = .ok (Sma.fresh period) := by
  rw [tryFresh, requirePeriod_eq h, Window.tryOfCapacity_eq h]
  rfl

theorem Ema.tryFresh_eq (h : 0 < period) : Ema.tryFresh period = .ok (Ema.fresh period) := by
  rw [tryFresh, requirePeriod_eq h]
  rfl

theorem Smma.tryFresh_eq (h : 0 < period) : Smma.tryFresh period = .ok (Smma.fresh period) := by
  rw [tryFresh, Sma.tryFresh_eq h]
  rfl

theorem Rsi.tryFresh_eq (h : 0 < period) : Rsi.tryFresh period = .ok (Rsi.fresh period) := by
  rw [tryFresh, Smma.tryFresh_eq h]
  rfl

theorem Cci.tryFresh_eq (h : 0 < period) : Cci.tryFresh period = .ok (Cci.fresh period) := by
  rw [tryFresh, requirePeriod_eq h, Window.tryOfCapacity_eq h]
  rfl

theorem Atr.tryFresh_eq (h : 0 < period) : Atr.tryFresh period = .ok (Atr.fresh period) := by
  rw [tryFresh, requirePeriod_eq h, Window.tryOfCapacity_eq h]
  rfl

theorem Macd.tryFresh_eq {fast slow signal : Nat} (hfast : 0 < fast) (hslow : 0 < slow)
    (hsignal : 0 < signal) :
    Macd.tryFresh fast slow signal = .ok (Macd.fresh fast slow signal) := by
  rw [tryFresh, Ema.tryFresh_eq hfast, Ema.tryFresh_eq hslow, Ema.tryFresh_eq hsignal]
  rfl

end Making

namespace Sma

def tryUpdate (s : Sma) (c : Candle) : Except Panic Sma := do
  let (evicted, closes) ← s.closes.tryReplace s.age c.close
  let sum := s.sum + (c.close - evicted)
  return { s with
    age := s.age + 1
    sum := sum
    closes := closes
    ready := s.ready || s.period ≤ s.age + 1
    value := sum / Float.ofNat s.period }

theorem tryUpdate_eq {s : Sma} (h : Sound s) (c : Candle) : s.tryUpdate c = .ok (s.update c) := by
  rw [tryUpdate, Window.tryReplace_eq h]
  rfl

end Sma

namespace Smma

def tryUpdate (s : Smma) (c : Candle) : Except Panic Smma := do
  let age := s.age + 1
  if age ≤ s.period then
    let sma ← s.sma.tryUpdate c
    return { s with age := age, sma := sma, value := sma.value }
  else
    let weight ← tryPred s.period
    return { s with
      age := age
      ready := true
      value := (s.value * Float.ofNat weight + c.close) / Float.ofNat s.period }

theorem tryUpdate_eq {s : Smma} (h : Sound s) (c : Candle) : s.tryUpdate c = .ok (s.update c) := by
  rw [tryUpdate, update]
  dsimp only
  split
  · rw [Sma.tryUpdate_eq h.2]
    rfl
  · rw [tryPred_eq h.1]
    rfl

/-- A period of zero is what stops it. -/
example (c : Candle) : (Smma.fresh 0).tryUpdate c = .error .belowZero := rfl

end Smma

namespace Rsi

def tryUpdate (s : Rsi) (c : Candle) : Except Panic Rsi :=
  match s.lastPrice with
  | none => .ok { s with lastPrice := some c.close }
  | some last => do
      let (up, down) := moves last c.close
      let avgUp ← s.up.tryUpdate (Candle.ofClose up)
      let avgDown ← s.down.tryUpdate (Candle.ofClose down)
      return { s with
        lastPrice := some c.close
        up := avgUp
        down := avgDown
        ready := s.ready || (s.up.ready && s.down.ready)
        value := strength avgUp.value avgDown.value }

theorem tryUpdate_eq {s : Rsi} (h : Sound s) (c : Candle) : s.tryUpdate c = .ok (s.update c) := by
  rw [tryUpdate, update]
  cases s.lastPrice with
  | none => rfl
  | some last =>
      simp only [Smma.tryUpdate_eq h.1, Smma.tryUpdate_eq h.2]
      rfl

end Rsi

namespace Cci

def tryUpdate (s : Cci) (c : Candle) : Except Panic Cci := do
  let typicals ← s.typicals.trySet s.age c.typical
  if s.age + 1 < s.period then
    return { s with age := s.age + 1, typicals := typicals }
  else
    let mean := typicals.mean
    let spread := deviation typicals.toList mean (Float.ofNat s.period)
    return { s with
      age := s.age + 1
      typicals := typicals
      ready := true
      value := (c.typical - mean) / (s.constant * spread) }

theorem tryUpdate_eq {s : Cci} (h : Sound s) (c : Candle) : s.tryUpdate c = .ok (s.update c) := by
  rw [tryUpdate, Window.trySet_eq h, update]
  exact (apply_ite Except.ok _ _ _).symm

end Cci

namespace Atr

/-- The true range of the slot of an age. -/
def tryRangeAt (highs lows closes : Window) (age : Int) : Except Panic Float := do
  let high ← highs.tryGet age
  let low ← lows.tryGet age
  let previousClose ← closes.tryGet (age - 1)
  return trueRange high low previousClose

def tryRangeSum (highs lows closes : Window) (period : Nat) (age : Int) : Except Panic Float := do
  let high ← highs.tryGet (age + 1)
  let low ← lows.tryGet (age + 1)
  (List.range (period - 1)).foldlM (fun sum (i : Nat) => do
      return sum + (← tryRangeAt highs lows closes (age + 1 + (i + 1)))) (high - low)

def tryUpdate (s : Atr) (c : Candle) : Except Panic Atr := do
  let highs ← s.highs.trySet s.age c.high
  let lows ← s.lows.trySet s.age c.low
  let closes ← s.closes.trySet s.age c.close
  let sum ← tryRangeSum highs lows closes s.period s.age
  return { s with
    age := s.age + 1
    highs := highs
    lows := lows
    closes := closes
    ready := s.ready || s.period ≤ s.age + 1
    value := sum / Float.ofNat s.period }

section Ranges

variable {highs lows closes : Window} (hhighs : 0 < highs.capacity) (hlows : 0 < lows.capacity)
  (hcloses : 0 < closes.capacity)

include hhighs hlows hcloses

theorem tryRangeAt_eq (age : Int) :
    tryRangeAt highs lows closes age = .ok (rangeAt highs lows closes age) := by
  rw [tryRangeAt, Window.tryGet_eq hhighs, Window.tryGet_eq hlows, Window.tryGet_eq hcloses]
  rfl

theorem tryRangeSum_eq (period : Nat) (age : Int) :
    tryRangeSum highs lows closes period age = .ok (rangeSum highs lows closes period age) := by
  rw [tryRangeSum, Window.tryGet_eq hhighs, Window.tryGet_eq hlows]
  simp only [tryRangeAt_eq hhighs hlows hcloses]
  exact List.foldlM_pure

end Ranges

theorem tryUpdate_eq {s : Atr} (h : Sound s) (c : Candle) : s.tryUpdate c = .ok (s.update c) := by
  obtain ⟨hhighs, hlows, hcloses⟩ := Atr.sound_update h c
  have hsum := tryRangeSum_eq hhighs hlows hcloses s.period s.age
  dsimp only [update] at hsum
  rw [tryUpdate, Window.trySet_eq h.1, Window.trySet_eq h.2.1, Window.trySet_eq h.2.2]
  dsimp only [bind, Except.bind]
  rw [hsum]
  rfl

end Atr

abbrev Restoring := ExceptT CheckpointError (Except Panic)

namespace Restoring

/-- The restore does not stop the program, and this is what comes of it. -/
def ComesTo (x : Restoring α) (r : Except CheckpointError α) : Prop :=
  x.run = .ok r

namespace ComesTo

theorem pure (a : α) : ComesTo (Pure.pure a) (.ok a) := rfl

theorem throw (e : CheckpointError) : ComesTo (throwThe CheckpointError e : Restoring α) (.error e) :=
  rfl

theorem ofExcept (r : Except CheckpointError α) : ComesTo (MonadExcept.ofExcept r) r := by
  cases r <;> rfl

theorem bind {x : Restoring α} {r : Except CheckpointError α} {f : α → Restoring β}
    {g : α → Except CheckpointError β} (hx : x.ComesTo r)
    (hf : ∀ a, r = .ok a → (f a).ComesTo (g a)) : (x >>= f).ComesTo (r >>= g) := by
  rw [ComesTo, ExceptT.run_bind, show x.run = .ok r from hx]
  cases r with
  | error e => rfl
  | ok a => exact hf a rfl

theorem made {x : Except Panic β} {b : β} {f : β → Restoring α} {r : Except CheckpointError α}
    (hx : x = .ok b) (hf : (f b).ComesTo r) : ComesTo (ExceptT.lift x >>= f) r := by
  rw [hx]
  exact hf

theorem map {x : Restoring α} {r : Except CheckpointError α} (f : α → β) (hx : x.ComesTo r) :
    (f <$> x).ComesTo (r.map f) := by
  rw [map_eq_pure_bind]
  refine (hx.bind (g := fun a => .ok (f a)) fun a _ => .pure (f a)).trans ?_
  cases r <;> rfl

end ComesTo

end Restoring

open Restoring (ComesTo)

def Smma.tryLoad (text : String) : Restoring Smma := do
  let r ← ofExcept (readRecord "SMMA" savedCodec text)
  if r.period = 0 then
    throw (.invalid "SMMA" "period must be greater than 0")
  else
    let fresh ← ExceptT.lift (Sma.tryFresh r.period)
    let sma ← ofExcept (Persistent.load fresh r.sma)
    return ⟨r.period, r.age, sma, r.ready, r.value⟩

def Rsi.tryLoad (text : String) : Restoring Rsi := do
  let r ← ofExcept (readRecord "RSI" savedCodec text)
  let up ← Smma.tryLoad r.up
  let down ← Smma.tryLoad r.down
  return ⟨r.period, r.lastPrice, up, down, r.ready, r.value⟩

theorem Smma.tryLoad_comesTo (s : Smma) (text : String) :
    (Smma.tryLoad text).ComesTo (Persistent.load s text) := by
  refine .bind (.ofExcept _) fun r _ => ?_
  split
  · exact .throw _
  · rename_i hne
    refine .made (Sma.tryFresh_eq (Nat.pos_of_ne_zero hne)) ?_
    exact .bind (.ofExcept _) fun sma _ => .pure _

theorem Rsi.tryLoad_comesTo (s : Rsi) (text : String) :
    (Rsi.tryLoad text).ComesTo (Persistent.load s text) := by
  refine .bind (.ofExcept _) fun r _ => ?_
  refine .bind (Smma.tryLoad_comesTo s.up r.up) fun up _ => ?_
  exact .bind (Smma.tryLoad_comesTo s.down r.down) fun down _ => .pure _

end SignalEngine
