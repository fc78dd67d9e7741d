import SignalEngine.Proofs.Checkpoint.Strategy
import SignalEngine.Proofs.Safety.Indicator

namespace SignalEngine

open Restoring (ComesTo)

namespace SuperTrend

def State.tryFresh (config : Config) : Except Panic State := do
  let range ← Atr.tryFresh config.rangePeriod
  return { State.fresh config with range := range }

theorem State.tryFresh_eq {config : Config} (h : config.validate = .ok ()) :
    State.tryFresh config = .ok (.fresh config) := by
  rw [tryFresh, Atr.tryFresh_eq (Config.rangePeriod_pos h)]
  rfl

def State.tryAdvance (s : State) (c : Candle) : Except Panic (State × Bool) := do
  let range ← s.range.tryUpdate c
  let s := { s with range := range, age := s.age + 1 }
  return if s.age < s.config.rangePeriod then (s, false) else (s.follow c, true)

def State.tryPreload (s : State) (c : Candle) : Except Panic State := do
  return (← s.tryAdvance c).1

def State.tryUpdate (s : State) (c : Candle) : Except Panic (State × Option Signal) := do
  let (s, begun) ← s.tryAdvance c
  return if begun then s.trade c.close else (s, none)

def tryLoad (text : String) : Restoring State := do
  let r ← ofExcept (readRecord name savedCodec text)
  ofExcept (acceptConfig name r.config.validate)
  let fresh ← ExceptT.lift (State.tryFresh r.config)
  let stop ← ofExcept (Persistent.load fresh.stop r.stop)
  let range ← ofExcept (Persistent.load fresh.range r.range)
  return ⟨r.config, range, stop, r.bands, r.lastClose, r.age, r.confidence, r.lastBuyConfidence⟩

variable {s : State}

theorem State.tryAdvance_eq (h : Sound s) (c : Candle) : s.tryAdvance c = .ok (s.advance c) := by
  rw [tryAdvance, Atr.tryUpdate_eq h.2]
  rfl

theorem State.tryPreload_eq (h : Sound s) (c : Candle) : s.tryPreload c = .ok (s.preload c) := by
  rw [tryPreload, tryAdvance_eq h]
  rfl

theorem State.tryUpdate_eq (h : Sound s) (c : Candle) : s.tryUpdate c = .ok (s.update c) := by
  rw [tryUpdate, tryAdvance_eq h, update]
  obtain ⟨s', begun⟩ := s.advance c
  cases begun with
  | false => rfl
  | true => rfl

theorem tryLoad_comesTo (s : State) (text : String) :
    (tryLoad text).ComesTo (Persistent.load s text) := by
  refine .bind (.ofExcept _) fun r _ => .bind (.ofExcept _) fun _ hvalid => ?_
  refine .made (State.tryFresh_eq (acceptConfig_eq_ok.1 hvalid)) ?_
  exact .bind (.ofExcept _) fun stop _ => .bind (.ofExcept _) fun range _ => .pure _

end SuperTrend

namespace Turtle

def State.tryFresh (config : Config) : Except Panic State := do
  let closes ← Window.tryOfCapacity config.longestChannel
  let filter ← Sma.tryFresh config.filterPeriod
  return ⟨config, closes, 0, filter⟩

theorem State.tryFresh_eq {config : Config} (h : config.validate = .ok ()) :
    State.tryFresh config = .ok (.fresh config) := by
  rw [tryFresh, Window.tryOfCapacity_eq (Config.longestChannel_pos h),
    Sma.tryFresh_eq (Config.filterPeriod_pos h)]
  rfl

def tryRecent (closes : Window) (age : Int) (count : Nat) : Except Panic (List Float) :=
  (List.range count).mapM fun (i : Nat) => closes.tryGet (age - i)

/-- A close is the given extreme of a channel. The ring is read only when the channel counts. -/
def tryReaches (extreme : List Float → Float) (closes : Window) (age : Nat) (close : Float)
    (count : Nat) : Except Panic Bool := do
  if count ≤ age then return close == extreme (← tryRecent closes age count) else return false

def tryBreakout (config : Config) (closes : Window) (age : Nat) (close : Float) :
    Except Panic (Option Breakout) := do
  let enterFast ← tryReaches Number.maximum closes age close config.enterFast
  let exitFast ← tryReaches Number.minimum closes age close config.exitFast
  let enterSlow ← tryReaches Number.maximum closes age close config.enterSlow
  let exitSlow ← tryReaches Number.minimum closes age close config.exitSlow
  return if exitSlow then some .exitSlow
    else if enterSlow then some .enterSlow
    else if exitFast then some .exitFast
    else if enterFast then some .enterFast
    else none

def State.tryAdvance (s : State) (c : Candle) : Except Panic (State × Option Breakout) := do
  let filter ← s.filter.tryUpdate c
  let closes ← s.closes.trySet s.age c.close
  let breakout ← tryBreakout s.config closes s.age c.close
  return ({ s with closes := closes, age := s.age + 1, filter := filter }, breakout)

def State.tryPreload (s : State) (c : Candle) : Except Panic State := do
  return (← s.tryAdvance c).1

def State.tryUpdate (s : State) (c : Candle) : Except Panic (State × Option Signal) := do
  let (s, breakout) ← s.tryAdvance c
  return (s, breakout.bind (s.signal? c.close))

def tryLoad (text : String) : Restoring State := do
  let r ← ofExcept (readRecord name savedCodec text)
  ofExcept (acceptConfig name r.config.validate)
  if r.closes.capacity ≠ r.config.longestChannel then
    throw (.invalid name "close history does not match the longest channel")
  else
    let fresh ← ExceptT.lift (State.tryFresh r.config)
    let filter ← ofExcept (Persistent.load fresh.filter r.filter)
    return ⟨r.config, r.closes, r.age, filter⟩

section Channels

variable {closes : Window} (h : 0 < closes.capacity)

include h

theorem tryRecent_eq (age : Int) (count : Nat) :
    tryRecent closes age count = .ok (recent closes age count) := by
  simp only [tryRecent, Window.tryGet_eq h]
  exact List.mapM_pure

theorem tryReaches_eq (extreme : List Float → Float) (age : Nat) (close : Float) (count : Nat) :
    tryReaches extreme closes age close count =
      .ok (count ≤ age && close == extreme (recent closes age count)) := by
  rw [tryReaches, tryRecent_eq h]
  by_cases hcount : count ≤ age
  · rw [if_pos hcount, decide_eq_true hcount, Bool.true_and]
    rfl
  · rw [if_neg hcount, decide_eq_false hcount, Bool.false_and]
    rfl

theorem tryBreakout_eq (config : Config) (age : Nat) (close : Float) :
    tryBreakout config closes age close = .ok (breakout? config closes age close) := by
  simp only [tryBreakout, tryReaches_eq h]
  rfl

end Channels

variable {s : State}

theorem State.tryAdvance_eq (h : Sound s) (c : Candle) : s.tryAdvance c = .ok (s.advance c) := by
  have hcloses : 0 < s.closes.capacity := h.2.1 ▸ Config.longestChannel_pos h.1
  have hset : 0 < (s.closes.set s.age c.close).capacity := by rwa [Window.capacity_set]
  rw [tryAdvance, Sma.tryUpdate_eq h.2.2, Window.trySet_eq hcloses]
  dsimp only [bind, Except.bind]
  rw [tryBreakout_eq hset]
  rfl

theorem State.tryPreload_eq (h : Sound s) (c : Candle) : s.tryPreload c = .ok (s.preload c) := by
  rw [tryPreload, tryAdvance_eq h]
  rfl

theorem State.tryUpdate_eq (h : Sound s) (c : Candle) : s.tryUpdate c = .ok (s.update c) := by
  rw [tryUpdate, tryAdvance_eq h]
  rfl

theorem tryLoad_comesTo (s : State) (text : String) :
    (tryLoad text).ComesTo (Persistent.load s text) := by
  refine .bind (.ofExcept _) fun r _ => .bind (.ofExcept _) fun _ hvalid => ?_
  split
  · exact .throw _
  · refine .made (State.tryFresh_eq (acceptConfig_eq_ok.1 hvalid)) ?_
    exact .bind (.ofExcept _) fun filter _ => .pure _

end Turtle

namespace Aldo

namespace Oscillator

/-- Only the lengths of the chosen kind are used. -/
def tryFresh (c : Config) : Except Panic Oscillator :=
  match c.oscillator with
  | .cci => cci <$> Cci.tryFresh c.cciLength
  | .rsi => rsi <$> Rsi.tryFresh c.rsiLength
  | .macd => macd <$> Macd.tryFresh c.macdFast c.macdSlow c.macdSignal

def tryUpdate (o : Oscillator) (c : Candle) : Except Panic Oscillator :=
  match o with
  | cci s => cci <$> s.tryUpdate c
  | rsi s => rsi <$> s.tryUpdate c
  | macd s => .ok (macd (s.update c))

def tryLoad (o : Oscillator) (text : String) : Restoring Oscillator :=
  match o with
  | cci s => cci <$> ofExcept (Persistent.load s text)
  | rsi _ => rsi <$> Rsi.tryLoad text
  | macd s => macd <$> ofExcept (Persistent.load s text)

theorem tryFresh_eq {c : Config} (h : c.validate = .ok ()) : tryFresh c = .ok (fresh c) := by
  have hlengths := Config.lengthsValid_of_validate h
  rw [Config.lengthsValid] at hlengths
  rw [tryFresh, fresh]
  cases hkind : c.oscillator with
  | cci =>
      rw [hkind] at hlengths
      dsimp only
      rw [Cci.tryFresh_eq (of_decide_eq_true hlengths)]
      rfl
  | rsi =>
      rw [hkind] at hlengths
      dsimp only
      rw [Rsi.tryFresh_eq (of_decide_eq_true hlengths)]
      rfl
  | macd =>
      simp only [hkind, Bool.and_eq_true, decide_eq_true_eq] at hlengths
      obtain ⟨⟨hfast, hslow⟩, hsignal⟩ := hlengths
      dsimp only
      rw [Macd.tryFresh_eq hfast hslow hsignal]
      rfl

theorem tryUpdate_eq {o : Oscillator} (h : Sound o) (c : Candle) :
    o.tryUpdate c = .ok (o.update c) := by
  cases o with
  | cci s =>
      rw [tryUpdate, Cci.tryUpdate_eq h]
      rfl
  | rsi s =>
      rw [tryUpdate, Rsi.tryUpdate_eq h]
      rfl
  | macd s => rfl

theorem tryLoad_comesTo (o : Oscillator) (text : String) :
    (o.tryLoad text).ComesTo (Persistent.load o text) := by
  cases o with
  | cci s => exact .map cci (.ofExcept _)
  | rsi s => exact .map rsi (Rsi.tryLoad_comesTo s text)
  | macd s => exact .map macd (.ofExcept _)

end Oscillator

def State.tryFresh (config : Config) : Except Panic State := do
  let oscillator ← Oscillator.tryFresh config
  let highs ← Window.tryOfCapacity config.period
  let lows ← Window.tryOfCapacity config.period
  let oscs ← Window.tryOfCapacity config.period
  return ⟨config, oscillator, highs, lows, oscs, 0, Extrema.zero⟩

theorem State.tryFresh_eq {config : Config} (h : config.validate = .ok ()) :
    State.tryFresh config = .ok (.fresh config) := by
  rw [tryFresh, Oscillator.tryFresh_eq h, Window.tryOfCapacity_eq (Config.period_pos h)]
  rfl

def State.tryObserve (s : State) (c : Candle) : Except Panic State := do
  let oscillator ← s.oscillator.tryUpdate c
  let highs ← s.highs.trySet s.age c.high
  let lows ← s.lows.trySet s.age c.low
  let oscs ← s.oscs.trySet s.age oscillator.value
  return { s with oscillator, highs, lows, oscs, age := s.age + 1 }

def State.tryUpdate (s : State) (c : Candle) : Except Panic (State × Option Signal) := do
  let s ← s.tryObserve c
  let osc := s.oscillator.value
  let flags := s.flags c osc
  let extrema := s.extrema.next flags c osc
  return if s.age < s.config.period then (s, none)
    else ({ s with extrema }, extrema.signal? flags c osc)

def State.tryPreload (s : State) (c : Candle) : Except Panic State := do
  return (← s.tryUpdate c).1

def tryLoad (text : String) : Restoring State := do
  let r ← ofExcept (readRecord name savedCodec text)
  ofExcept (acceptConfig name r.config.validate)
  if !r.windowsFit then
    throw (.invalid name "window length does not match the divergence period")
  else
    let fresh ← ExceptT.lift (State.tryFresh r.config)
    let oscillator ← fresh.oscillator.tryLoad r.oscillator
    return ⟨r.config, oscillator, r.highs, r.lows, r.oscs, r.age, r.extrema⟩

variable {s : State}

theorem State.tryObserve_eq (h : Sound s) (c : Candle) : s.tryObserve c = .ok (s.observe c) := by
  have hpos : 0 < s.config.period := Config.period_pos h.config
  rw [tryObserve, Oscillator.tryUpdate_eq h.oscillator, Window.trySet_eq (h.highs ▸ hpos),
    Window.trySet_eq (h.lows ▸ hpos)]
  dsimp only [bind, Except.bind]
  rw [Window.trySet_eq (h.oscs ▸ hpos)]
  rfl

theorem State.tryUpdate_eq (h : Sound s) (c : Candle) : s.tryUpdate c = .ok (s.update c) := by
  rw [tryUpdate, tryObserve_eq h]
  rfl

theorem State.tryPreload_eq (h : Sound s) (c : Candle) : s.tryPreload c = .ok (s.preload c) := by
  rw [tryPreload, tryUpdate_eq h]
  rfl

theorem tryLoad_comesTo (s : State) (text : String) :
    (tryLoad text).ComesTo (Persistent.load s text) := by
  refine .bind (.ofExcept _) fun r _ => .bind (.ofExcept _) fun _ hvalid => ?_
  split
  · exact .throw _
  · refine .made (State.tryFresh_eq (acceptConfig_eq_ok.1 hvalid)) ?_
    exact .bind (Oscillator.tryLoad_comesTo _ _) fun oscillator _ => .pure _

end Aldo

namespace Agreement

def State.tryFresh (config : Config) : Except Panic State := do
  let superTrend ← SuperTrend.State.tryFresh config.superTrend
  let turtle ← Turtle.State.tryFresh config.turtle
  return ⟨config, superTrend, turtle, none, none⟩

theorem State.tryFresh_eq {config : Config} (h : config.validate = .ok ()) :
    State.tryFresh config = .ok (.fresh config) := by
  obtain ⟨hsuperTrend, hturtle⟩ := Config.validate_eq_ok.1 h
  rw [tryFresh, SuperTrend.State.tryFresh_eq hsuperTrend, Turtle.State.tryFresh_eq hturtle]
  rfl

def State.tryPreload (s : State) (c : Candle) : Except Panic State := do
  let superTrend ← s.superTrend.tryPreload c
  let turtle ← s.turtle.tryPreload c
  return { s with superTrend, turtle }

def State.tryUpdate (s : State) (c : Candle) : Except Panic (State × Option Signal) := do
  let (superTrend, superTrendSignal) ← s.superTrend.tryUpdate c
  let (turtle, turtleSignal) ← s.turtle.tryUpdate c
  let s := { s with
    superTrend := superTrend
    turtle := turtle
    superTrendSignal := latch s.config.rememberSignal superTrendSignal s.superTrendSignal
    turtleSignal := latch s.config.rememberSignal turtleSignal s.turtleSignal }
  return (s, s.agreed?)

def tryLoad (text : String) : Restoring State := do
  let r ← ofExcept (readRecord name savedCodec text)
  ofExcept (acceptConfig name r.config.validate)
  -- the parts are made afresh, and once more each before its own restore
  let _ ← ExceptT.lift (State.tryFresh r.config)
  let superTrend ← SuperTrend.tryLoad r.superTrend
  let turtle ← Turtle.tryLoad r.turtle
  return ⟨r.config, superTrend, turtle, r.superTrendSignal, r.turtleSignal⟩

variable {s : State}

theorem State.tryPreload_eq (h : Sound s) (c : Candle) : s.tryPreload c = .ok (s.preload c) := by
  rw [tryPreload, SuperTrend.State.tryPreload_eq h.2.1, Turtle.State.tryPreload_eq h.2.2]
  rfl

theorem State.tryUpdate_eq (h : Sound s) (c : Candle) : s.tryUpdate c = .ok (s.update c) := by
  rw [tryUpdate, SuperTrend.State.tryUpdate_eq h.2.1, Turtle.State.tryUpdate_eq h.2.2]
  rfl

theorem tryLoad_comesTo (s : State) (text : String) :
    (tryLoad text).ComesTo (Persistent.load s text) := by
  refine .bind (.ofExcept _) fun r _ => .bind (.ofExcept _) fun _ hvalid => ?_
  refine .made (State.tryFresh_eq (acceptConfig_eq_ok.1 hvalid)) ?_
  refine .bind (SuperTrend.tryLoad_comesTo _ _) fun superTrend _ => ?_
  exact .bind (Turtle.tryLoad_comesTo _ _) fun turtle _ => .pure _

end Agreement

end SignalEngine
