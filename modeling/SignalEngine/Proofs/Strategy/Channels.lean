import SignalEngine.Proofs.Checkpoint.Trend
import SignalEngine.Proofs.Indicator.RunningSum
import SignalEngine.Proofs.Number.Order
import SignalEngine.Proofs.Session.History
import SignalEngine.Proofs.Window.Ring
import SignalEngine.Strategy.Basic

namespace SignalEngine

namespace Turtle

/-- The new close is at least all closes of a channel, which counts once there are more closes than it
is long. -/
def IsHighest (closes : List Float) (new : Float) (count : Nat) : Prop :=
  count ≤ closes.length ∧ ∀ x ∈ latest count (closes ++ [new]), x ≤ new

def IsLowest (closes : List Float) (new : Float) (count : Nat) : Prop :=
  count ≤ closes.length ∧ ∀ x ∈ latest count (closes ++ [new]), new ≤ x

/-- The new close breaks out of a channel. -/
def Breakout.Occurs (config : Config) (closes : List Float) (new : Float) : Breakout → Prop
  | enterFast => IsHighest closes new config.enterFast
  | exitFast => IsLowest closes new config.exitFast
  | enterSlow => IsHighest closes new config.enterSlow
  | exitSlow => IsLowest closes new config.exitSlow

instance (closes : List Float) (new : Float) (count : Nat) : Decidable (IsHighest closes new count) :=
  inferInstanceAs (Decidable (_ ∧ _))

instance (closes : List Float) (new : Float) (count : Nat) : Decidable (IsLowest closes new count) :=
  inferInstanceAs (Decidable (_ ∧ _))

instance (config : Config) (closes : List Float) (new : Float) (b : Breakout) :
    Decidable (b.Occurs config closes new) :=
  match b with
  | .enterFast => inferInstanceAs (Decidable (IsHighest ..))
  | .exitFast => inferInstanceAs (Decidable (IsLowest ..))
  | .enterSlow => inferInstanceAs (Decidable (IsHighest ..))
  | .exitSlow => inferInstanceAs (Decidable (IsLowest ..))

/-- The last of the breakouts that occur, in the order of the settings. -/
def lastBreakout? (config : Config) (closes : List Float) (new : Float) : Option Breakout :=
  ([Breakout.enterFast, .exitFast, .enterSlow, .exitSlow].filter fun b =>
    b.Occurs config closes new).getLast?

/-- The signal of a candle after all the candles before it. -/
def signalAfter (config : Config) (before : List Candle) (c : Candle) : Option Signal :=
  (lastBreakout? config (before.map Candle.close) c.close).bind fun b =>
    if before.length + 1 < config.filterPeriod then none
    else if c.close < ((before ++ [c]).foldl Sma.update (.fresh config.filterPeriod)).value then
      some (.sure .closeLong)
    else if b.isEntry then some (.sure .openLong)
    else some (.sure .closeLong)

def Config.channels (config : Config) : List Nat :=
  [config.enterFast, config.exitFast, config.enterSlow, config.exitSlow]

theorem Config.pos_of_mem_channels {config : Config} (h : config.validate = .ok ()) {count : Nat}
    (hcount : count ∈ config.channels) : 0 < count := by
  by_contra hzero
  have hnone : config.enterFast = 0 ∨ config.exitFast = 0 ∨ config.enterSlow = 0 ∨
      config.exitSlow = 0 := by
    simp only [channels, List.mem_cons, List.not_mem_nil, or_false] at hcount
    omega
  rw [validate, if_pos hnone] at h
  cases h

theorem Config.le_longestChannel {config : Config} {count : Nat} (h : count ∈ config.channels) :
    count ≤ config.longestChannel := by
  simp only [channels, List.mem_cons, List.not_mem_nil, or_false] at h
  rw [longestChannel]
  omega

/-- The ring is read where the latest closes are. -/
theorem recent_eq_latest {ring : Window} {closes : List Float} (h : ring.Holds closes)
    {age count : Nat} (hlength : closes.length = age + 1) (hcount : count ≤ age)
    (hcapacity : count ≤ ring.capacity) :
    recent ring age count = (latest count closes).reverse := by
  apply List.ext_getElem
  · rw [recent, List.length_map, List.length_range, List.length_reverse, latest, List.length_drop]
    omega
  · intro i hi _
    rw [recent, List.length_map, List.length_range] at hi
    have hage : (age : Int) - (i : Nat) = ((age - i : Nat) : Int) := by omega
    have hget := h (age - i) (by omega) (by omega)
    simp only [recent, latest, List.getElem_map, List.getElem_range, List.getElem_reverse,
      List.getElem_drop, List.length_drop, hage, hget]
    congr 1
    omega

theorem mem_latest_concat (xs : List Float) (x : Float) {count : Nat} (h : 0 < count) :
    x ∈ latest count (xs ++ [x]) := by
  rw [latest, List.length_append, List.length_singleton,
    List.drop_append_of_le_length (by omega)]
  exact List.mem_append_right _ List.mem_cons_self

structure Reads (ring : Window) (closes : List Float) (new : Float) (count : Nat) : Prop where
  pos : 0 < count
  recent_eq : count ≤ closes.length →
    recent ring closes.length count = (latest count (closes ++ [new])).reverse

section Reading

variable {config : Config} {ring : Window} {closes : List Float} {new : Float} {count : Nat}

theorem Reads.mem_recent (h : Reads ring closes new count) (hcount : count ≤ closes.length)
    (x : Float) : x ∈ recent ring closes.length count ↔ x ∈ latest count (closes ++ [new]) := by
  rw [h.recent_eq hcount, List.mem_reverse]

theorem reads_of_holds (hconfig : config.validate = .ok ()) (h : ring.Holds (closes ++ [new]))
    (hcapacity : ring.capacity = config.longestChannel) (hcount : count ∈ config.channels) :
    Reads ring closes new count where
  pos := Config.pos_of_mem_channels hconfig hcount
  recent_eq := by
    intro hle
    apply recent_eq_latest h List.length_append hle
    rw [hcapacity]
    exact Config.le_longestChannel hcount

variable (hnumbers : ∀ x ∈ closes ++ [new], x.isNaN = false)

include hnumbers

/-- A test against the extreme of what is read compares with the whole channel. -/
theorem reaches_iff {extreme : List Float → Float} {R : Float → Float → Prop}
    (hextreme : ∀ {xs : List Float}, (∀ x ∈ xs, x.isNaN = false) → ∀ {y : Float}, y ∈ xs →
      ((y == extreme xs) = true ↔ ∀ x ∈ xs, R x y))
    (h : Reads ring closes new count) :
    (count ≤ closes.length && new == extreme (recent ring closes.length count)) = true ↔
      count ≤ closes.length ∧ ∀ x ∈ latest count (closes ++ [new]), R x new := by
  rw [Bool.and_eq_true, decide_eq_true_iff]
  apply and_congr_right
  intro hcount
  have hmem := h.mem_recent hcount
  rw [hextreme _ ((hmem new).2 (mem_latest_concat closes new h.pos))]
  · simp only [hmem]
  · intro x hx
    exact hnumbers x (List.mem_of_mem_drop ((hmem x).1 hx))

theorem isHighest_iff (h : Reads ring closes new count) :
    (count ≤ closes.length && new == Number.maximum (recent ring closes.length count)) = true ↔
      IsHighest closes new count :=
  reaches_iff hnumbers Number.beq_maximum_iff h

theorem isLowest_iff (h : Reads ring closes new count) :
    (count ≤ closes.length && new == Number.minimum (recent ring closes.length count)) = true ↔
      IsLowest closes new count :=
  reaches_iff (R := fun x y => y ≤ x) hnumbers Number.beq_minimum_iff h

omit hnumbers in
theorem lastBreakout?_eq (config : Config) (closes : List Float) (new : Float) :
    lastBreakout? config closes new =
      if IsLowest closes new config.exitSlow then some .exitSlow
      else if IsHighest closes new config.enterSlow then some .enterSlow
      else if IsLowest closes new config.exitFast then some .exitFast
      else if IsHighest closes new config.enterFast then some .enterFast
      else none := by
  rw [lastBreakout?]
  by_cases hexitSlow : IsLowest closes new config.exitSlow <;>
    by_cases henterSlow : IsHighest closes new config.enterSlow <;>
    by_cases hexitFast : IsLowest closes new config.exitFast <;>
    by_cases henterFast : IsHighest closes new config.enterFast <;>
    simp [Breakout.Occurs, hexitSlow, henterSlow, hexitFast, henterFast]

theorem breakout?_eq (h : ∀ count ∈ config.channels, Reads ring closes new count) :
    breakout? config ring closes.length new = lastBreakout? config closes new := by
  simp only [Config.channels, List.forall_mem_cons] at h
  obtain ⟨henterFast, hexitFast, henterSlow, hexitSlow, -⟩ := h
  rw [lastBreakout?_eq]
  simp only [breakout?, isLowest_iff hnumbers hexitSlow, isHighest_iff hnumbers henterSlow,
    isLowest_iff hnumbers hexitFast, isHighest_iff hnumbers henterFast]

end Reading

structure State.Follows (s : State) (config : Config) (candles : List Candle) : Prop where
  settings : s.config = config
  age : s.age = candles.length
  capacity : s.closes.capacity = config.longestChannel
  closes : s.closes.Holds (candles.map Candle.close)
  filter : s.filter = candles.foldl Sma.update (.fresh config.filterPeriod)

namespace State.Follows

variable {s : State} {config : Config} {candles : List Candle}

theorem fresh (config : Config) : (State.fresh config).Follows config [] :=
  ⟨rfl, rfl, Window.capacity_blank _, Window.holds_nil _, rfl⟩

theorem holds_set (h : s.Follows config candles) (hconfig : config.validate = .ok ()) (c : Candle) :
    (s.closes.set s.age c.close).Holds (candles.map Candle.close ++ [c.close]) := by
  have hpos : 0 < s.closes.capacity := by
    rw [h.capacity]
    exact Config.longestChannel_pos hconfig
  have hset := h.closes.set hpos c.close
  rwa [List.length_map, ← h.age] at hset

theorem advance (h : s.Follows config candles) (hconfig : config.validate = .ok ()) (c : Candle) :
    (s.advance c).1.Follows config (candles ++ [c]) where
  settings := h.settings
  age := by
    rw [List.length_append, List.length_singleton, ← h.age]
    rfl
  capacity := (Window.capacity_set _ _ _).trans h.capacity
  closes := by
    rw [List.map_append, List.map_singleton]
    exact h.holds_set hconfig c
  filter := by
    rw [List.foldl_append, List.foldl_cons, List.foldl_nil, ← h.filter]
    rfl

theorem reads (h : s.Follows config candles) (hconfig : config.validate = .ok ()) (c : Candle)
    {count : Nat} (hcount : count ∈ config.channels) :
    Reads (s.closes.set s.age c.close) (candles.map Candle.close) c.close count :=
  reads_of_holds hconfig (h.holds_set hconfig c)
    ((Window.capacity_set _ _ _).trans h.capacity) hcount

theorem signal?_eq (h : s.Follows config (candles ++ [c])) (hconfig : config.validate = .ok ())
    (b : Breakout) :
    s.signal? c.close b =
      if candles.length + 1 < config.filterPeriod then none
      else if c.close < ((candles ++ [c]).foldl Sma.update (.fresh config.filterPeriod)).value then
        some (.sure .closeLong)
      else if b.isEntry then some (.sure .openLong)
      else some (.sure .closeLong) := by
  have hready := Sma.ready_foldl (Config.filterPeriod_pos hconfig) (candles ++ [c])
  rw [List.length_append, List.length_singleton, ← h.filter] at hready
  rw [signal?, ← h.filter]
  by_cases hlength : config.filterPeriod ≤ candles.length + 1
  · rw [hready.2 hlength, if_neg (Nat.not_lt.2 hlength)]
    rfl
  · rw [Bool.eq_false_of_not_eq_true (mt hready.1 hlength), if_pos (Nat.not_le.1 hlength)]
    rfl

theorem update_eq (h : s.Follows config candles) (hconfig : config.validate = .ok ()) {c : Candle}
    (hnumbers : ∀ x ∈ candles ++ [c], x.close.isNaN = false) :
    (s.update c).2 = signalAfter config candles c := by
  have hcloses : ∀ x ∈ candles.map Candle.close ++ [c.close], x.isNaN = false := by
    rw [← List.map_singleton, ← List.map_append, List.forall_mem_map]
    exact hnumbers
  have hbreakout : (s.advance c).2 = lastBreakout? config (candles.map Candle.close) c.close := by
    rw [← breakout?_eq hcloses fun count hcount => h.reads hconfig c hcount, List.length_map,
      ← h.age, ← h.settings]
    rfl
  change (s.advance c).2.bind ((s.advance c).1.signal? c.close) = _
  rw [signalAfter, hbreakout]
  congr 1
  funext b
  exact (h.advance hconfig c).signal?_eq hconfig b

end State.Follows

theorem exists_follows {config : Config} (hconfig : config.validate = .ok ()) (history : List Feed) :
    ∃ s : State, Strategic.after (Strategy.turtle (.fresh config)) history = .turtle s ∧
      s.Follows config (history.map Feed.candle) := by
  apply Strategic.exists_after Strategy.turtle
    (fun s history => s.Follows config (history.map Feed.candle)) (.fresh config)
  intro s history hfollows f
  refine ⟨(s.advance f.candle).1, ?_, ?_⟩
  · cases f with
    | past c => rfl
    | present c => rfl
  · rw [List.map_append, List.map_singleton]
    exact hfollows.advance hconfig f.candle

/-- After every history of closes that are numbers, the answer to a candle is the one defined by the
history, and what is read of each channel that counts are the closes of its candles, newest first. -/
theorem update_eq_signalAfter {config : Config} (hconfig : config.validate = .ok ())
    (history : List Feed) (c : Candle)
    (hnumbers : ∀ x ∈ history.map Feed.candle ++ [c], x.close.isNaN = false) :
    ∃ s : State, Strategic.after (Strategy.turtle (.fresh config)) history = .turtle s ∧
      (s.update c).2 = signalAfter config (history.map Feed.candle) c ∧
      ∀ count ∈ config.channels, count ≤ history.length →
        recent (s.closes.set s.age c.close) s.age count =
          (latest count ((history.map Feed.candle ++ [c]).map Candle.close)).reverse := by
  obtain ⟨s, hs, hfollows⟩ := exists_follows hconfig history
  refine ⟨s, hs, hfollows.update_eq hconfig hnumbers, ?_⟩
  intro count hcount hle
  have hrecent := (hfollows.reads hconfig c hcount).recent_eq
  simp only [hfollows.age, List.length_map] at hrecent ⊢
  rw [List.map_append, List.map_singleton]
  exact hrecent hle

/-- Of the four channels only the fast ones count, and the new close is the highest of its channel. -/
theorem update_eq_signalAfter_rising :
    let config : Config := ⟨2, 2, 3, 3, 2⟩
    let history : List Feed := [.past (.ofClose 1.0), .present (.ofClose 2.0)]
    config.validate = .ok () ∧
      (∀ x ∈ history.map Feed.candle ++ [.ofClose 3.0], x.close.isNaN = false) ∧
      ∃ s : State, Strategic.after (Strategy.turtle (.fresh config)) history = .turtle s ∧
        (s.update (.ofClose 3.0)).2 = some (.sure .openLong) ∧
        ∀ count ∈ config.channels, count ≤ 2 →
          recent (s.closes.set s.age 3.0) s.age count = (latest count [1.0, 2.0, 3.0]).reverse := by
  have hnumbers : ∀ x ∈ [Candle.ofClose 1.0, .ofClose 2.0] ++ [.ofClose 3.0],
    x.close.isNaN = false := by decide +kernel
  have hsignal : signalAfter ⟨2, 2, 3, 3, 2⟩ [.ofClose 1.0, .ofClose 2.0] (.ofClose 3.0) =
    some (.sure .openLong) := by rfl
  obtain ⟨s, hs, hupdate, hrecent⟩ := update_eq_signalAfter
    (show (⟨2, 2, 3, 3, 2⟩ : Config).validate = .ok () by rfl)
    [.past (.ofClose 1.0), .present (.ofClose 2.0)] (.ofClose 3.0) hnumbers
  exact ⟨rfl, hnumbers, s, hs, hupdate.trans hsignal, hrecent⟩

end Turtle

end SignalEngine
