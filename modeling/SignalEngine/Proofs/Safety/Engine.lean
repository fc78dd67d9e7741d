import SignalEngine.Proofs.Safety.Strategy
import SignalEngine.Proofs.Session.Resumption

/-!
The engine as a whole: a strategy is made by name from a text of settings and then answers whatever
it is asked, restores from any text among it. Main statement: with every check that could stop the
program in its place, the engine gives the answers that it gives without them.
-/

namespace SignalEngine

open Restoring (ComesTo)

/-- What a strategy can be asked. -/
inductive Request where
  | restore (text : String)
  | preload (candle : Candle)
  | update (candle : Candle)
  | debug (candle : Candle)
  | checkpoint

/-- What a strategy answers. A restore tells whether the text was taken, and a candle of the past is
taken in silence. -/
inductive Reply where
  | restored (error : Option CheckpointError)
  | preloaded
  | updated (signal : Option Signal)
  | shown (probes : List Probe)
  | saved (text : String)

namespace Strategy

def reply (s : Strategy) : Request → Strategy × Reply
  | .restore text => ((restore s text).state, .restored (restore s text).error)
  | .preload c => (s.preload c, .preloaded)
  | .update c => ((s.update c).1, .updated (s.update c).2)
  | .debug c => (s, .shown (s.probes c))
  | .checkpoint => (s, .saved (checkpoint s))

def replies (s : Strategy) : List Request → List Reply
  | [] => []
  | r :: rest => (s.reply r).2 :: (s.reply r).1.replies rest

def tryPreload (s : Strategy) (c : Candle) : Except Panic Strategy :=
  match s with
  | superTrend s => superTrend <$> s.tryPreload c
  | turtle s => turtle <$> s.tryPreload c
  | aldo s => aldo <$> s.tryPreload c
  | agreement s => agreement <$> s.tryPreload c

def tryUpdate (s : Strategy) (c : Candle) : Except Panic (Strategy × Option Signal) :=
  match s with
  | superTrend s => Prod.map superTrend id <$> s.tryUpdate c
  | turtle s => Prod.map turtle id <$> s.tryUpdate c
  | aldo s => Prod.map aldo id <$> s.tryUpdate c
  | agreement s => Prod.map agreement id <$> s.tryUpdate c

def tryLoad (s : Strategy) (text : String) : Restoring Strategy :=
  match s with
  | superTrend _ => superTrend <$> SuperTrend.tryLoad text
  | turtle _ => turtle <$> Turtle.tryLoad text
  | aldo _ => aldo <$> Aldo.tryLoad text
  | agreement _ => agreement <$> Agreement.tryLoad text

def tryRestore (s : Strategy) (text : String) : Except Panic (Restored Strategy) := do
  match ← (s.tryLoad text).run with
  | .ok new => return ⟨new, none⟩
  | .error e => return ⟨s, some e⟩

def tryReply (s : Strategy) : Request → Except Panic (Strategy × Reply)
  | .restore text => do
      let r ← s.tryRestore text
      return (r.state, .restored r.error)
  | .preload c => do return (← s.tryPreload c, .preloaded)
  | .update c => do
      let (s, signal) ← s.tryUpdate c
      return (s, .updated signal)
  | .debug c => return (s, .shown (s.probes c))
  | .checkpoint => return (s, .saved (checkpoint s))

def tryReplies (s : Strategy) : List Request → Except Panic (List Reply)
  | [] => return []
  | r :: rest => do
      let (s, reply) ← s.tryReply r
      return reply :: (← s.tryReplies rest)

section Sound

variable {s : Strategy} (h : Sound s)

include h

theorem tryPreload_eq (c : Candle) : s.tryPreload c = .ok (s.preload c) := by
  cases s with
  | superTrend s => exact congrArg (superTrend <$> ·) (SuperTrend.State.tryPreload_eq h c)
  | turtle s => exact congrArg (turtle <$> ·) (Turtle.State.tryPreload_eq h c)
  | aldo s => exact congrArg (aldo <$> ·) (Aldo.State.tryPreload_eq h c)
  | agreement s => exact congrArg (agreement <$> ·) (Agreement.State.tryPreload_eq h c)

theorem tryUpdate_eq (c : Candle) : s.tryUpdate c = .ok (s.update c) := by
  cases s with
  | superTrend s => exact congrArg (Prod.map superTrend id <$> ·) (SuperTrend.State.tryUpdate_eq h c)
  | turtle s => exact congrArg (Prod.map turtle id <$> ·) (Turtle.State.tryUpdate_eq h c)
  | aldo s => exact congrArg (Prod.map aldo id <$> ·) (Aldo.State.tryUpdate_eq h c)
  | agreement s => exact congrArg (Prod.map agreement id <$> ·) (Agreement.State.tryUpdate_eq h c)

omit h in
theorem tryLoad_comesTo (s : Strategy) (text : String) :
    (s.tryLoad text).ComesTo (Persistent.load s text) := by
  cases s with
  | superTrend s => exact .map superTrend (SuperTrend.tryLoad_comesTo s text)
  | turtle s => exact .map turtle (Turtle.tryLoad_comesTo s text)
  | aldo s => exact .map aldo (Aldo.tryLoad_comesTo s text)
  | agreement s => exact .map agreement (Agreement.tryLoad_comesTo s text)

omit h in
/-- No text stops a restore, into whatever state. -/
theorem tryRestore_eq (s : Strategy) (text : String) : s.tryRestore text = .ok (restore s text) := by
  have hload : (s.tryLoad text).run = .ok (Persistent.load s text) := tryLoad_comesTo s text
  rw [tryRestore, hload, restore]
  cases Persistent.load s text with
  | ok new => rfl
  | error e => rfl

theorem tryReply_eq (r : Request) : s.tryReply r = .ok (s.reply r) := by
  cases r with
  | restore text =>
      rw [tryReply, tryRestore_eq]
      rfl
  | preload c =>
      rw [tryReply, tryPreload_eq h]
      rfl
  | update c =>
      rw [tryReply, tryUpdate_eq h]
      rfl
  | debug c => rfl
  | checkpoint => rfl

theorem sound_reply (r : Request) : Sound (s.reply r).1 := by
  cases r with
  | restore text => exact sound_restore h text
  | preload c => exact valid_preload h c
  | update c => exact valid_update h c
  | debug c => exact h
  | checkpoint => exact h

theorem tryReplies_eq (requests : List Request) :
    s.tryReplies requests = .ok (s.replies requests) := by
  induction requests generalizing s with
  | nil => rfl
  | cons r rest ih =>
      -- whatever was asked, a text restored among it, the state left is sound again
      rw [tryReplies, tryReply_eq h]
      dsimp only [bind, Except.bind]
      rw [ih (sound_reply h r)]
      rfl

end Sound

end Strategy

def tryMakeFrom (codec : Json.Codec α) (standard : α) (validate : α → Except ConfigFault Unit)
    (tryBuild : α → Except Panic Strategy) (text : String) :
    Except Panic (Except StrategyError Strategy) :=
  match (do
    let config ← readConfig codec standard text
    (validate config).mapError ConfigFault.error
    return config) with
  | .error e => return .error e
  | .ok config => return .ok (← tryBuild config)

def StrategyKind.tryMake : StrategyKind → String → Except Panic (Except StrategyError Strategy)
  | superTrend => tryMakeFrom SuperTrend.Config.codec .standard SuperTrend.Config.validate
      fun config => .superTrend <$> SuperTrend.State.tryFresh config
  | turtle => tryMakeFrom Turtle.Config.codec .standard Turtle.Config.validate
      fun config => .turtle <$> Turtle.State.tryFresh config
  | aldo => tryMakeFrom Aldo.Config.codec .standard Aldo.Config.validate
      fun config => .aldo <$> Aldo.State.tryFresh config
  | agreement => tryMakeFrom Agreement.Config.codec .standard Agreement.Config.validate
      fun config => .agreement <$> Agreement.State.tryFresh config

/-- The built-in strategy with a name, made from a text of settings. -/
def tryCreate (name config : String) : Except Panic (Except StrategyError Strategy) :=
  match StrategyKind.all.find? fun kind => kind.name == name with
  | none => return .error (.notFound name)
  | some kind => kind.tryMake config

theorem tryMakeFrom_eq {codec : Json.Codec α} {standard : α} {validate : α → Except ConfigFault Unit}
    {tryBuild : α → Except Panic Strategy} {build : α → Strategy}
    (h : ∀ config, validate config = .ok () → tryBuild config = .ok (build config))
    (text : String) :
    tryMakeFrom codec standard validate tryBuild text =
      .ok (makeFrom codec standard validate build text) := by
  rw [tryMakeFrom, makeFrom]
  cases readConfig codec standard text with
  | error e => rfl
  | ok config =>
      cases hvalid : validate config with
      | error fault => simp only [hvalid, bind, Except.bind, Except.mapError]; rfl
      | ok u =>
          simp only [hvalid, bind, Except.bind, Except.mapError, pure, Except.pure, h config hvalid]

theorem StrategyKind.tryMake_eq (kind : StrategyKind) (text : String) :
    kind.tryMake text = .ok (kind.make text) := by
  cases kind with
  | superTrend =>
      exact tryMakeFrom_eq
        (fun _ h => congrArg (Strategy.superTrend <$> ·) (SuperTrend.State.tryFresh_eq h)) text
  | turtle =>
      exact tryMakeFrom_eq
        (fun _ h => congrArg (Strategy.turtle <$> ·) (Turtle.State.tryFresh_eq h)) text
  | aldo =>
      exact tryMakeFrom_eq
        (fun _ h => congrArg (Strategy.aldo <$> ·) (Aldo.State.tryFresh_eq h)) text
  | agreement =>
      exact tryMakeFrom_eq
        (fun _ h => congrArg (Strategy.agreement <$> ·) (Agreement.State.tryFresh_eq h)) text

theorem Registry.create_builtIn (name config : String) :
    builtIn.create name config =
      match StrategyKind.all.find? fun kind => kind.name == name with
      | none => .error (.notFound name)
      | some kind => kind.make config := by
  have hall : builtIn.registrations =
    StrategyKind.all.map fun kind => kind.registration kind.name kind.description := by rfl
  rw [create, lookup, find?, hall, List.find?_map]
  simp only [Function.comp_def, StrategyKind.registration]
  cases StrategyKind.all.find? fun kind => kind.name == name with
  | none => rfl
  | some kind => rfl

theorem tryCreate_eq (name config : String) :
    tryCreate name config = .ok (Registry.builtIn.create name config) := by
  rw [tryCreate, Registry.create_builtIn]
  cases StrategyKind.all.find? fun kind => kind.name == name with
  | none => rfl
  | some kind => exact kind.tryMake_eq config

/-- A strategy is made, and answers one request after the other. -/
def engine (name config : String) (requests : List Request) : Except StrategyError (List Reply) := do
  let s ← Registry.builtIn.create name config
  return s.replies requests

/-- The same with all checks. -/
def tryEngine (name config : String) (requests : List Request) :
    Except Panic (Except StrategyError (List Reply)) := do
  match ← tryCreate name config with
  | .error e => return .error e
  | .ok s => return .ok (← s.tryReplies requests)

/-- Nothing stops the engine: whatever it is asked, under whatever name and with whatever settings,
no check fails, and the answers are those without the checks. -/
theorem tryEngine_eq (name config : String) (requests : List Request) :
    tryEngine name config requests = .ok (engine name config requests) := by
  rw [tryEngine, tryCreate_eq, engine]
  cases hcreate : Registry.builtIn.create name config with
  | error e => rfl
  | ok s =>
      obtain ⟨-, hreached, -⟩ := Strategy.reached_of_create hcreate
      dsimp only [bind, Except.bind]
      rw [Strategy.tryReplies_eq hreached.sound]
      rfl

end SignalEngine
