import SignalEngine.Strategy.Agreement
import SignalEngine.Strategy.Aldo
import SignalEngine.Strategy.Interface

namespace SignalEngine

/-- A strategy of any kind. It takes candles of the past in silence and may answer a candle of the
present with a signal. -/
inductive Strategy where
  | superTrend (state : SuperTrend.State)
  | turtle (state : Turtle.State)
  | aldo (state : Aldo.State)
  | agreement (state : Agreement.State)
  deriving Repr

namespace Strategy

def name : Strategy → String
  | superTrend _ => SuperTrend.name
  | turtle _ => Turtle.name
  | aldo _ => Aldo.name
  | agreement _ => Agreement.name

def description : Strategy → String
  | superTrend _ => SuperTrend.description
  | turtle _ => Turtle.description
  | aldo _ => Aldo.description
  | agreement _ => Agreement.description

def preload (s : Strategy) (c : Candle) : Strategy :=
  match s with
  | superTrend s => superTrend (s.preload c)
  | turtle s => turtle (s.preload c)
  | aldo s => aldo (s.preload c)
  | agreement s => agreement (s.preload c)

def update (s : Strategy) (c : Candle) : Strategy × Option Signal :=
  match s with
  | superTrend s => (s.update c).map superTrend id
  | turtle s => (s.update c).map turtle id
  | aldo s => (s.update c).map aldo id
  | agreement s => (s.update c).map agreement id

def probes (s : Strategy) (c : Candle) : List Probe :=
  match s with
  | superTrend s => s.probes
  | turtle _ => []
  | aldo s => s.probes c
  | agreement s => s.probes

instance : Persistent Strategy where
  checkpoint
    | superTrend s => checkpoint s
    | turtle s => checkpoint s
    | aldo s => checkpoint s
    | agreement s => checkpoint s
  load s text :=
    match s with
    | superTrend s => (Persistent.load s text).map superTrend
    | turtle s => (Persistent.load s text).map turtle
    | aldo s => (Persistent.load s text).map aldo
    | agreement s => (Persistent.load s text).map agreement

instance : Durable Strategy where
  preload := preload
  update := update
  probes := probes
  save s := .ok (checkpoint s)
  restore := restore
  save_eq _ := rfl
  restore_eq _ _ := rfl

end Strategy

end SignalEngine
