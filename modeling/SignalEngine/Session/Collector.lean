import SignalEngine.Market.Probe
import SignalEngine.Session.Message

namespace SignalEngine

def DebugSeries.push (s : DebugSeries) (time : Int) (value : Float) : DebugSeries :=
  { s with points := s.points.push ⟨time, value⟩ }

/-- The series so far, and the places at which they stand by their names. -/
structure Collector where
  entries : Array DebugSeries
  places : List (String × Nat)

namespace Collector

def empty : Collector :=
  ⟨#[], []⟩

def series (d : Collector) : List DebugSeries :=
  d.entries.toList

def size (d : Collector) : Nat :=
  d.entries.size

/-- The place of the series with the probe's name. If there is none, it is begun at the end. -/
def place (d : Collector) (p : Probe) : Nat × Collector :=
  match d.places.lookup p.name with
  | some i => (i, d)
  | none =>
      -- the index stays that of the first probe
      (d.size, ⟨d.entries.push ⟨p.name, p.index, #[]⟩, (p.name, d.size) :: d.places⟩)

def add (d : Collector) (time : Int) (p : Probe) : Collector :=
  let (i, d) := d.place p
  { d with entries := d.entries.modify i fun s => s.push time p.value }

/-- Adds the probes of a candle, at its time rounded down to a whole second. -/
def record (d : Collector) (c : Candle) (probes : List Probe) : Collector :=
  probes.foldl (fun d p => d.add c.wholeSecond p) d

end Collector

end SignalEngine
