import SignalEngine.Json.Tagged
import SignalEngine.Text.LowerCase

namespace SignalEngine

/-- The span of a candle. -/
inductive Interval where
  | minute1
  | minute3
  | minute5
  | minute15
  | minute30
  | hour1
  | hour2
  | hour4
  | hour6
  | hour8
  | hour12
  | day1
  | day3
  | week1
  | month1
  deriving DecidableEq, Repr

namespace Interval

def all : List Interval :=
  [minute1, minute3, minute5, minute15, minute30, hour1, hour2, hour4, hour6, hour8, hour12, day1,
    day3, week1, month1]

def standard : Interval := minute1

def label : Interval → String
  | minute1 => "1m"
  | minute3 => "3m"
  | minute5 => "5m"
  | minute15 => "15m"
  | minute30 => "30m"
  | hour1 => "1h"
  | hour2 => "2h"
  | hour4 => "4h"
  | hour6 => "6h"
  | hour8 => "8h"
  | hour12 => "12h"
  | day1 => "1d"
  | day3 => "3d"
  | week1 => "1w"
  | month1 => "1M"

/-- The length in seconds; a month counts thirty days. -/
def seconds : Interval → Nat
  | minute1 => 60
  | minute3 => 180
  | minute5 => 300
  | minute15 => 900
  | minute30 => 1800
  | hour1 => 3600
  | hour2 => 7200
  | hour4 => 14400
  | hour6 => 21600
  | hour8 => 28800
  | hour12 => 43200
  | day1 => 86400
  | day3 => 259200
  | week1 => 604800
  | month1 => 2592000

def milliseconds (i : Interval) : Nat :=
  i.seconds * 1000

def ofWord? : String → Option Interval
  | "1min" | "minute" => some minute1
  | "1hour" | "hour" => some hour1
  | "day" | "daily" => some day1
  | "week" | "weekly" => some week1
  | "month" | "monthly" => some month1
  | _ => none

/-- The interval with this label. Case matters. -/
def ofLabel? (text : String) : Option Interval :=
  all.find? fun i => i.label == text

def parse? (text : String) : Option Interval :=
  ofLabel? text <|> ofWord? (Text.lower text)

def codec : Json.Codec Interval :=
  Json.Codec.enumeration all label

theorem mem_all (i : Interval) : i ∈ all := by
  cases i <;> decide

@[simp] theorem ofLabel?_label (i : Interval) : ofLabel? i.label = some i := by
  cases i <;> rfl

end Interval

end SignalEngine
