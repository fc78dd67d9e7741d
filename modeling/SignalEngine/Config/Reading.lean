import SignalEngine.Config.Setting
import SignalEngine.Config.Settings
import SignalEngine.Number.Layout
import SignalEngine.Number.Word
import SignalEngine.Text.LowerCase

namespace SignalEngine

/-- How values are read. -/
inductive Manner where
  | strict
  | lenient
  deriving DecidableEq, Repr

namespace Setting

def greatestWord : Nat :=
  Number.wordValues 64 - 1

/-- A real as a natural number: rounded to the nearest, a half away from zero, and taken into the
range. -/
def roundedCount (x : Float) : Nat :=
  if x.isNaN || x ≤ 0.0 then 0
  else if x.isInf then greatestWord
  else
    let r := (Number.magnitude x).ratio
    min ((2 * r.num + r.den) / (2 * r.den)) greatestWord

/-- A natural number of 64 bits, or one of the words for one and zero. -/
def countOfText? (s : String) : Option Nat :=
  let word := Text.lower s
  if word = "true" ∨ word = "on" ∨ word = "yes" then some 1
  else if word = "false" ∨ word = "off" ∨ word = "no" then some 0
  else (Number.readNat? s.toList).filter (· ≤ greatestWord)

def count? (manner : Manner) : Setting → Option Nat
  | .integer n => if 0 ≤ n then some n.toNat else none
  | .boolean b => if manner = .lenient then some b.toNat else none
  | .real x => if manner = .lenient then some (roundedCount x) else none
  | .text s => if manner = .lenient then countOfText? s else none
  | _ => none

def text? (manner : Manner) : Setting → Option String
  | .text s => some s
  | .boolean b => if manner = .lenient then some (if b then "true" else "false") else none
  | .integer n => if manner = .lenient then some (String.ofList (Number.intText n)) else none
  | .real x => if manner = .lenient then some (String.ofList (Number.plainText x)) else none
  | _ => none

def choiceNamed? (manner : Manner) (all : List α) (label : α → String) (name : String) :
    Option α :=
  match manner with
  | .strict => all.find? fun a => label a == name
  | .lenient => all.find? fun a => label a == Text.lower name

def isHollow : Setting → Bool
  | .list [] | .table [] => true
  | _ => false

/-- The value as one of several choices: its name, or a table with its name as the only entry. -/
def choice? (manner : Manner) (all : List α) (label : α → String) : Setting → Option α
  | .text name => choiceNamed? manner all label name
  | .table [(name, content)] =>
      if manner = .strict ∧ !content.isHollow then none
      else choiceNamed? manner all label name
  | _ => none

def items? : Setting → Option (List Setting)
  | .list items => some items
  | _ => none

/-- The content of a section, which may be given by names or in order. To the strict reader a moment is
a section without entries. -/
def section? (manner : Manner) : Setting → Option (Nat → String → Option Setting)
  | .table entries => some fun _ name => find? name entries
  | .list items => some fun position _ => items[position]?
  | .moment _ => if manner = .strict then some fun _ _ => none else none
  | _ => none

/-- Reads an entry of a section that may be left out. -/
def entry (find : Nat → String → Option Setting) (position : Nat) (name : String)
    (read : Setting → Option α) (standard : α) : Option α :=
  match find position name with
  | some v => read v
  | none => some standard

end Setting

open Setting

def AppSettings.read? (manner : Manner) (v : Setting) : Option AppSettings := do
  let find ← v.section? manner
  let standard := Settings.standard.app
  return ⟨← entry find 0 "name" (text? manner) standard.name,
    ← entry find 1 "environment" (text? manner) standard.environment⟩

def LogSettings.read? (manner : Manner) (v : Setting) : Option LogSettings := do
  let find ← v.section? manner
  let standard := Settings.standard.log
  return ⟨← entry find 0 "level" (text? manner) standard.level,
    ← entry find 1 "format" (choice? manner LogFormat.all LogFormat.label) standard.format⟩

def ServerSettings.read? (manner : Manner) (v : Setting) : Option ServerSettings := do
  let find ← v.section? manner
  let standard := Settings.standard.server
  return ⟨← entry find 0 "listen_addr" (text? manner) standard.address,
    ← entry find 1 "protocol" (choice? manner Protocol.all Protocol.label) standard.protocol⟩

def SessionLimits.read? (manner : Manner) (v : Setting) : Option SessionLimits := do
  let find ← v.section? manner
  return ⟨← entry find 0 "signal_chunk_size" (count? manner) SessionLimits.standard.signalChunk,
    ← entry find 1 "debug_chunk_size" (count? manner) SessionLimits.standard.debugChunk⟩

def readEnabled? (manner : Manner) (v : Setting) : Option (List String) := do
  let find ← v.section? manner
  entry find 0 "enabled" (fun v => v.items?.bind fun items => items.mapM (text? manner)) []

def SettingsDraft.read? (manner : Manner) (v : Setting) : Option SettingsDraft := do
  let find ← v.section? manner
  let standard := Settings.standard
  return ⟨← entry find 0 "app" (AppSettings.read? manner) standard.app,
    ← entry find 1 "logging" (LogSettings.read? manner) standard.log,
    ← entry find 2 "server" (ServerSettings.read? manner) standard.server,
    ← entry find 3 "session" (SessionLimits.read? manner) .standard,
    ← entry find 4 "strategies" (readEnabled? manner) standard.enabled⟩

def Settings.ofSetting (manner : Manner) (v : Setting) : Except SettingsError Settings :=
  match SettingsDraft.read? manner v with
  | some s => s.check
  | none => .error .unreadable

end SignalEngine
