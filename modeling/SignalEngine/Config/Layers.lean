import SignalEngine.Config.Reading
import SignalEngine.Number.Decimal
import SignalEngine.Number.Word
import SignalEngine.Text.Split
import SignalEngine.Toml.Parse

/-!
Settings in layers: a file, and over it the environment. Names count in lower case. A table that is laid
over another goes in entry by entry; anything else replaces what was there.
-/

namespace SignalEngine

namespace Setting

def entries : Setting → List (String × Setting)
  | .table entries => entries
  | _ => []

def items : Setting → List Setting
  | .list items => items
  | _ => []

mutual

def laidOver : Setting → Setting → Setting
  | .table new, old => entriesOver new old
  | new, _ => new

/-- Lays entries over a value. If there are any, it becomes a table. -/
def entriesOver : List (String × Setting) → Setting → Setting
  | [], old => old
  | (name, new) :: rest, old =>
      let name := Text.lower name
      let under := (find? name old.entries).getD .empty
      entriesOver rest (.table (put name (laidOver new under) old.entries))

end

mutual

def plain : Setting → Setting
  | .moment s => .text s
  | .list vs => .list (plainItems vs)
  | .table es => .table (plainEntries es)
  | v => v

def plainItems : List Setting → List Setting
  | [] => []
  | v :: rest => plain v :: plainItems rest

def plainEntries : List (String × Setting) → List (String × Setting)
  | [] => []
  | (name, v) :: rest => (name, plain v) :: plainEntries rest

end

end Setting

/-- A step on the way to a value: to an entry of a table, or to an item of a list. A negative position
counts from the end. -/
inductive Step where
  | entry (name : String)
  | item (position : Int)
  deriving DecidableEq, Repr

namespace Step

def isNameChar (c : Char) : Bool :=
  c.isAlphanum || c == ' ' || c == '_' || c == '-'

def position? (cs : List Char) : Option Step :=
  match cs.reverse with
  | ']' :: digits => (Number.readInt? (Text.trim digits.reverse)).map item
  | _ => none

/-- The steps of a name and the positions in brackets after it. -/
def part? (cs : List Char) : Option (List Step) :=
  match Text.splitAt '[' cs with
  | [] => none
  | name :: positions =>
      if name.isEmpty || !name.all isNameChar then none
      else (positions.mapM position?).map fun steps => entry (String.ofList name) :: steps

/-- The steps of a path. A text that is no path is one name. -/
def path (text : String) : List Step :=
  match (Text.splitAt '.' text.toList).mapM part? with
  | some parts => parts.flatten
  | none => [entry text]

def place (position : Int) (length : Nat) : Nat :=
  if 0 ≤ position then position.toNat else length - position.natAbs

end Step

namespace Setting

/-- The list with another value at a place. Places before it that did not exist are unset. -/
def setItem (place : Nat) (value : Setting) (items : List Setting) : List Setting :=
  (items ++ List.replicate (place + 1 - items.length) Setting.unset).set place value

/-- Lays a value over the place at the end of a path, which is made if it does not exist. -/
def layAt (value : Setting) : List Step → Setting → Setting
  | [], _ => value
  | [.entry name], old => entriesOver [(name, value)] old
  | .entry name :: rest, old =>
      let name := Text.lower name
      let under := (find? name old.entries).getD .unset
      .table (put name (layAt value rest under) old.entries)
  | .item position :: rest, old =>
      let place := Step.place position old.items.length
      let under := old.items[place]?.getD Setting.unset
      .list (setItem place (layAt value rest under) old.items)

def lay (values : List (String × Setting)) (old : Setting) : Setting :=
  values.foldl (fun old (path, value) => layAt value (Step.path path) old) old

end Setting

namespace Environment

def marker : List Char :=
  ['q', 'u', 'a', 'n', 't', '_', '_']

/-- A name with a point in the place of every two underscores. -/
def pointed : List Char → List Char
  | '_' :: '_' :: rest => '.' :: pointed rest
  | c :: rest => c :: pointed rest
  | [] => []

def path? (name : String) : Option String :=
  let cs := (Text.lower name).toList
  if marker.isPrefixOf cs then some (String.ofList (pointed (cs.drop marker.length))) else none

def listPath : String :=
  "strategies.enabled"

def integer? (text : String) : Option Int :=
  (Number.readInt? text.toList).filter (Number.fitsSigned 63)

/-- The value of a variable: a truth value or a number if it is one, and otherwise a text, or a list of
texts with commas between them. -/
def value (path text : String) : Setting :=
  if Text.lower text = "true" then .boolean true
  else if Text.lower text = "false" then .boolean false
  else
    match integer? text with
    | some n => .integer n
    | none =>
        match Number.readFloat? text.toList with
        | some x => .real x
        | none =>
            if path = listPath then .list ((Text.split ',' text).map .text) else .text text

def settings (environment : List (String × String)) : List (String × Setting) :=
  environment.filterMap fun (name, text) => (path? name).map fun path => (path, value path text)

end Environment

namespace Settings

def ofText (text : String) : Except SettingsError Settings :=
  match Toml.parse? text with
  | some v => ofSetting .strict v
  | none => .error .unreadable

def load (path : String) (text : Option String) (environment : List (String × String)) :
    Except SettingsError Settings :=
  match text with
  | none => .error (.missing path)
  | some text =>
      match Toml.parse? text with
      | none => .error .unreadable
      | some file =>
          ofSetting .lenient
            (Setting.lay (Environment.settings environment) (Setting.lay file.plain.entries .empty))

end Settings

end SignalEngine
