namespace SignalEngine.Cli

structure Switch where
  name : String
  short : Option Char
  takesValue : Bool
  deriving DecidableEq, Repr

namespace Switch

def valued (name : String) : Switch :=
  ⟨name, none, true⟩

def lettered (name : String) (short : Char) : Switch :=
  ⟨name, some short, true⟩

def flag (name : String) : Switch :=
  ⟨name, none, false⟩

end Switch

abbrev Given := List (String × Option String)

namespace Arguments

def isOption (word : List Char) : Bool :=
  match word with
  | '-' :: _ :: _ => true
  | _ => false

def splitValue (word : List Char) : String × Option String :=
  let name := String.ofList (word.takeWhile (· != '='))
  match word.dropWhile (· != '=') with
  | [] => (name, none)
  | _ :: value => (name, some (String.ofList value))

def attached? : List Char → Option String
  | [] => none
  | '=' :: rest => some (String.ofList rest)
  | rest => some (String.ofList rest)

/-- The option that a word begins, and the value in the word. -/
def switch? (switches : List Switch) (word : List Char) : Option (Switch × Option String) :=
  match word with
  | '-' :: '-' :: rest =>
      let (name, value) := splitValue rest
      (switches.find? fun s => s.name == name).map fun s => (s, value)
  | '-' :: letter :: rest =>
      (switches.find? fun s => s.short == some letter).map fun s => (s, attached? rest)
  | _ => none

/-- Reads options up to the first word that is none, and returns that word and all after it. No option
may be given twice, and after two hyphens alone no word may follow. -/
def scan (switches : List Switch) (given : Given) : List String → Option (Given × List String)
  | [] => some (given.reverse, [])
  | word :: rest =>
      if word = "--" then
        if rest.isEmpty then some (given.reverse, []) else none
      else if !isOption word.toList then some (given.reverse, word :: rest)
      else
        match switch? switches word.toList with
        | none => none
        | some (s, value) =>
            if given.any fun g => g.1 == s.name then none
            else
              match s.takesValue, value, rest with
              | false, none, rest => scan switches ((s.name, none) :: given) rest
              | false, some _, _ => none
              | true, some v, rest => scan switches ((s.name, some v) :: given) rest
              | true, none, [] => none
              | true, none, v :: rest =>
                  if isOption v.toList then none
                  else scan switches ((s.name, some v) :: given) rest

end Arguments

namespace Given

def value? (given : Given) (name : String) : Option String :=
  (given.find? fun g => g.1 == name).bind Prod.snd

def has (given : Given) (name : String) : Bool :=
  given.any fun g => g.1 == name

def read? (given : Given) (name : String) (read : String → Option α) : Option (Option α) :=
  match given.value? name with
  | none => some none
  | some text => (read text).map some

def readOr? (given : Given) (name : String) (read : String → Option α) (standard : α) : Option α :=
  (given.read? name read).map (·.getD standard)

end Given

end SignalEngine.Cli
