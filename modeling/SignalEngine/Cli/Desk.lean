import SignalEngine.Cli.Host
import SignalEngine.Text.Split

namespace SignalEngine.Cli

/-- A machine in memory. The lines printed are newest first. -/
structure Desk where
  files : List (String × String)
  environment : List (String × String)
  input : List UInt8
  printed : List String
  deriving Repr

namespace Desk

/-- The names on the way to a file. A point stands for the directory itself. -/
def names (path : String) : List String :=
  (Text.split '/' path).filter fun name => name != "" && name != "."

def isForeign (path : String) : Bool :=
  path.toList.head? == some '/'

def find? (d : Desk) (path : String) : Option String :=
  (d.files.find? fun f => names f.1 == names path && !isForeign path).map Prod.snd

def hasDirectory (d : Desk) (way : List String) : Bool :=
  way.isEmpty || d.files.any fun f =>
    way.isPrefixOf (names f.1) && way.length < (names f.1).length

def blocked (d : Desk) (way : List String) : Bool :=
  d.files.any fun f => (names f.1).isPrefixOf way && (names f.1).length < way.length

def fault (d : Desk) (path : String) : FileFault :=
  if isForeign path then .absent
  else if d.hasDirectory (names path) then .directory
  else if d.blocked (names path) then .notDirectory
  else .absent

def read (d : Desk) (path : String) : Except FileFault String :=
  match d.find? path with
  | some text => .ok text
  | none => .error (d.fault path)

def canMake (d : Desk) (path : String) : Bool :=
  d.fault path == .absent && !isForeign path && d.hasDirectory (names path).dropLast

/-- Replaces the text of a file if it is the one at a path. -/
def replaceText (path text : String) (file : String × String) : String × String :=
  if names file.1 == names path then (file.1, text) else file

def write (d : Desk) (path text : String) : Except FileFault Desk :=
  match d.find? path with
  | some _ => .ok { d with files := d.files.map (replaceText path text) }
  | none =>
      if d.canMake path then .ok { d with files := d.files ++ [(path, text)] }
      else .error (d.fault path)

def lines (d : Desk) : List String :=
  d.printed.reverse

end Desk

instance : Host (StateM Desk) where
  readFile path := do return (← get).read path
  writeFile path text := do
    match (← get).write path text with
    | .ok d => set d; return .ok ()
    | .error fault => return .error fault
  environment := do return (← get).environment
  input := do return (← get).input
  print line := modify fun d => { d with printed := line :: d.printed }

end SignalEngine.Cli
