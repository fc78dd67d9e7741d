namespace SignalEngine.Cli

/-- Why a file cannot be read or written. -/
inductive FileFault where
  | absent
  | notDirectory
  | directory
  | notText
  | other (text : String)
  deriving DecidableEq, Repr

def FileFault.message : FileFault → String
  | .absent => "No such file or directory (os error 2)"
  | .notDirectory => "Not a directory (os error 20)"
  | .directory => "Is a directory (os error 21)"
  | .notText => "stream did not contain valid UTF-8"
  | .other text => text

/-- The machine on which a command runs. -/
class Host (m : Type → Type) where
  /-- The text of a file. -/
  readFile : String → m (Except FileFault String)
  /-- Makes a file of a text. -/
  writeFile : String → String → m (Except FileFault Unit)
  /-- The environment variables. -/
  environment : m (List (String × String))
  /-- All bytes of the standard input. -/
  input : m (List UInt8)
  /-- Writes a line to the standard output. -/
  print : String → m Unit

/-- An error that ends a command: what failed, and the causes of that, the nearest first. -/
structure Complaint where
  message : String
  causes : List String
  deriving DecidableEq, Repr

namespace Complaint

def plain (message : String) : Complaint :=
  ⟨message, []⟩

def indentChar (indent : List Char) (c : Char) : List Char :=
  if c = '\n' then '\n' :: indent else [c]

def hang (mark : List Char) (text : String) : List Char :=
  '\n' :: mark ++ text.toList.flatMap (indentChar (List.replicate mark.length ' '))

def number (position : Nat) : List Char :=
  let digits := Nat.toDigits 10 position
  List.replicate (5 - digits.length) ' ' ++ digits ++ [':', ' ']

def causeText : List String → List Char
  | [] => []
  | [cause] => hang [' ', ' ', ' ', ' '] cause
  | causes => (causes.zipIdx.map fun (cause, position) => hang (number position) cause).flatten

def text (c : Complaint) : String :=
  "Error: " ++ c.message ++
    (if c.causes.isEmpty then "" else "\n\nCaused by:" ++ String.ofList (causeText c.causes))

def line (c : Complaint) : String :=
  ": ".intercalate (c.message :: c.causes)

end Complaint

/-- A command, or a part of one. What it has printed and written stays when it fails. -/
abbrev Action (m : Type → Type) (α : Type) := ExceptT Complaint m α

namespace Action

variable {m : Type → Type} [Monad m] [Host m]

def print (line : String) : Action m Unit :=
  ExceptT.lift (Host.print line)

def ofExcept (complaint : ε → Complaint) : Except ε α → Action m α
  | .ok a => pure a
  | .error e => throw (complaint e)

def read (path : String) : Action m String := do
  ofExcept (fun fault => ⟨"Failed to read " ++ path, [FileFault.message fault]⟩)
    (← ExceptT.lift (Host.readFile path))

def readNamed : Option String → Action m (Option String)
  | none => pure none
  | some path => do return some (← read path)

def write (path text : String) : Action m Unit := do
  ofExcept (fun fault => ⟨"Failed to write " ++ path, [FileFault.message fault]⟩)
    (← ExceptT.lift (Host.writeFile path text))

end Action

end SignalEngine.Cli
