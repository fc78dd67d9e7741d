import SignalEngine.Cli.Program

namespace SignalEngine.Cli

/-- The fault that an error of the machine stands for. -/
def FileFault.ofError (e : IO.Error) : FileFault :=
  match e with
  | .noFileOrDirectory .. => .absent
  | .inappropriateType _ code _ => if code = 21 then .directory else .notDirectory
  | e => .other (toString e)

def readBytes (path : String) : IO (Except FileFault ByteArray) := do
  try
    return .ok (← IO.FS.readBinFile path)
  catch e =>
    return .error (.ofError e)

def textOfBytes (bytes : ByteArray) : Except FileFault String :=
  match Text.ofUtf8 bytes.toList with
  | .ok chars => .ok (String.ofList chars)
  | .error _ => .error .notText

def writeText (path text : String) : IO (Except FileFault Unit) := do
  try
    IO.FS.writeFile path text
    return .ok ()
  catch e =>
    return .error (.ofError e)

/-- Where the system keeps the variables of the running program, each ended by a zero. -/
def variablesPath : String :=
  "/proc/self/environ"

def splitVariable (cs : List Char) : String × String :=
  (String.ofList (cs.takeWhile (· != '=')), String.ofList ((cs.dropWhile (· != '=')).drop 1))

def readVariables : IO (List (String × String)) := do
  match (← readBytes variablesPath).bind textOfBytes with
  | .ok text => return (Text.splitAt '\x00' text.toList).map splitVariable
  | .error _ => return []

instance : Host IO where
  readFile path := do return (← readBytes path).bind textOfBytes
  writeFile := writeText
  environment := readVariables
  input := do return (← (← IO.getStdin).readBinToEnd).toList
  print line := IO.println line

end SignalEngine.Cli

def main (words : List String) : IO UInt32 := do
  let ending ← SignalEngine.Cli.run words
  match ending.report? with
  | some text => IO.eprintln text
  | none => pure ()
  return ending.status.toUInt32
